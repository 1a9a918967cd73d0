import Corpus.Error
import Corpus.Text.Utf8

/-!
# Records

A stream is read line by line, and lines are grouped into records: in the mode `block` up to the next
empty line, in the mode `line` one by one.

* A line ends at a line feed. One carriage return directly before it belongs to the end of the line.
  A last line without a line feed is kept as it is; nothing after a last line feed is no line.
* Bytes are cut into lines first and decoded line by line.
* A block record is its lines, each with a line feed; the empty line that ends it is read and dropped.
* There are no more records when no line is left.
-/

namespace Corpus

/-- **Record mode.** -/
inductive RecordMode where
  | block
  | line
  deriving DecidableEq

namespace RecordMode

/-- How a mode is called. -/
def name : RecordMode → Text
  | block => "block".toList
  | line => "line".toList

/-- The mode of a name. -/
def ofName (text : Text) : Except Error RecordMode :=
  match [block, line].find? fun mode => mode.name = text with
  | some mode => .ok mode
  | none => .error (.unknownMode text)

/-- **Up to the last record boundary.** The lines of a text that end in a line feed, in the mode `block`
up to the last empty one of them. -/
def upToBoundary (mode : RecordMode) (text : Text) : Text :=
  let lines := (List.splitOn '\n' text).dropLast
  let kept :=
    match mode with
    | line => lines
    | block => (lines.reverse.dropWhile (· ≠ [])).reverse
  kept.flatMap (· ++ ['\n'])

end RecordMode

/-- **Stream.** What is still to be read, as text or as bytes in UTF-8. -/
inductive Stream where
  | text (rest : Text)
  | bytes (rest : List UInt8)
  deriving DecidableEq

/-- A line without one carriage return at its end. -/
def dropReturn (line : Text) : Text :=
  if line.getLast? = some '\r' then line.dropLast else line

namespace Stream

/-- The number of characters or bytes left. -/
def size : Stream → Nat
  | text rest => rest.length
  | bytes rest => rest.length

/-- **The next line**, and the stream after it. -/
def nextLine? : Stream → Option (Text × Stream)
  | text [] => none
  | text (c :: cs) =>
    match breakAt '\n' (c :: cs) with
    | some (line, rest) => some (dropReturn line, text rest)
    | none => some (c :: cs, text [])
  | bytes [] => none
  | bytes (b :: bs) =>
    match breakAt 0x0A (b :: bs) with
    | some (line, rest) => some (dropReturn (Utf8.decodeLossy line), bytes rest)
    | none => some (Utf8.decodeLossy (b :: bs), bytes [])

/-- Every line takes something from the stream. -/
theorem size_lt_of_nextLine? {s rest : Stream} {line : Text}
    (h : s.nextLine? = some (line, rest)) : rest.size < s.size := by
  match s with
  | text [] => simp [nextLine?] at h
  | bytes [] => simp [nextLine?] at h
  | text (c :: cs) =>
    simp only [nextLine?] at h
    split at h
    · rename_i hb
      simp only [Option.some.injEq, Prod.mk.injEq] at h
      obtain ⟨-, rfl⟩ := h
      exact length_lt_of_breakAt hb
    · simp only [Option.some.injEq, Prod.mk.injEq] at h
      obtain ⟨-, rfl⟩ := h
      simp [size]
  | bytes (b :: bs) =>
    simp only [nextLine?] at h
    split at h
    · rename_i hb
      simp only [Option.some.injEq, Prod.mk.injEq] at h
      obtain ⟨-, rfl⟩ := h
      exact length_lt_of_breakAt hb
    · simp only [Option.some.injEq, Prod.mk.injEq] at h
      obtain ⟨-, rfl⟩ := h
      simp [size]

end Stream

/-- **Reading a record.** What was read, whether there was anything to read, and the stream after
it. -/
structure Reading where
  record : Text
  more : Bool
  rest : Stream
  deriving DecidableEq

namespace Stream

/-- The lines up to the next empty line, whether there was one, and the stream after it. -/
def blockLines (s : Stream) : List Text × Bool × Stream :=
  match h : s.nextLine? with
  | none => ([], false, s)
  | some ([], rest) => ([], true, rest)
  | some (line, rest) =>
    have := size_lt_of_nextLine? h
    let (lines, ended, rest) := blockLines rest
    (line :: lines, ended, rest)
termination_by s.size

/-- The next record in the mode `block`. -/
def readBlock (s : Stream) : Reading :=
  let (lines, ended, rest) := s.blockLines
  { record := lines.flatMap (· ++ ['\n']), more := ended || !lines.isEmpty, rest }

/-- The next record in the mode `line`. -/
def readLine (s : Stream) : Reading :=
  match s.nextLine? with
  | none => { record := [], more := false, rest := s }
  | some (line, rest) => { record := line, more := true, rest }

/-- **The next record.** -/
def readRecord (mode : RecordMode) (s : Stream) : Reading :=
  match mode with
  | .block => s.readBlock
  | .line => s.readLine

/-- **A call for a record** in the mode of a name: the record and whether there was one, and the stream
after it. A name of no mode is refused before anything is read. -/
def call (name : Text) (s : Stream) : Except Error (Text × Bool) × Stream :=
  match RecordMode.ofName name with
  | .error e => (.error e, s)
  | .ok mode =>
    let reading := s.readRecord mode
    (.ok (reading.record, reading.more), reading.rest)

theorem blockLines_size (s : Stream) :
    (s.blockLines.2.1 = true ∨ s.blockLines.1 ≠ [] → s.blockLines.2.2.size < s.size) ∧
      s.blockLines.2.2.size ≤ s.size := by
  fun_induction blockLines s with
  | case1 => simp
  | case2 s rest h =>
    exact ⟨fun _ => size_lt_of_nextLine? h, Nat.le_of_lt (size_lt_of_nextLine? h)⟩
  | case3 s line rest hne h hlt lines ended rest' heq ih =>
    simp only [heq] at ih
    exact ⟨fun _ => by simp only; omega, by simp only; omega⟩

/-- A record that was there takes something from the stream. -/
theorem size_lt_of_more {mode : RecordMode} {s : Stream} (h : (s.readRecord mode).more = true) :
    (s.readRecord mode).rest.size < s.size := by
  cases mode with
  | block =>
    simp only [readRecord, readBlock, Bool.or_eq_true, Bool.not_eq_true',
      List.isEmpty_eq_false_iff] at h ⊢
    exact (blockLines_size s).1 h
  | line =>
    simp only [readRecord, readLine] at h ⊢
    split at h
    · simp at h
    · rename_i hn
      exact size_lt_of_nextLine? hn

/-- **All records of a stream.** -/
def records (mode : RecordMode) (s : Stream) : List Text :=
  let reading := s.readRecord mode
  if h : reading.more = true then
    have := size_lt_of_more h
    reading.record :: records mode reading.rest
  else []
termination_by s.size

end Stream

end Corpus
