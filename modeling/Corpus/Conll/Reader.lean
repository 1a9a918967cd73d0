import Corpus.Conll.Encoding
import Corpus.Conll.Row
import Corpus.Error
import Corpus.Log
import Corpus.Sentence.Draft

/-!
# Reading a tab-separated record

The rows of a record become the tokens of one sentence, its comments the note of a sentence without
rows. Lines are numbered from one, rows by their ids; the first row that is refused ends the reading.
-/

namespace Corpus.Conll

/-- The lines of a record with their numbers. -/
def numberedLines (record : Text) : List (Text × Nat) := (List.splitOn '\n' record).zipIdx 1

/-- The error that a refused row raises. -/
def Fault.error (fault : Fault) (line : RawText) (number : Nat) : Error :=
  match fault with
  | malformed reason => .malformed { reason, line, lineNumber := some (number : Int) }
  | numeral fault => .numeral fault

/-- **The rows of numbered lines**, the first of which has the id `expected`. -/
def readRows : (expected : Nat) → List (Text × Nat) → Except Error (List Row)
  | _, [] => .ok []
  | expected, (line, number) :: rest =>
    match Line.ofText line with
    | .row fields =>
      match Row.ofFields expected fields with
      | .error fault => .error (fault.error line number)
      | .ok row => (readRows (expected + 1) rest).map (row :: ·)
    | _ => readRows expected rest

/-- The comment of a line with a line feed after it. -/
def commentOf (line : Text) : Text :=
  match Line.ofText line with
  | .comment text => text ++ ['\n']
  | _ => []

/-- The comments of a record. -/
def comments (record : Text) : Text := (List.splitOn '\n' record).flatMap commentOf

/-- The draft of a record with these rows. -/
def draft (options : Options) (docid : Option Text) (record : Text) (rows : List Row) : Draft :=
  let words := rows.map Row.word
  let annotated := rows.map fun row => encode options row.token
  { docid
    tokens := List.zipWith Token.movedTo (wordTokens words) annotated
    text := wordText words
    comments := comments record
    standIn := encode options nounPlaceholder }

/-- **Reading.** -/
def read (options : Options) (docid : Option Text) (record : Text) :
    Except Error (Option Sentence) :=
  (readRows 1 (numberedLines record)).map fun rows => (draft options docid record rows).finish

/-! ### Log -/

/-- The warnings of a row: one for every piece of its features that was dropped. -/
def warnings (field word : Text) : List Log.Entry :=
  (droppedPieces field).map fun _ =>
    { level := .warning
      source := "textformats.conll".toList
      text := "Invalid attributes string: ".toList ++ field ++ " for token: ".toList ++ word }

/-- **What is logged while a record is read**: the warnings of the rows before the first one that is
refused. -/
def logRows : (expected : Nat) → List (Text × Nat) → List Log.Entry
  | _, [] => []
  | expected, (line, _) :: rest =>
    match Line.ofText line with
    | .row fields =>
      match Row.ofFields expected fields with
      | .error _ => []
      | .ok row =>
        (if row.features = [] then [] else warnings row.features row.word) ++
          logRows (expected + 1) rest
    | _ => logRows expected rest

/-- The log of a record. -/
def log (record : Text) : List Log.Entry := logRows 1 (numberedLines record)

end Corpus.Conll
