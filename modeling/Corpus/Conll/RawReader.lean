import Corpus.Conll.Reader

/-!
# Reading a raw record

A record may arrive with lone surrogates in it. It is divided and checked like any other: no check asks
for a surrogate, so a field with one is neither a range of ids nor a number. But the bytes of the words
are counted, and the first word that has no encoding ends the reading once all lines have been checked.

`readRaw` is the reading as far as it can fail; for a text it fails as `read` does.
-/

namespace Corpus.Conll

/-- The fields of a raw line. -/
def rawFields (line : RawText) : List RawText := List.splitOn (.char '\t') line

/-- Digits, a hyphen and digits. -/
def isRawRange (field : RawText) : Bool :=
  match field.toText with
  | .ok text => isRange text
  | .error _ => false

/-- The fields of a raw line that is a row; any other line says nothing. -/
def rawRow? (line : RawText) : Option (List RawText) :=
  if line = [] then none
  else
    match rawFields line with
    | [] => none
    | first :: rest =>
      if first.head? = some (.char '#') then none
      else if isRawRange first then none
      else some (first :: rest)

/-- The number in a raw number field. -/
def readRawNumber (field : NumberField) (value : RawText) : Except Fault Int :=
  match value.toText with
  | .ok text => readNumber field text
  | .error _ => .error (.malformed (.notInteger field value))

/-- A raw field from the third on, open when it is an underscore. -/
def rawCleared (field : RawText) : RawText := if field = [.char '_'] then [] else field

/-- **Checking a raw row**, in the order of its fields. What is left of it is its word. -/
def rawWord (expected : Nat) : List RawText → Except Fault RawText
  | id :: word :: _ :: _ :: _ :: _ :: head :: _ :: _ =>
    match readRawNumber .tokenId id with
    | .error fault => .error fault
    | .ok number =>
      if number ≠ expected then .error (.malformed (.unexpectedId expected id))
      else
        match readRawNumber .head (rawCleared head) with
        | .error fault => .error fault
        | .ok _ => .ok word
  | _ => .error (.malformed .tooFewFields)

/-- **The words of numbered raw lines**, the first of which has the id `expected`. -/
def rawWords : (expected : Nat) → List (RawText × Nat) → Except Error (List RawText)
  | _, [] => .ok []
  | expected, (line, number) :: rest =>
    match rawRow? line with
    | none => rawWords expected rest
    | some fields =>
      match rawWord expected fields with
      | .error fault => .error (fault.error line number)
      | .ok word => (rawWords (expected + 1) rest).map (word :: ·)

/-- The texts that words are, or the error about the first that is none. -/
def encodedWords : List RawText → Except Error (List Text)
  | [] => .ok []
  | word :: words =>
    match word.toText with
    | .error fault => .error (.unencodable fault)
    | .ok text => (encodedWords words).map (text :: ·)

/-- The raw lines of a record with their numbers. -/
def numberedRawLines (record : RawText) : List (RawText × Nat) :=
  (List.splitOn (.char '\n') record).zipIdx 1

/-- **Reading a raw record**: the words of its rows, or the error that ends the reading. -/
def readRaw (record : RawText) : Except Error (List Text) :=
  match rawWords 1 (numberedRawLines record) with
  | .error e => .error e
  | .ok words => encodedWords words

end Corpus.Conll
