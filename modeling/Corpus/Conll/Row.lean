import Corpus.Conll.Attributes
import Corpus.Conll.Error

/-!
# Lines and rows

A record is a list of lines, and a line is of one of four kinds by its first field.

* An empty line and a line whose first field is a range of ids (digits, a hyphen, digits) say nothing.
* A line whose first field starts with `#` is a comment; the comment is that field.
* Any other line is a row. It has at least eight fields between tabs: id, word, lemma, category, tag,
  features, head and label. Lemma and all fields after the label are passed over.

An underscore leaves a field from the third on open. Id and head are integers, where an empty field
counts as 0; the id of the k-th row is k.
-/

namespace Corpus.Conll

/-- Digits, a hyphen and digits. -/
def isRange (field : Text) : Bool :=
  match breakAt '-' field with
  | some (low, high) => Numeral.isNatural low && Numeral.isNatural high
  | none => false

/-- **Line.** What a line of a record is. -/
inductive Line where
  | blank
  | comment (text : Text)
  | range
  | row (fields : List Text)
  deriving DecidableEq

/-- The fields of a line. -/
def fields (line : Text) : List Text := List.splitOn '\t' line

/-- **The kind of a line.** -/
def Line.ofText (line : Text) : Line :=
  if line = [] then blank
  else
    match fields line with
    | [] => blank
    | first :: rest =>
      if first.head? = some '#' then comment first
      else if isRange first then range
      else row (first :: rest)

/-- A field from the third on, open when it is an underscore. -/
def cleared (field : Text) : Text := if field = ['_'] then [] else field

/-- An annotation from a field; an empty field leaves it open. -/
def annotation (field : Text) : Option Text := if field = [] then none else some field

/-- **Row.** The fields of a row that are used. -/
structure Row where
  word : Text
  category : Text
  tag : Text
  features : Text
  head : Int
  label : Text
  deriving DecidableEq

/-- **Why a row was refused**: it is malformed, or a number in it is beyond the digit limit. -/
inductive Fault where
  | malformed (reason : Reason)
  | numeral (fault : NumeralFault)
  deriving DecidableEq

/-- The number in a number field. -/
def readNumber (field : NumberField) (value : Text) : Except Fault Int :=
  if value = [] then .ok 0
  else if Numeral.isInteger value then
    match Numeral.read value with
    | .ok n => .ok n
    | .error fault => .error (.numeral fault)
  else .error (.malformed (.notInteger field value))

/-- **Reading a row.** The checks are made in the order of the fields. -/
def Row.ofFields (expected : Nat) : List Text → Except Fault Row
  | id :: word :: _ :: category :: tag :: features :: head :: label :: _ =>
    match readNumber .tokenId id with
    | .error fault => .error fault
    | .ok number =>
      if number ≠ expected then .error (.malformed (.unexpectedId expected id))
      else
        match readNumber .head (cleared head) with
        | .error fault => .error fault
        | .ok head =>
          .ok {
            word
            category := cleared category
            tag := cleared tag
            features := cleared features
            head
            label := cleared label }
  | _ => .error (.malformed .tooFewFields)

/-- **The token of a row**, not yet placed. Heads are counted from one in a row and from zero in a
token; a head that is not positive is none. -/
def Row.token (row : Row) : Token :=
  { word := row.word
    category := annotation row.category
    tag := annotation row.tag
    label := annotation row.label
    head := if 0 < row.head then some (row.head - 1) else none
    attributes := if row.features = [] then [] else readAttributes row.features }

end Corpus.Conll
