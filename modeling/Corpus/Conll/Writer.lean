import Corpus.Conll.Attributes
import Corpus.Conll.Encoding
import Corpus.Error

/-!
# Writing a tab-separated record

A token is a row of ten fields: its number, word, an underscore, category, tag, features, head, label
and two underscores. Empty and open fields are underscores, and a missing head is 0. A blank line ends
the record. A note is written as it is.
-/

namespace Corpus.Conll

/-- A field, an underscore when it is empty. -/
def writtenField (field : Text) : Text := if field = [] then ['_'] else field

/-- The number written for a head, counted from one. -/
def writtenHead : Option Int → Int
  | some head => head + 1
  | none => 0

/-- The fields of a token that has been decoded. -/
def rowFields (number : Nat) (token : Token) (head : Text) : List Text :=
  [Numeral.ofNat number, writtenField token.word, ['_'], writtenField (token.category.getD []),
   writtenField (token.tag.getD []), writeAttributes token.attributes, head,
   writtenField (token.label.getD []), ['_'], ['_']]

/-- **The row of a token.** -/
def writeRow (options : Options) (number : Nat) (token : Token) : Except NumeralFault Text :=
  let token := decode options token
  (Numeral.write (writtenHead token.head)).map fun head =>
    Text.joined ['\t'] (rowFields number token head)

/-- The rows of tokens numbered from `number` on. -/
def writeRows (options : Options) : (number : Nat) → List Token → Except NumeralFault (List Text)
  | _, [] => .ok []
  | number, token :: tokens => do
    let row ← writeRow options number token
    let rows ← writeRows options (number + 1) tokens
    return row :: rows

/-- **Writing.** -/
def write (options : Options) (s : Sentence) : Except Error Text :=
  match s.note with
  | some note => .ok (note ++ ['\n'])
  | none =>
    match writeRows options 1 s.tokens with
    | .ok rows => .ok (Text.joined ['\n'] rows ++ ['\n', '\n'])
    | .error fault => .error (.numeral fault)

end Corpus.Conll
