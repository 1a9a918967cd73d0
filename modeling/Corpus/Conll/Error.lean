import Corpus.Number.Numeral
import Corpus.Text.Quoted

/-!
# Malformed rows

Why a row was refused, and where. The message names the line when its number is known. Fields and lines
are told as they arrived, as raw text.
-/

namespace Corpus.Conll

/-- The fields that hold numbers. -/
inductive NumberField where
  | tokenId
  | head
  deriving DecidableEq

/-- How a number field is called. -/
def NumberField.name : NumberField → Text
  | tokenId => "token id".toList
  | head => "head".toList

/-- **Why a row was refused.** -/
inductive Reason where
  /-- The row has fewer fields than a row needs. -/
  | tooFewFields
  /-- A number field holds something else. -/
  | notInteger (field : NumberField) (value : RawText)
  /-- The token id is not the next number. -/
  | unexpectedId (expected : Nat) (found : RawText)
  /-- A reason in words. -/
  | stated (text : RawText)
  deriving DecidableEq

/-- The reason in words. -/
def Reason.text : Reason → RawText
  | tooFewFields => "Every line has to have at least 8 tab separated fields".toList
  | notInteger field value =>
    ("Invalid ".toList ++ field.name ++ " '".toList : Text) ++ value ++
      ("': expected an integer".toList : Text)
  | unexpectedId expected found =>
    "Expected token id ".toList ++ Numeral.ofNat expected ++ ", got ".toList ++ found.quoted ++
      ". Token ids start at 1 for each new sentence and increase by 1 on each new token. ".toList ++
      "Sentences are separated by an empty line".toList
  | stated text => text

/-- **Malformed row.** The reason with the line it was found in. -/
structure FormatError where
  reason : Reason
  line : RawText := []
  lineNumber : Option Int := none
  deriving DecidableEq

/-- **The message.** -/
def FormatError.message (e : FormatError) : RawText :=
  match e.lineNumber with
  | none => e.reason.text
  | some number =>
    e.reason.text ++
      (" (line ".toList ++ Numeral.ofInt number ++ ": ".toList ++ e.line.quoted ++ [')'] : Text)

end Corpus.Conll
