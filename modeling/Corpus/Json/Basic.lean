import Corpus.Number.Binary64
import Corpus.Text.Raw

/-!
# JSON values

Integers are exact, numbers with a fraction or an exponent are binary64, and the entries of an object
keep their order. Strings and keys are raw text, since an escape can spell a surrogate by itself.
-/

namespace Corpus

/-- **JSON value.** -/
inductive Json where
  | null
  | bool (value : Bool)
  | integer (value : Int)
  | number (value : Binary64)
  | string (value : RawText)
  | array (items : List Json)
  | object (entries : List (RawText × Json))

namespace Json

/-- **What can be nested.** -/
inductive Container where
  | array
  | object
  deriving DecidableEq

/-- A text as a string. -/
def ofText (text : Text) : Json := string text

/-- An entry under a key. -/
def entry (key : String) (value : Json) : RawText × Json := (key.toList, value)

end Json

end Corpus
