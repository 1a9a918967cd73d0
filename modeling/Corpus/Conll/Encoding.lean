import Corpus.Options.Basic
import Corpus.Sentence.Basic

/-!
# Field encodings

* Joining writes the category, two plus signs and the tag into the tag field and leaves the category
  open; splitting undoes it at the first two plus signs of the tag.
* The tag can be repeated as a last attribute of the name `fPOS`; an attribute of that name at the end
  is taken for the repeated one and removed.

`encode` is applied to what has been read, `decode` to what is written, each in the order above.
-/

namespace Corpus.Conll

/-- What stands between category and tag in a joined tag. -/
def categorySeparator : Text := "++".toList

/-- The name of the attribute that repeats the tag. -/
def posAttribute : Text := "fPOS".toList

/-- The category moved into the tag. -/
def joinCategory (token : Token) : Token :=
  { token with
    tag := some (token.category.getD [] ++ categorySeparator ++ token.tag.getD [])
    category := none }

/-- The category taken out of the tag. -/
def splitCategory (token : Token) : Token :=
  match Text.breakOn categorySeparator (token.tag.getD []) with
  | some (category, tag) => { token with category := some category, tag := some tag }
  | none => token

/-- The tag repeated as an attribute, unless it is open or empty. -/
def addPos (token : Token) : Token :=
  match token.tag with
  | none | some [] => token
  | some tag => { token with attributes := token.attributes ++ [⟨posAttribute, tag⟩] }

/-- The attributes without a repeated tag at their end. -/
def removePos (token : Token) : Token :=
  if token.attributes.getLast?.any fun feature => feature.name = posAttribute then
    { token with attributes := token.attributes.dropLast }
  else token

/-- **Encoding.** Applied to every token that is read. -/
def encode (options : Options) (token : Token) : Token :=
  let token := if options.joinCategoryToPos then joinCategory token else token
  if options.addPosAsAttribute then addPos token else token

/-- **Decoding.** Applied to every token that is written. -/
def decode (options : Options) (token : Token) : Token :=
  let token := if options.joinCategoryToPos then splitCategory token else token
  if options.addPosAsAttribute then removePos token else token

end Corpus.Conll
