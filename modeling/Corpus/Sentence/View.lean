import Corpus.Json.Basic
import Corpus.Sentence.Basic

/-!
# Sentences as JSON

A token shows its word and its bytes, the annotations that it has, and its attributes if there are
any. The numbered view of a sentence adds to each token its number, counted from one.
-/

namespace Corpus

open Json (entry)

/-- An attribute as a JSON object. -/
def Attribute.view (feature : Attribute) : Json :=
  .object [entry "name" (.ofText feature.name), entry "value" (.ofText feature.value)]

/-- The entry of an annotation that is present. -/
def optionalEntry (key : String) (value : Option Json) : List (RawText × Json) :=
  value.toList.map (entry key)

/-- The entries of a token. -/
def Token.entries (token : Token) : List (RawText × Json) :=
  [entry "word" (.ofText token.word), entry "start" (.integer token.start),
   entry "end" (.integer token.last)] ++
  optionalEntry "category" (token.category.map .ofText) ++
  optionalEntry "tag" (token.tag.map .ofText) ++
  optionalEntry "label" (token.label.map .ofText) ++
  optionalEntry "head" (token.head.map .integer) ++
  (if token.attributes.isEmpty then []
   else [entry "attributes" (.array (token.attributes.map Attribute.view))])

/-- **A token as JSON.** -/
def Token.view (token : Token) : Json := .object token.entries

/-- A token as JSON with its number. -/
def Token.numberedView (token : Token) (number : Nat) : Json :=
  .object (token.entries ++ [entry "id" (.integer number)])

/-- The id of a document as JSON; an empty list stands for no document. -/
def documentView (docid : Option Text) : Json := (docid.map .ofText).getD (.array [])

/-- A sentence around the views of its tokens. -/
def Sentence.viewWith (s : Sentence) (tokens : List Json) : Json :=
  .object (
    [entry "docid" (documentView s.docid), entry "text" (.ofText s.text),
     entry "tokens" (.array tokens)] ++
    optionalEntry "note" (s.note.map .ofText))

/-- **A sentence as JSON.** -/
def Sentence.view (s : Sentence) : Json := s.viewWith (s.tokens.map Token.view)

/-- **A sentence as JSON with numbered tokens.** -/
def Sentence.numberedView (s : Sentence) : Json :=
  s.viewWith ((s.tokens.zipIdx 1).map fun entry => entry.1.numberedView entry.2)

end Corpus
