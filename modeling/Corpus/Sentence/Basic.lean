import Corpus.Text.Basic

/-!
# Sentences

A sentence is a text with tokens that point into it.

* A token covers the bytes `start` to `last` of the sentence's text, both included; an empty word has
  `last = start - 1`.
* An annotation that is `none` was left open; the empty text is an annotation like any other.
* `docid` is the id of the document that the sentence belongs to, if it belongs to one.
* `head` is the place of the governing token, counted from zero; a root has none.
* A sentence with a `note` stands for a record that was not read as tokens. The note is written back
  as it is.
-/

namespace Corpus

/-- **Attribute.** A morphological feature and its value. -/
structure Attribute where
  name : Text
  value : Text
  deriving DecidableEq

/-- **Token.** A word with its place in the text and its annotations. -/
structure Token where
  word : Text
  start : Int := 0
  last : Int := -1
  category : Option Text := none
  tag : Option Text := none
  label : Option Text := none
  head : Option Int := none
  attributes : List Attribute := []
  deriving DecidableEq

/-- **Sentence.** -/
structure Sentence where
  docid : Option Text := some []
  text : Text := []
  tokens : List Token := []
  note : Option Text := none
  deriving DecidableEq

/-- The sentence with one more token at its end. -/
def Sentence.push (s : Sentence) (token : Token) : Sentence :=
  { s with tokens := s.tokens ++ [token] }

end Corpus
