import Corpus.Sentence.Placement

/-!
# From a draft to a sentence

All readers end in the same decision about what a record has become.

* A record of at most a hundred tokens is a sentence of these tokens.
* A longer one is a placeholder with a note that quotes the text.
* One without tokens is a placeholder with its comments as the note, or nothing.
-/

namespace Corpus

/-- The greatest number of tokens that a sentence is read with. -/
def tokenLimit : Nat := 100

/-- The word of a placeholder, and the text of its sentence. -/
def placeholderWord : Text := "#DUMMY#".toList

/-- **Placeholder.** The token that stands for a record that was not read as tokens. -/
def placeholder : Token := { word := placeholderWord, start := 0, last := 6 }

/-- The placeholder with the annotations of a noun. -/
def nounPlaceholder : Token :=
  { placeholder with tag := some "NN".toList, category := some "NOUN".toList }

/-- The note of a record with too many tokens. -/
def skipNote (quoted : Text) : Text :=
  "#skip because token_size() > 100\n#".toList ++ quoted ++ ['\n']

/-- **Draft.** What a reader has found in a record. `quoted` is the text that a note repeats, and
`standIn` the token of a sentence with a note. -/
structure Draft where
  docid : Option Text
  tokens : List Token
  text : Text
  quoted : Text := text
  comments : Text := []
  standIn : Token := placeholder

/-- The sentence that consists of a note. -/
def Draft.noted (draft : Draft) (note : Text) : Sentence :=
  { docid := draft.docid, text := placeholderWord, tokens := [draft.standIn], note := some note }

/-- **Finishing.** The sentence that a draft becomes, if it becomes one. -/
def Draft.finish (draft : Draft) : Option Sentence :=
  if tokenLimit < draft.tokens.length then some (draft.noted (skipNote draft.quoted))
  else if draft.tokens ≠ [] then
    some { docid := draft.docid, text := draft.text, tokens := draft.tokens }
  else if draft.comments ≠ [] then some (draft.noted draft.comments)
  else none

end Corpus
