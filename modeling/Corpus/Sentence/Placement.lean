import Corpus.Sentence.Basic

/-!
# Placing words

Tokens for words that stand one after another in a text, a fixed number of bytes apart.

* `Token.placed` gives each word the bytes it covers.
* `wordTokens` and `wordText` belong to words with a space between neighbours, `characterTokens` to
  the characters of a text by themselves.
-/

namespace Corpus

/-- **Placed words.** Tokens for `words` from byte `offset` on, `gap` bytes apart. -/
def Token.placed (gap : Nat) : (offset : Nat) → (words : List Text) → List Token
  | _, [] => []
  | offset, word :: words =>
    { word, start := offset, last := (offset : Int) + word.byteLength - 1 } ::
      placed gap (offset + word.byteLength + gap) words

/-- A token moved to the bytes that another one covers. -/
def Token.movedTo (place token : Token) : Token :=
  { token with start := place.start, last := place.last }

/-- **The text of words.** One space between neighbours. -/
def wordText (words : List Text) : Text := Text.joined [' '] words

/-- The tokens of words in their text. -/
def wordTokens (words : List Text) : List Token := Token.placed 1 0 words

/-- A token for every character of a text. -/
def characterTokens (text : Text) : List Token := Token.placed 0 0 (text.map ([·]))

/-- **Words between spaces.** The pieces of a text that are not empty. -/
def spacedWords (text : Text) : List Text := (List.splitOn ' ' text).filter (· ≠ [])

@[simp] theorem Token.map_word_placed (gap offset : Nat) (words : List Text) :
    (placed gap offset words).map Token.word = words := by
  induction words generalizing offset with
  | nil => rfl
  | cons word words ih => simp [placed, ih]

@[simp] theorem Token.length_placed (gap offset : Nat) (words : List Text) :
    (placed gap offset words).length = words.length := by
  induction words generalizing offset with
  | nil => rfl
  | cons word words ih => simp [placed, ih]

end Corpus
