import Corpus.Error
import Corpus.Sentence.Draft

/-!
# One sentence a line

Text with one sentence a line, read in two ways and written in one.

* Tokenized text is cut at spaces; the text of the sentence has one space between words.
* Untokenized text is cut into its characters; its text is the line itself.
* A sentence is written as its words with a space between them. A tag and a head follow their word,
  each after an underscore.
-/

namespace Corpus.LineText

/-- **Reading tokenized text.** -/
def readTokenized (docid : Option Text) (record : Text) : Option Sentence :=
  let words := spacedWords record
  Draft.finish { docid, tokens := wordTokens words, text := wordText words }

/-- **Reading untokenized text.** -/
def readCharacters (docid : Option Text) (record : Text) : Option Sentence :=
  Draft.finish { docid, tokens := characterTokens record, text := record }

/-- A word with its tag and its head. -/
def writtenToken (token : Token) : Except NumeralFault Text := do
  let head ←
    match token.head with
    | none => .ok []
    | some head => (Numeral.write head).map ('_' :: ·)
  return token.word ++ (token.tag.map ('_' :: ·)).getD [] ++ head

/-- The words of tokens, each with its tag and its head. -/
def writtenTokens : List Token → Except NumeralFault (List Text)
  | [] => .ok []
  | token :: tokens => do
    let word ← writtenToken token
    let words ← writtenTokens tokens
    return word :: words

/-- **Writing.** -/
def write (s : Sentence) : Except Error Text :=
  match writtenTokens s.tokens with
  | .ok words => .ok (wordText words ++ ['\n'])
  | .error fault => .error (.numeral fault)

end Corpus.LineText
