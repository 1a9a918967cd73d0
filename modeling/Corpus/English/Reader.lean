import Corpus.English.Rules
import Corpus.LineText
import Corpus.Log
import Corpus.Text.Quoted

/-!
# Reading English text

A line of English text is rewritten and then read as tokenized text.
-/

namespace Corpus.English

/-- **Reading.** -/
def read (docid : Option Text) (record : Text) : Option Sentence :=
  LineText.readTokenized docid (rewrite record)

/-- What is logged while a record is read. -/
def log (record : Text) : List Log.Entry :=
  [{ level := .debug
     source := "textformats.english".toList
     text := "Tokenized ".toList ++ RawText.quoted record ++ " as ".toList ++
        RawText.quoted (rewrite record) }]

end Corpus.English
