import Corpus.Text.Basic

/-!
# Log

What is reported beside the answers: entries of three levels, each from a named source.
-/

namespace Corpus.Log

/-- **Levels**, from the least to the most urgent. -/
inductive Level where
  | debug
  | info
  | warning
  deriving DecidableEq

/-- The urgency of a level. -/
def Level.rank : Level → Nat
  | debug => 0
  | info => 1
  | warning => 2

/-- How a level is written. -/
def Level.name : Level → Text
  | debug => "DEBUG".toList
  | info => "INFO".toList
  | warning => "WARNING".toList

/-- **Entry.** -/
structure Entry where
  level : Level
  source : Text
  text : Text
  deriving DecidableEq

/-- An entry on one line. -/
def Entry.line (entry : Entry) : Text :=
  entry.level.name ++ ' ' :: (entry.source ++ ':' :: ' ' :: entry.text)

/-- The entries of a level or above. -/
def atLeast (level : Level) (entries : List Entry) : List Entry :=
  entries.filter fun entry => level.rank ≤ entry.level.rank

end Corpus.Log
