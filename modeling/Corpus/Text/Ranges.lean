import Corpus.Text.Basic

/-!
# Character classes by range

A class of characters given as data is a list of ranges of code points, both ends included.
-/

namespace Corpus

/-- **Ranges of code points.** Both ends of a range belong to it. -/
abbrev Ranges := List (Nat × Nat)

/-- A code point belongs to the class when it lies in one of the ranges. -/
def Ranges.contains (ranges : Ranges) (c : Char) : Bool :=
  ranges.any fun range => range.1 ≤ c.toNat && c.toNat ≤ range.2

end Corpus
