/-!
# Field encodings as options

Two encodings of fields that a tab-separated file may use, each on or off.
-/

namespace Corpus

/-- **Options.** `joinCategoryToPos` folds the category into the tag, `addPosAsAttribute` repeats the
tag as the last attribute. -/
structure Options where
  joinCategoryToPos : Bool := false
  addPosAsAttribute : Bool := false
  deriving DecidableEq

end Corpus
