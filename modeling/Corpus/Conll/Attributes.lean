import Corpus.Sentence.Basic

/-!
# The feature column

Attributes stand in one field: pieces between bars, each a name, an equals sign and a value.

* A piece without an equals sign is a name with the value `on`, and such an attribute is written as
  its name alone. The first equals sign of a piece ends its name.
* A piece with an empty value is dropped; an empty name is kept.
* No attributes are written as an underscore.
-/

namespace Corpus.Conll

/-- The value of an attribute that is only named. -/
def defaultValue : Text := "on".toList

/-- The attribute that a piece spells, unless its value is empty. -/
def attributeOfPiece? (piece : Text) : Option Attribute :=
  let (name, value) := (breakAt '=' piece).getD (piece, defaultValue)
  if value = [] then none else some { name, value }

/-- The pieces of a feature field. -/
def pieces (field : Text) : List Text := List.splitOn '|' field

/-- **Reading attributes.** -/
def readAttributes (field : Text) : List Attribute := (pieces field).filterMap attributeOfPiece?

/-- The pieces that spell no attribute. -/
def droppedPieces (field : Text) : List Text :=
  (pieces field).filter fun piece => (attributeOfPiece? piece).isNone

/-- An attribute as a piece. -/
def writtenPiece (feature : Attribute) : Text :=
  if feature.value = defaultValue then feature.name
  else feature.name ++ '=' :: feature.value

/-- **Writing attributes.** -/
def writeAttributes (attributes : List Attribute) : Text :=
  if attributes = [] then ['_'] else Text.joined ['|'] (attributes.map writtenPiece)

/-- Every piece is read or dropped. -/
theorem length_readAttributes_add_droppedPieces (field : Text) :
    (readAttributes field).length + (droppedPieces field).length = (pieces field).length := by
  simp only [readAttributes, droppedPieces]
  induction pieces field with
  | nil => rfl
  | cons piece rest ih =>
    cases h : attributeOfPiece? piece <;> simp [h] <;> omega

end Corpus.Conll
