import Corpus.Conll.Reader
import Corpus.Proofs.Text.Pieces
import Mathlib.Data.List.Basic

/-!
# The attribute codec

* A piece either has no equals sign and is a name, or it is a name without one, an equals sign and a
  value. Everything about pieces is said for these two forms.
* An attribute is storable when a piece can spell it: it has a value, no equals sign in its name and
  no bar at all. Attributes that are read are storable, and storable ones are read back, so that lists
  of storable attributes are the ones that the codec keeps (`readAttributes_writeAttributes_eq_iff`).
  What is read once is therefore kept from then on (`readAttributes_reread`).
* In a feature column two spellings are taken already: the empty field and the underscore stand for
  no attributes.
-/

namespace Corpus

/-- **Storable attribute.** One that a piece of a feature field can spell. -/
structure Attribute.IsStorable (feature : Attribute) : Prop where
  value_ne_nil : feature.value ≠ []
  equals_not_mem : '=' ∉ feature.name
  bar_not_mem_name : '|' ∉ feature.name
  bar_not_mem_value : '|' ∉ feature.value

namespace Conll

variable {piece name value field : Text} {feature : Attribute} {attributes : List Attribute}

/-! ### Pieces -/

/-- **The two forms of a piece.** -/
theorem piece_cases (piece : Text) :
    '=' ∉ piece ∨ ∃ name value, piece = name ++ '=' :: value ∧ '=' ∉ name := by
  cases h : breakAt '=' piece with
  | none => exact .inl (breakAt_eq_none_iff.mp h)
  | some parts => exact .inr ⟨parts.1, parts.2, breakAt_eq_some_iff.mp h⟩

/-- A piece without an equals sign names an attribute with the value `on`. -/
theorem attributeOfPiece?_of_not_mem (h : '=' ∉ piece) :
    attributeOfPiece? piece = some ⟨piece, defaultValue⟩ := by
  rw [attributeOfPiece?, breakAt_eq_none_iff.mpr h]
  rfl

/-- A piece with an equals sign spells the name before it and the value after it. -/
theorem attributeOfPiece?_append (h : '=' ∉ name) (value : Text) :
    attributeOfPiece? (name ++ '=' :: value) = if value = [] then none else some ⟨name, value⟩ := by
  have hbreak : breakAt '=' (name ++ '=' :: value) = some (name, value) :=
    breakAt_eq_some_iff.mpr ⟨rfl, h⟩
  rw [attributeOfPiece?, hbreak]
  rfl

/-- A storable attribute is read back from its piece. -/
theorem attributeOfPiece?_writtenPiece (h : feature.IsStorable) :
    attributeOfPiece? (writtenPiece feature) = some feature := by
  obtain ⟨name, value⟩ := feature
  rw [writtenPiece]
  split
  · rename_i hvalue
    obtain rfl : value = defaultValue := hvalue
    exact attributeOfPiece?_of_not_mem h.equals_not_mem
  · rw [attributeOfPiece?_append h.equals_not_mem, if_neg h.value_ne_nil]

/-- A piece without a bar spells a storable attribute. -/
theorem isStorable_of_attributeOfPiece? (hbar : '|' ∉ piece)
    (h : attributeOfPiece? piece = some feature) : feature.IsStorable := by
  rcases piece_cases piece with hequals | ⟨name, value, rfl, hname⟩
  · rw [attributeOfPiece?_of_not_mem hequals] at h
    obtain rfl := Option.some.inj h
    exact ⟨(by decide : defaultValue ≠ []), hequals, hbar, (by decide : '|' ∉ defaultValue)⟩
  · rw [attributeOfPiece?_append hname] at h
    split at h
    · cases h
    · rename_i hvalue
      obtain rfl := Option.some.inj h
      simp only [List.mem_append, List.mem_cons, not_or] at hbar
      exact ⟨hvalue, hname, hbar.1, hbar.2.2⟩

theorem bar_not_mem_writtenPiece (h : feature.IsStorable) : '|' ∉ writtenPiece feature := by
  rw [writtenPiece]
  split
  · exact h.bar_not_mem_name
  · simp [h.bar_not_mem_name, h.bar_not_mem_value]

/-! ### Fields -/

/-- **Attributes read are storable.** -/
theorem isStorable_of_mem_readAttributes (h : feature ∈ readAttributes field) :
    feature.IsStorable := by
  obtain ⟨piece, hpiece, hfeature⟩ := List.mem_filterMap.mp h
  exact isStorable_of_attributeOfPiece? (not_mem_of_mem_splitOn hpiece) hfeature

/-- **Storable attributes are read back.** -/
theorem readAttributes_writeAttributes (hne : attributes ≠ [])
    (h : ∀ feature ∈ attributes, feature.IsStorable) :
    readAttributes (writeAttributes attributes) = attributes := by
  have hpieces : pieces (writeAttributes attributes) = attributes.map writtenPiece := by
    rw [writeAttributes, if_neg hne]
    refine Text.splitOn_joined (by simpa using hne) fun piece hpiece => ?_
    obtain ⟨feature, hfeature, rfl⟩ := List.mem_map.mp hpiece
    exact bar_not_mem_writtenPiece (h feature hfeature)
  rw [readAttributes, hpieces, List.filterMap_map]
  calc attributes.filterMap (attributeOfPiece? ∘ writtenPiece)
      = attributes.filterMap some :=
        List.filterMap_congr fun feature hfeature =>
          attributeOfPiece?_writtenPiece (h feature hfeature)
    _ = attributes := List.filterMap_some

/-- **What the codec keeps.** No attributes are not kept: their underscore is read as a name. -/
theorem readAttributes_writeAttributes_eq_iff :
    readAttributes (writeAttributes attributes) = attributes ↔
      attributes ≠ [] ∧ ∀ feature ∈ attributes, feature.IsStorable := by
  constructor
  · intro h
    refine ⟨?_, fun feature hfeature => isStorable_of_mem_readAttributes (h ▸ hfeature)⟩
    rintro rfl
    cases h
  · rintro ⟨hne, hstorable⟩
    exact readAttributes_writeAttributes hne hstorable

/-- **Reading again.** Attributes that were read are kept, whatever their field was, when there are
any. -/
theorem readAttributes_reread :
    readAttributes (writeAttributes (readAttributes field)) = readAttributes field ↔
      readAttributes field ≠ [] := by
  rw [readAttributes_writeAttributes_eq_iff]
  exact and_iff_left fun feature => isStorable_of_mem_readAttributes

/-- There is a warning for every piece that is not read. -/
theorem length_warnings_add_readAttributes (field word : Text) :
    (warnings field word).length + (readAttributes field).length = (pieces field).length := by
  rw [warnings, List.length_map, Nat.add_comm]
  exact length_readAttributes_add_droppedPieces field

/-- **The codec.** It keeps a list of attributes exactly if there are some and all are storable. What it
reads is storable, whatever the field, so that a list that was read and is not empty is kept. Of the
pieces of a field some are read, and every other one is warned about. -/
theorem attribute_codec :
    (∀ attributes, readAttributes (writeAttributes attributes) = attributes ↔
      attributes ≠ [] ∧ ∀ feature ∈ attributes, feature.IsStorable) ∧
    ∀ field,
      (∀ feature ∈ readAttributes field, feature.IsStorable) ∧
      (readAttributes (writeAttributes (readAttributes field)) = readAttributes field ↔
        readAttributes field ≠ []) ∧
      ∀ word, (∀ entry ∈ warnings field word, entry.level = .warning) ∧
        (warnings field word).length + (readAttributes field).length =
          (List.splitOn '|' field).length := by
  refine ⟨fun attributes => readAttributes_writeAttributes_eq_iff, fun field =>
    ⟨fun feature => isStorable_of_mem_readAttributes, readAttributes_reread, fun word =>
      ⟨fun entry hentry => ?_, length_warnings_add_readAttributes field word⟩⟩⟩
  obtain ⟨piece, -, rfl⟩ := List.mem_map.mp hentry
  rfl

/-! ### Columns -/

/-- **The attributes in a feature column**; an open column holds none. -/
def attributesIn (field : Text) : List Attribute :=
  if cleared field = [] then [] else readAttributes (cleared field)

theorem isStorable_of_mem_attributesIn (h : feature ∈ attributesIn field) :
    feature.IsStorable := by
  rw [attributesIn] at h
  split at h
  · cases h
  · exact isStorable_of_mem_readAttributes h

/-- **The feature column.** Attributes come back from the column they are written to when they are
storable and not one of the two lists whose spelling stands for no attributes. -/
theorem attributesIn_writeAttributes_eq_iff :
    attributesIn (writeAttributes attributes) = attributes ↔
      (∀ feature ∈ attributes, feature.IsStorable) ∧
        attributes ≠ [⟨[], defaultValue⟩] ∧ attributes ≠ [⟨['_'], defaultValue⟩] := by
  constructor
  · intro h
    refine ⟨fun feature hfeature => isStorable_of_mem_attributesIn (h ▸ hfeature), ?_, ?_⟩
    · rintro rfl
      cases h
    · rintro rfl
      cases h
  · rintro ⟨hstorable, hempty, hunderscore⟩
    by_cases hne : attributes = []
    · rw [hne]
      rfl
    · have hread := readAttributes_writeAttributes hne hstorable
      have hcleared : cleared (writeAttributes attributes) = writeAttributes attributes := by
        refine if_neg fun hspelled => hunderscore ?_
        rw [hspelled] at hread
        exact hread.symm
      have hspelled : writeAttributes attributes ≠ [] := by
        intro hspelled
        rw [hspelled] at hread
        exact hempty hread.symm
      rw [attributesIn, hcleared, if_neg hspelled, hread]

end Conll

end Corpus
