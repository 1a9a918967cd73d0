import Corpus.Proofs.English.Substitution
import Mathlib.Data.List.GetD

/-!
# Rules that only move spaces

The content of a text is the text without its spaces.

* A reading that passes over spaces sees the content of a text and nothing else.
* That a rule keeps the content can be seen from the rule. Its pattern and its replacement are
  compared as marks: the characters they name, and the items of which only the match is known. When
  the marks are the same, so are the contents.
-/

namespace Corpus.English

/-- **Content.** A text without its spaces. -/
def content (text : Text) : Text := text.filter (· ≠ ' ')

/-- A character as content. -/
def visible (c : Char) : Text := if c = ' ' then [] else [c]

theorem content_eq_flatMap (text : Text) : content text = text.flatMap visible := by
  induction text with
  | nil => rfl
  | cons c text ih =>
    rw [List.flatMap_cons, ← ih, content, List.filter_cons, visible]
    by_cases hc : c = ' '
    · simp [hc, content]
    · simp [hc, content]

theorem content_append (a b : Text) : content (a ++ b) = content a ++ content b :=
  List.filter_append ..

/-- A reading that passes over spaces sees the content. -/
theorem flatMap_content {g : Char → Text} (hg : g ' ' = []) (text : Text) :
    (content text).flatMap g = text.flatMap g := by
  induction text with
  | nil => rfl
  | cons c text ih =>
    rw [List.flatMap_cons, ← ih, content, List.filter_cons]
    by_cases hc : c = ' '
    · simp [hc, hg, content]
    · simp [hc, content]

/-! ### Rules -/

/-- **A rule that keeps the content** of every text. -/
def Rule.KeepsContent (rule : Rule) : Prop := ∀ text, content (rule.apply text) = content text

/-- Rules that keep the content keep what a reading sees that passes over spaces. -/
theorem flatMap_applyRules {rules : List Rule} (h : ∀ rule ∈ rules, rule.KeepsContent)
    {g : Char → Text} (hg : g ' ' = []) (text : Text) :
    (applyRules rules text).flatMap g = text.flatMap g := by
  induction rules generalizing text with
  | nil => rfl
  | cons rule rules ih =>
    obtain ⟨hrule, hrules⟩ := List.forall_mem_cons.mp h
    calc (applyRules rules (rule.apply text)).flatMap g
        = (rule.apply text).flatMap g := ih hrules _
      _ = (content (rule.apply text)).flatMap g := (flatMap_content hg _).symm
      _ = (content text).flatMap g := by rw [hrule text]
      _ = text.flatMap g := flatMap_content hg text

/-! ### Marks -/

/-- **Mark.** A character that is known, or what an item has matched. -/
inductive Mark where
  | char (c : Char)
  | item (index : Nat)
  deriving DecidableEq

/-- The content of a mark after a match. -/
def Mark.read (found : List Text) : Mark → Text
  | char c => [c]
  | item index => content (found.getD index [])

/-- The marks of an item: a single character is known, and a run of spaces has no content. -/
def Item.marks (index : Nat) : Item → List Mark
  | .one cls =>
    if cls.negated then [.item index]
    else
      match cls.members with
      | [c] => (visible c).map .char
      | _ => [.item index]
  | .many cls => if cls.negated = false ∧ cls.members = [' '] then [] else [.item index]

/-- The marks of the item at a place. -/
def marksAt (items : List Item) (index : Nat) : List Mark :=
  (items[index]?.map (Item.marks index)).getD []

/-- The marks of a pattern. -/
def Pattern.marks (pattern : Pattern) : List Mark :=
  (List.range pattern.items.length).flatMap (marksAt pattern.items)

/-- The marks of a replacement. -/
def Rule.marks (rule : Rule) : List Mark :=
  rule.replacement.flatMap fun
    | .text text => (content text).map .char
    | .item index => marksAt rule.pattern.items index

variable {found : List Text} {text : Text}

theorem flatMap_read_char (text : Text) : (text.map Mark.char).flatMap (Mark.read found) = text := by
  rw [List.flatMap_map]
  exact List.flatMap_singleton' text

/-- What an item has matched has the content of its marks. -/
theorem Item.Matches.content_eq {item : Item} (h : item.Matches text) {index : Nat}
    (hfound : found.getD index [] = text) :
    content text = (item.marks index).flatMap (Mark.read found) := by
  have hitem : content text = [Mark.item index].flatMap (Mark.read found) := by
    rw [List.flatMap_singleton, Mark.read, hfound]
  cases item with
  | one cls =>
    rw [Item.marks]
    split
    · exact hitem
    · rename_i hnegated
      split
      · rename_i c hmembers
        obtain ⟨d, hd, rfl⟩ := h
        obtain rfl : d = c := by simpa [CharClass.contains, hmembers, hnegated] using hd
        rw [flatMap_read_char, content_eq_flatMap, List.flatMap_singleton]
      · exact hitem
  | many cls =>
    rw [Item.marks]
    split
    · rename_i hspaces
      obtain ⟨hnegated, hmembers⟩ := hspaces
      refine List.filter_eq_nil_iff.mpr fun c hc => ?_
      have hspace := h c hc
      simpa [CharClass.contains, hmembers, hnegated] using hspace
    · exact hitem

/-- The match of an item has the content of its marks. -/
theorem content_getD {items : List Item} (h : List.Forall₂ Item.Matches items found) (index : Nat) :
    content (found.getD index []) = (marksAt items index).flatMap (Mark.read found) := by
  rcases Nat.lt_or_ge index items.length with hindex | hindex
  · have hindex' : index < found.length := h.length_eq ▸ hindex
    have hmatches : items[index].Matches found[index] := h.get hindex hindex'
    rw [marksAt, List.getElem?_eq_getElem hindex, List.getD_eq_getElem _ _ hindex']
    exact hmatches.content_eq (List.getD_eq_getElem _ _ hindex')
  · have hindex' : found.length ≤ index := h.length_eq ▸ hindex
    rw [marksAt, List.getElem?_eq_none hindex, List.getD_eq_default _ _ hindex']
    rfl

theorem map_getD_range (found : List Text) :
    (List.range found.length).map (fun index => found.getD index []) = found := by
  refine List.ext_getElem (by simp) fun index _ hindex => ?_
  rw [List.getElem_map, List.getElem_range, List.getD_eq_getElem _ _ hindex]

/-- The content of a match is that of the marks of the pattern. -/
theorem content_flatten {items : List Item} (h : List.Forall₂ Item.Matches items found) :
    content found.flatten =
      ((List.range items.length).flatMap (marksAt items)).flatMap (Mark.read found) := by
  calc content found.flatten
      = found.flatMap content := List.filter_flatten
    _ = ((List.range items.length).map fun index => found.getD index []).flatMap content := by
      rw [h.length_eq, map_getD_range]
    _ = (List.range items.length).flatMap fun index => content (found.getD index []) :=
      List.flatMap_map ..
    _ = (List.range items.length).flatMap fun index =>
          (marksAt items index).flatMap (Mark.read found) :=
      List.flatMap_congr fun index _ => content_getD h index
    _ = ((List.range items.length).flatMap (marksAt items)).flatMap (Mark.read found) :=
      List.flatMap_assoc.symm

/-- The content of what is written for a match is that of the marks of the replacement. -/
theorem content_expand {rule : Rule} (h : List.Forall₂ Item.Matches rule.pattern.items found) :
    content (rule.expand found) = rule.marks.flatMap (Mark.read found) := by
  rw [content_eq_flatMap, Rule.expand, Rule.marks, List.flatMap_assoc, List.flatMap_assoc]
  refine List.flatMap_congr fun piece _ => ?_
  cases piece with
  | text text =>
    rw [flatMap_read_char, content_eq_flatMap]
  | item index =>
    rw [← content_getD h, content_eq_flatMap]

/-- **A rule with the same marks on both sides keeps the content.** -/
theorem keepsContent_of_marks {rule : Rule} (h : rule.marks = rule.pattern.marks) :
    rule.KeepsContent := by
  intro text
  rw [content_eq_flatMap, content_eq_flatMap]
  refine (Rule.rewrites_apply rule text).flatMap ?_ fun _ _ _ _ => rfl
  intro atStart text found hfound
  obtain ⟨hmatches, -⟩ := Pattern.forall₂_of_match? hfound
  rw [← content_eq_flatMap, ← content_eq_flatMap, content_expand hmatches, h,
    content_flatten hmatches]
  rfl

end Corpus.English
