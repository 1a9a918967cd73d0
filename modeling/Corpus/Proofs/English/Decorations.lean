import Corpus.Proofs.English.Plain
import Corpus.Proofs.English.Spacing
import Corpus.Proofs.English.Spelling

/-!
# Texts of which nothing is left

Preprocessing deletes eleven decorations, and tokenization drops spaces. A text of other characters
than these leaves a word behind, whatever the rules make of it.

* No rule of the preprocessing deletes anything else: what is written for a match consists of spaces and
  decorations only if the match does. So this holds of a text after the rules as before.
* Tokenization spells every character out but a space, and the words of a text are its content.
-/

namespace Corpus.English

variable {text : Text} {c : Char}

/-! ### Preprocessing -/

/-- **Decorations.** What preprocessing deletes. -/
def decorations : Text := "·•●▪■□❑◆★＊♦".toList

/-- Spaces and decorations. -/
def blanks : Text := ' ' :: decorations

/-- The last rules of the preprocessing delete the decorations. -/
theorem drop_preprocessing :
    preprocessing.drop 34 = decorations.map fun c => Rule.ofChar c [] := rfl

/-- No decoration is left. -/
theorem not_mem_preprocessing (h : c ∈ decorations) : c ∉ applyRules preprocessing text := by
  have hrule : Rule.ofChar c [] ∈ preprocessing.drop 34 :=
    drop_preprocessing ▸ List.mem_map_of_mem h
  have htable : ∀ rule ∈ preprocessing, decorations.all (· ∉ rule.written) := by decide
  have hwritten : ∀ rule ∈ preprocessing, c ∉ rule.written := fun rule hmem => by
    simpa using List.all_eq_true.mp (htable rule hmem) c h
  exact not_mem_applyRules (List.mem_of_mem_drop hrule) hwritten text

/-- Rules of plain items keep to a kind of characters when their choices do. -/
theorem applyRules_subset_iff {rules : List Rule} {members : Text}
    (h : ∀ rule ∈ rules, (∀ item ∈ rule.pattern.items, item.IsPlain) ∧
      ∀ found ∈ rule.pattern.choices, rule.expand found ⊆ members ↔ found.flatten ⊆ members)
    (text : Text) : applyRules rules text ⊆ members ↔ text ⊆ members := by
  induction rules generalizing text with
  | nil => rfl
  | cons rule rules ih =>
    obtain ⟨⟨hitems, hchoices⟩, hrules⟩ := List.forall_mem_cons.mp h
    rw [applyRules_cons, ih hrules, Rule.apply_subset_iff_of_choices hitems hchoices]

/-- **Preprocessing deletes nothing else.** Spaces are left when there was nothing but spaces and
decorations. -/
theorem preprocessing_subset_space_iff (text : Text) :
    applyRules preprocessing text ⊆ [' '] ↔ text ⊆ blanks := by
  have htable : ∀ rule ∈ preprocessing, (∀ item ∈ rule.pattern.items, item.IsPlain) ∧
      ∀ found ∈ rule.pattern.choices, rule.expand found ⊆ blanks ↔ found.flatten ⊆ blanks := by
    decide
  rw [← applyRules_subset_iff htable text]
  constructor
  · intro h
    exact List.Subset.trans h (List.cons_subset_cons _ (List.nil_subset _))
  · intro h c hc
    rcases List.mem_cons.mp (h hc) with rfl | hdecoration
    · exact List.mem_cons_self
    · exact absurd hc (not_mem_preprocessing hdecoration)

/-- **The decorations are the characters that preprocessing deletes.** -/
theorem mem_decorations_iff : c ∈ decorations ↔ applyRules preprocessing [c] = [] := by
  constructor
  · intro h
    have hspaces : applyRules preprocessing [c] ⊆ [' '] :=
      (preprocessing_subset_space_iff [c]).mpr
        (List.cons_subset.mpr ⟨List.mem_cons_of_mem _ h, List.nil_subset _⟩)
    have hspace : ' ' ∉ applyRules preprocessing [c] := by
      refine not_mem_applyRules_of_not_mem (by decide) fun hmem => ?_
      rw [← List.mem_singleton.mp hmem] at h
      exact absurd h (by decide)
    refine List.eq_nil_iff_forall_not_mem.mpr fun d hd => hspace ?_
    rwa [← List.mem_singleton.mp (hspaces hd)]
  · intro h
    have hblank : [c] ⊆ blanks := by
      rw [← preprocessing_subset_space_iff, h]
      exact List.nil_subset _
    have hkept : applyRules preprocessing [' '] = [' '] := by rfl
    rcases List.mem_cons.mp (hblank List.mem_cons_self) with rfl | hdecoration
    · cases hkept.symm.trans h
    · exact hdecoration

/-! ### Words -/

/-- The words of a text are its content. -/
theorem flatten_spacedWords (text : Text) : (spacedWords text).flatten = content text :=
  List.flatten_filter_ne_nil.trans (flatten_splitOn text)

theorem content_eq_nil_iff : content text = [] ↔ text ⊆ [' '] := by
  simp [content, List.subset_def]

/-- A text without words consists of spaces. -/
theorem spacedWords_eq_nil_iff : spacedWords text = [] ↔ text ⊆ [' '] := by
  rw [← content_eq_nil_iff, ← flatten_spacedWords, List.flatten_eq_nil_iff]
  constructor
  · intro h
    simp [h]
  · intro h
    exact List.eq_nil_iff_forall_not_mem.mpr fun word hword =>
      (forall_mem_spacedWords text word hword).1 (h word hword)

/-- Only spaces are spelled out as spaces. -/
theorem content_spelled_eq_nil_iff (before text : Text) :
    content (spelled before text) = [] ↔ text ⊆ [' '] := by
  have hchar (opens : Bool) (c : Char) : content (spelledChar opens c) = [] ↔ c = ' ' := by
    by_cases hspace : c = ' '
    · rw [hspace]
      cases opens <;> decide
    · refine iff_of_false ?_ hspace
      rw [spelledChar]
      split_ifs
      · decide
      · decide
      · decide
      · decide
      · simp [content, hspace]
  induction text generalizing before with
  | nil => exact iff_of_true rfl (List.nil_subset _)
  | cons c text ih =>
    rw [spelled, content_append, List.append_eq_nil_iff, hchar, List.cons_subset, List.mem_singleton]
    exact and_congr_right fun _ => ih _

/-- **Texts without words after rewriting** consist of spaces and decorations. -/
theorem spacedWords_rewrite_eq_nil_iff : spacedWords (rewrite text) = [] ↔ text ⊆ blanks := by
  have hcontent : content (rewrite text) = content (spelled [] (applyRules preprocessing text)) := by
    rw [rewrite, content_applyRules_tokenization]
    exact flatMap_named_opening (not_mem_otherBrackets_preprocessing text)
  rw [spacedWords_eq_nil_iff, ← content_eq_nil_iff, hcontent, content_spelled_eq_nil_iff,
    preprocessing_subset_space_iff]

end Corpus.English
