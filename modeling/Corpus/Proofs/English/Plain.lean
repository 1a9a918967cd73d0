import Corpus.Proofs.English.Substitution
import Mathlib.Data.List.Sections

/-!
# Plain patterns

Most patterns name one character after another, some of them with a choice of letters: no run, no
class of all other characters, and not bound to an end of the text. Such a pattern matches one of
finitely many texts, its choices, and wherever one of them stands
(`Pattern.IsPlain.match?_eq_some_iff`). So what a rule of this kind does can be read off a list.
-/

namespace Corpus.English

/-! ### Choices -/

/-- **A plain item**: one of the characters of a text. -/
def Item.IsPlain : Item → Prop
  | .one cls => cls.negated = false
  | .many _ => False

instance (item : Item) : Decidable item.IsPlain :=
  match item with
  | .one cls => inferInstanceAs (Decidable (cls.negated = false))
  | .many _ => inferInstanceAs (Decidable False)

/-- What a plain item can match. -/
def Item.choices : Item → List Text
  | .one cls => cls.members.map ([·])
  | .many _ => []

/-- **The choices of a pattern**: what its items can match, one text each. -/
def Pattern.choices (pattern : Pattern) : List (List Text) :=
  (pattern.items.map Item.choices).sections

/-- **A plain pattern.** -/
def Pattern.IsPlain (pattern : Pattern) : Prop :=
  pattern.fromStart = false ∧ pattern.toEnd = false ∧ ∀ item ∈ pattern.items, item.IsPlain

instance (pattern : Pattern) : Decidable pattern.IsPlain :=
  inferInstanceAs (Decidable (_ ∧ _ ∧ _))

variable {text rest : Text} {found : List Text} {items : List Item} {pattern : Pattern}
  {atStart : Bool}

/-- A plain item matches its choices. -/
theorem Item.IsPlain.matches_iff {item : Item} (h : item.IsPlain) :
    item.Matches text ↔ text ∈ item.choices := by
  cases item with
  | one cls =>
    obtain ⟨members, negated⟩ := cls
    obtain rfl : negated = false := h
    simp only [Matches, choices, List.mem_map, CharClass.contains_members, eq_comm (a := text)]
  | many cls => exact absurd h id

/-- What plain items can match, one after another. -/
theorem forall₂_matches_iff (h : ∀ item ∈ items, item.IsPlain) :
    List.Forall₂ Item.Matches items found ↔ found ∈ (items.map Item.choices).sections := by
  induction items generalizing found with
  | nil => simp [List.sections]
  | cons item items ih =>
    obtain ⟨hitem, hitems⟩ := List.forall_mem_cons.mp h
    simp only [List.mem_sections, List.map_cons] at ih ⊢
    rw [List.forall₂_cons_left_iff, List.forall₂_cons_right_iff]
    constructor
    · rintro ⟨part, later, hpart, hlater, rfl⟩
      exact ⟨part, later, hitem.matches_iff.mp hpart, (ih hitems).mp hlater, rfl⟩
    · rintro ⟨part, later, hpart, hlater, rfl⟩
      exact ⟨part, later, hitem.matches_iff.mpr hpart, (ih hitems).mpr hlater, rfl⟩

/-- What plain items can match they match. -/
theorem matchItems_append (hplain : ∀ item ∈ items, item.IsPlain)
    (h : List.Forall₂ Item.Matches items found) (rest : Text) :
    matchItems items (found.flatten ++ rest) = some (found, rest) := by
  induction h with
  | nil => rfl
  | @cons item part items found hmatches _ ih =>
    obtain ⟨hitem, hitems⟩ := List.forall_mem_cons.mp hplain
    cases item with
    | one cls =>
      obtain ⟨c, hc, rfl⟩ := hmatches
      rw [List.flatten_cons, List.singleton_append, List.cons_append, matchItems, if_pos hc, ih hitems]
      rfl
    | many cls => exact absurd hitem id

/-- A pattern of plain items, bound or not, matches nothing but its choices. -/
theorem Pattern.mem_choices_of_match? (hitems : ∀ item ∈ pattern.items, item.IsPlain)
    (h : pattern.match? atStart text = some found) :
    found ∈ pattern.choices ∧ found.flatten <+: text := by
  obtain ⟨hmatches, hbegins⟩ := Pattern.forall₂_of_match? h
  exact ⟨(forall₂_matches_iff hitems).mp hmatches, hbegins⟩

/-- **A rule of plain items** leaves a text alone in which it finds none of its choices, or only
those that it writes as they are. -/
theorem Rule.apply_eq_self_of_choices {rule : Rule}
    (hitems : ∀ item ∈ rule.pattern.items, item.IsPlain)
    (h : ∀ found ∈ rule.pattern.choices, found.flatten <:+: text →
      rule.expand found = found.flatten) : rule.apply text = text := by
  refine (rule.rewrites_apply text).eq_of_expand fun atStart rest found hrest hfound => ?_
  obtain ⟨hchoice, hbegins⟩ := Pattern.mem_choices_of_match? hitems hfound
  exact h found hchoice (hbegins.isInfix.trans hrest.isInfix)

/-- **A rule of plain items** keeps to a kind of characters when each of its choices does. -/
theorem Rule.apply_subset_iff_of_choices {rule : Rule} {members : Text}
    (hitems : ∀ item ∈ rule.pattern.items, item.IsPlain)
    (h : ∀ found ∈ rule.pattern.choices, rule.expand found ⊆ members ↔ found.flatten ⊆ members) :
    rule.apply text ⊆ members ↔ text ⊆ members :=
  (rule.rewrites_apply text).subset_iff fun _ _ found hfound =>
    h found (Pattern.mem_choices_of_match? hitems hfound).1

/-- The choices of plain items are of one length. -/
theorem length_flatten_of_mem_choices (hplain : ∀ item ∈ pattern.items, item.IsPlain)
    (h : found ∈ pattern.choices) : found.flatten.length = pattern.items.length := by
  rw [Pattern.choices, ← forall₂_matches_iff hplain] at h
  generalize pattern.items = items at h hplain
  induction h with
  | nil => rfl
  | @cons item part items found hmatches _ ih =>
    obtain ⟨hitem, hitems⟩ := List.forall_mem_cons.mp hplain
    cases item with
    | one cls =>
      obtain ⟨c, -, rfl⟩ := hmatches
      rw [List.flatten_cons, List.singleton_append, List.length_cons, List.length_cons, ih hitems]
    | many cls => exact absurd hitem id

namespace Pattern.IsPlain

/-- **A plain pattern matches its choices**, wherever they stand. -/
theorem match?_eq_some_iff (h : pattern.IsPlain) :
    pattern.match? atStart text = some found ↔
      found ∈ pattern.choices ∧ found.flatten <+: text := by
  obtain ⟨hstart, hend, hitems⟩ := h
  constructor
  · exact mem_choices_of_match? hitems
  · rintro ⟨hchoice, rest, rfl⟩
    have hmatches := (forall₂_matches_iff hitems).mpr hchoice
    rw [match?, matchItems_append hitems hmatches, hstart, hend]
    rfl

end Pattern.IsPlain

end Corpus.English
