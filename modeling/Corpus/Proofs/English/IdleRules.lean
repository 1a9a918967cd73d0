import Corpus.Proofs.English.Spelling
import Mathlib.Data.List.InsertIdx

/-!
# Rules that change nothing

A rule is idle at its place in a table when it changes nothing in what the rules before it have made
of a text. Idle rules can be left out, any number of them at once (`applyRules_without`): the rules
before an idle one stay the same when idle rules behind it are left out.

* Three rules of the preprocessing are idle: the double quote is written for itself, the apostrophe is
  gone when it is looked for a second time, and nothing is written for nothing.
* In the tokenization the four names of square and curly brackets are idle, since preprocessing leaves
  none of these brackets and no rule writes one.
-/

namespace Corpus.English

variable {rules : List Rule} {rule : Rule} {place : Nat} {places : List Nat} {text : Text}

/-! ### Leaving rules out -/

/-- **An idle place.** The rule there changes nothing in what the rules before it make of the text. -/
def IsIdleAt (rules : List Rule) (text : Text) (place : Nat) : Prop :=
  ∀ rule, rules[place]? = some rule →
    rule.apply (applyRules (rules.take place) text) = applyRules (rules.take place) text

/-- **Rules without those at some places**, which are counted in the whole table. -/
def without (places : List Nat) (rules : List Rule) : List Rule :=
  places.foldr (fun place rules => rules.eraseIdx place) rules

theorem without_cons (place : Nat) (places : List Nat) (rules : List Rule) :
    without (place :: places) rules = (without places rules).eraseIdx place := rfl

/-- No other rules are left. -/
theorem without_subset (places : List Nat) (rules : List Rule) : without places rules ⊆ rules := by
  induction places with
  | nil => exact List.Subset.refl _
  | cons place places ih => exact List.Subset.trans List.eraseIdx_subset ih

/-- One idle rule can be left out. -/
theorem applyRules_eraseIdx (h : IsIdleAt rules text place) :
    applyRules (rules.eraseIdx place) text = applyRules rules text := by
  rcases Nat.lt_or_ge place rules.length with hplace | hplace
  · have hsplit : rules = rules.take place ++ rules[place] :: rules.drop (place + 1) := by
      rw [List.getElem_cons_drop, List.take_append_drop]
    have hidle := h rules[place] (List.getElem?_eq_getElem hplace)
    calc applyRules (rules.eraseIdx place) text
        = applyRules (rules.drop (place + 1)) (applyRules (rules.take place) text) := by
          rw [List.eraseIdx_eq_take_drop_succ, applyRules_append]
      _ = applyRules (rules.drop (place + 1))
            (rules[place].apply (applyRules (rules.take place) text)) := by rw [hidle]
      _ = applyRules rules text := by
          rw [← applyRules_cons, ← applyRules_append, ← hsplit]
  · rw [List.eraseIdx_of_length_le hplace]

/-- The rules before some places are the same without these. -/
theorem take_without {n : Nat} (h : ∀ place ∈ places, n ≤ place) :
    (without places rules).take n = rules.take n := by
  induction places with
  | nil => rfl
  | cons place places ih =>
    obtain ⟨hplace, hplaces⟩ := List.forall_mem_cons.mp h
    rw [without_cons, List.take_eraseIdx_eq_take_of_le _ _ _ hplace, ih hplaces]

/-- A place before those that are left out stays idle. -/
theorem IsIdleAt.without (h : IsIdleAt rules text place) (hbefore : ∀ later ∈ places, place < later) :
    IsIdleAt (without places rules) text place := by
  have htake : (English.without places rules).take place = rules.take place :=
    take_without fun later hlater => Nat.le_of_lt (hbefore later hlater)
  have hget : (English.without places rules)[place]? = rules[place]? := by
    rw [← List.getElem?_take_of_succ, take_without hbefore, List.getElem?_take_of_succ]
  intro rule hrule
  rw [htake]
  exact h rule (hget ▸ hrule)

/-- **Idle rules can be left out**, all at once. -/
theorem applyRules_without (hsorted : places.Pairwise (· < ·))
    (h : ∀ place ∈ places, IsIdleAt rules text place) :
    applyRules (without places rules) text = applyRules rules text := by
  induction places with
  | nil => rfl
  | cons place places ih =>
    obtain ⟨hbefore, hsorted⟩ := List.pairwise_cons.mp hsorted
    obtain ⟨hplace, hplaces⟩ := List.forall_mem_cons.mp h
    rw [without_cons, applyRules_eraseIdx (hplace.without hbefore), ih hsorted hplaces]

/-! ### Idle rules -/

/-- A character that is written for itself. -/
theorem apply_ofChar_self (c : Char) (text : Text) : (Rule.ofChar c [c]).apply text = text := by
  rw [Rule.apply_ofChar]
  conv_rhs => rw [← List.flatMap_singleton' text]
  refine List.flatMap_congr fun d _ => ?_
  split
  · rename_i hd
    rw [hd]
  · rfl

/-- Nothing that is written for nothing. -/
theorem apply_nothing (text : Text) : nothing.apply text = text := by
  refine (Rule.rewrites_apply nothing text).eq_of_expand fun atStart rest found _ hfound => ?_
  obtain ⟨hmatches, -⟩ := Pattern.forall₂_of_match? hfound
  obtain rfl := List.forall₂_nil_left_iff.mp hmatches
  rfl

/-- The rules of the preprocessing that change nothing, by their places. -/
def idlePreprocessing : List (Nat × Rule) :=
  [(20, replace "\x22" "\x22"), (26, replace "’" "\x22"), (33, nothing)]

/-- The rules of the tokenization that change nothing in a preprocessed text, by their places. -/
def idleTokenization : List (Nat × Rule) :=
  [(9, replace "]" "-LSB-"), (10, replace "]" "-RSB-"), (11, replace "\x7b" "-LCB-"),
    (12, replace "\x7d" "-RCB-")]

/-- Preprocessing is the same without its idle rules. -/
theorem applyRules_without_idlePreprocessing (text : Text) :
    applyRules (without (idlePreprocessing.map Prod.fst) preprocessing) text =
      applyRules preprocessing text := by
  refine applyRules_without (by decide) (List.forall_mem_map.mpr fun entry hentry => ?_)
  simp only [idlePreprocessing, List.mem_cons, List.not_mem_nil, or_false] at hentry
  intro rule hrule
  rcases hentry with rfl | rfl | rfl
  · obtain rfl : replace "\x22" "\x22" = rule := Option.some.inj hrule
    exact apply_ofChar_self '\x22' _
  · obtain rfl : replace "’" "\x22" = rule := Option.some.inj hrule
    have hfirst : Rule.ofChar '’' ['\x27'] ∈ preprocessing.take 26 := List.mem_cons_self
    have hgone := not_mem_applyRules hfirst (by decide) text
    exact Rule.apply_of_absent List.mem_cons_self (List.forall_mem_singleton.mpr hgone)
  · obtain rfl : nothing = rule := Option.some.inj hrule
    exact apply_nothing _

/-- Tokenization of a text without square and curly brackets is the same without its idle rules. -/
theorem applyRules_without_idleTokenization (h : ∀ c ∈ text, c ∉ otherBrackets) :
    applyRules (without (idleTokenization.map Prod.fst) tokenization) text =
      applyRules tokenization text := by
  have htable : ∀ rule ∈ tokenization, otherBrackets.all (· ∉ rule.written) := by decide
  have hgone (n : Nat) {c : Char} (hc : c ∈ otherBrackets) :
      c ∉ applyRules (tokenization.take n) text := by
    refine not_mem_applyRules_of_not_mem (fun rule hrule => ?_) fun hmem => h c hmem hc
    simpa using List.all_eq_true.mp (htable rule (List.mem_of_mem_take hrule)) c hc
  refine applyRules_without (by decide) (List.forall_mem_map.mpr fun entry hentry rule hrule => ?_)
  -- each of the rules looks for one of the brackets
  obtain ⟨c, hc, new, hsame⟩ : ∃ c ∈ otherBrackets, ∃ new, rule = Rule.ofChar c new := by
    simp only [idleTokenization, List.mem_cons, List.not_mem_nil, or_false] at hentry
    rcases hentry with rfl | rfl | rfl | rfl
    · exact ⟨']', by decide, _, (Option.some.inj hrule).symm⟩
    · exact ⟨']', by decide, _, (Option.some.inj hrule).symm⟩
    · exact ⟨'\x7b', by decide, _, (Option.some.inj hrule).symm⟩
    · exact ⟨'\x7d', by decide, _, (Option.some.inj hrule).symm⟩
  rw [hsame]
  exact Rule.apply_of_absent List.mem_cons_self (List.forall_mem_singleton.mpr (hgone entry.1 hc))

/-- **Seven rules change nothing.** Rewriting is the same when they are left out of their tables. -/
theorem rewrite_without_idle (text : Text) :
    (∀ entry ∈ idlePreprocessing, preprocessing[entry.1]? = some entry.2) ∧
      (∀ entry ∈ idleTokenization, tokenization[entry.1]? = some entry.2) ∧
      applyRules (without (idleTokenization.map Prod.fst) tokenization)
          (applyRules (without (idlePreprocessing.map Prod.fst) preprocessing) text) =
        rewrite text := by
  refine ⟨?_, ?_, ?_⟩
  · simp only [idlePreprocessing, List.forall_mem_cons]
    exact ⟨rfl, rfl, rfl, List.forall_mem_nil _⟩
  · simp only [idleTokenization, List.forall_mem_cons]
    exact ⟨rfl, rfl, rfl, rfl, List.forall_mem_nil _⟩
  · rw [applyRules_without_idlePreprocessing,
      applyRules_without_idleTokenization (not_mem_otherBrackets_preprocessing text), rewrite]

end Corpus.English
