import Corpus.English.Pattern
import Mathlib.Data.List.Forall2

/-!
# What a substitution does

* `Rule.Rewrites` is substitution as a relation between texts, with one case for each thing that can
  happen at a place: the text ends, a character stays, or a match is replaced. The scan of a text is
  such a rewriting, and what follows is shown by induction on it.
* A reading gives a text for every character. A rule that only changes what a reading does not see
  keeps what is read (`Rewrites.flatMap`).
* Nothing is in a rewritten text that neither was in the text nor is written by the rule.
-/

namespace Corpus.English

/-! ### Matching -/

@[simp] theorem CharClass.contains_members {members : Text} {c : Char} :
    CharClass.contains { members } c = true ↔ c ∈ members := by
  simp [CharClass.contains]

/-- What an item can match. -/
def Item.Matches : Item → Text → Prop
  | .one cls, text => ∃ c, cls.contains c = true ∧ text = [c]
  | .many cls, text => ∀ c ∈ text, cls.contains c = true

/-- **A match.** Every item has matched, and what the items have matched stands at the front. -/
theorem matchItems_eq_some {items : List Item} {text rest : Text} {found : List Text}
    (h : matchItems items text = some (found, rest)) :
    List.Forall₂ Item.Matches items found ∧ text = found.flatten ++ rest := by
  induction items generalizing text found with
  | nil =>
    obtain ⟨rfl, rfl⟩ := Prod.mk.inj (Option.some.inj h)
    exact ⟨.nil, rfl⟩
  | cons item items ih =>
    cases item with
    | one cls =>
      cases text with
      | nil => cases h
      | cons c text =>
        rw [matchItems] at h
        split at h
        · rename_i hc
          obtain ⟨⟨later, rest⟩, hlater, hfound⟩ := Option.map_eq_some_iff.mp h
          obtain ⟨rfl, rfl⟩ := Prod.mk.inj hfound
          obtain ⟨hmatches, htext⟩ := ih hlater
          exact ⟨.cons ⟨c, hc, rfl⟩ hmatches, congrArg (c :: ·) htext⟩
        · cases h
    | many cls =>
      rw [matchItems] at h
      obtain ⟨⟨later, rest⟩, hlater, hfound⟩ := Option.map_eq_some_iff.mp h
      obtain ⟨rfl, rfl⟩ := Prod.mk.inj hfound
      obtain ⟨hmatches, htext⟩ := ih hlater
      refine ⟨.cons (fun c hc => List.all_eq_true.mp List.all_takeWhile c hc) hmatches, ?_⟩
      rw [List.flatten_cons, List.append_assoc, ← htext, List.takeWhile_append_dropWhile]

/-- A pattern matches what its items match, at the start or up to the end if it is bound to it. -/
theorem Pattern.match?_eq_some {pattern : Pattern} {atStart : Bool} {text : Text}
    {found : List Text} (h : pattern.match? atStart text = some found) :
    (pattern.fromStart = true → atStart = true) ∧
      ∃ rest, matchItems pattern.items text = some (found, rest) := by
  rw [Pattern.match?] at h
  split at h
  · cases h
  · rename_i hstart
    split at h
    · cases h
    · rename_i hitems
      split at h
      · cases h
      · obtain rfl := Option.some.inj h
        exact ⟨by simpa using hstart, _, hitems⟩

/-- The items of a pattern have matched, and what they have matched stands at the front. -/
theorem Pattern.forall₂_of_match? {pattern : Pattern} {atStart : Bool} {text : Text}
    {found : List Text} (h : pattern.match? atStart text = some found) :
    List.Forall₂ Item.Matches pattern.items found ∧ found.flatten <+: text := by
  obtain ⟨-, rest, hitems⟩ := match?_eq_some h
  obtain ⟨hmatches, htext⟩ := matchItems_eq_some hitems
  exact ⟨hmatches, rest, htext.symm⟩

/-- A pattern that is bound to the end matches all that is left. -/
theorem Pattern.eq_flatten_of_match? {pattern : Pattern} {atStart : Bool} {text : Text}
    {found : List Text} (h : pattern.match? atStart text = some found)
    (hend : pattern.toEnd = true) : text = found.flatten := by
  obtain ⟨-, rest, hitems⟩ := match?_eq_some h
  have hrest : rest = [] := by
    rw [match?, hitems, hend] at h
    by_contra hne
    simp [hne] at h
  rw [(matchItems_eq_some hitems).2, hrest, List.append_nil]

namespace Rule

variable {rule : Rule} {atStart : Bool} {text new : Text}

/-! ### Rewriting -/

/-- **Rewriting.** What a rule makes of a text that begins the whole text or not. -/
inductive Rewrites (rule : Rule) : (atStart : Bool) → Text → Text → Prop
  | stop {atStart : Bool} : rule.pattern.match? atStart [] = none → Rewrites rule atStart [] []
  | last {atStart : Bool} {found : List Text} : rule.pattern.match? atStart [] = some found →
      Rewrites rule atStart [] (rule.expand found)
  | keep {atStart : Bool} {c : Char} {text new : Text} :
      rule.pattern.match? atStart (c :: text) = none → Rewrites rule false text new →
      Rewrites rule atStart (c :: text) (c :: new)
  | pass {atStart : Bool} {c : Char} {text new : Text} {found : List Text} :
      rule.pattern.match? atStart (c :: text) = some found → found.flatten = [] →
      Rewrites rule false text new →
      Rewrites rule atStart (c :: text) (rule.expand found ++ c :: new)
  | put {atStart : Bool} {found : List Text} {rest new : Text} :
      rule.pattern.match? atStart (found.flatten ++ rest) = some found → found.flatten ≠ [] →
      Rewrites rule false rest new →
      Rewrites rule atStart (found.flatten ++ rest) (rule.expand found ++ new)

/-- Skipping drops characters. -/
theorem scan_skip (rule : Rule) {skip : Nat} {text : Text} (h : skip ≤ text.length) :
    rule.scan false skip text = rule.scan false 0 (text.drop skip) := by
  induction skip generalizing text with
  | zero => rfl
  | succ skip ih =>
    cases text with
    | nil => cases h
    | cons c text =>
      rw [scan, List.drop_succ_cons]
      exact ih (Nat.le_of_succ_le_succ h)

/-- A character stays where nothing matches. -/
theorem scan_cons_of_none {c : Char} (h : rule.pattern.match? atStart (c :: text) = none) :
    rule.scan atStart 0 (c :: text) = c :: rule.scan false 0 text := by
  rw [scan, h]

/-- A match is replaced, and the scan goes on behind it. -/
theorem scan_append_of_some {found : List Text} {rest : Text}
    (h : rule.pattern.match? atStart (found.flatten ++ rest) = some found)
    (hne : found.flatten ≠ []) :
    rule.scan atStart 0 (found.flatten ++ rest) = rule.expand found ++ rule.scan false 0 rest := by
  obtain ⟨c, front, hfront⟩ := List.exists_cons_of_ne_nil hne
  have hlength : found.flatten.length = front.length + 1 := congrArg List.length hfront
  rw [hfront, List.cons_append] at h ⊢
  rw [scan, h]
  simp only [hlength]
  rw [scan_skip rule (by simp), List.drop_left]

/-- A pattern that is not bound to the start finds the same there as anywhere. -/
theorem scan_of_unbound (h : rule.pattern.fromStart = false) (atStart : Bool) (text : Text) :
    rule.scan atStart 0 text = rule.scan false 0 text := by
  have hmatch (text : Text) :
      rule.pattern.match? atStart text = rule.pattern.match? false text := by
    rw [Pattern.match?, Pattern.match?, h]
    rfl
  cases text with
  | nil => rw [scan, scan, hmatch]
  | cons c text => rw [scan, scan, hmatch]

/-- **A scan is a rewriting.** -/
theorem rewrites_scan (rule : Rule) (atStart : Bool) (text : Text) :
    rule.Rewrites atStart text (rule.scan atStart 0 text) := by
  -- a match may take many characters, so the induction is on the length
  induction hlength : text.length using Nat.strongRecOn generalizing atStart text with
  | ind n ih =>
    subst hlength
    cases text with
    | nil =>
      rw [scan]
      split
      · exact .stop ‹_›
      · exact .last ‹_›
    | cons c text =>
      have hrest : rule.Rewrites false text (rule.scan false 0 text) :=
        ih text.length (Nat.lt_succ_self _) false text rfl
      cases hmatch : rule.pattern.match? atStart (c :: text) with
      | none =>
        rw [scan_cons_of_none hmatch]
        exact .keep hmatch hrest
      | some found =>
        by_cases hempty : found.flatten = []
        · rw [scan, hmatch]
          simp only [hempty]
          exact .pass hmatch hempty hrest
        · obtain ⟨-, rest, hitems⟩ := Pattern.match?_eq_some hmatch
          obtain ⟨-, htext⟩ := matchItems_eq_some hitems
          rw [htext] at hmatch ih ⊢
          rw [scan_append_of_some hmatch hempty]
          refine .put hmatch hempty (ih rest.length ?_ false rest rfl)
          rw [List.length_append]
          exact Nat.lt_add_of_pos_left (List.length_pos_iff.mpr hempty)

theorem rewrites_apply (rule : Rule) (text : Text) : rule.Rewrites true text (rule.apply text) :=
  rewrites_scan rule true text

/-- **Readings of a rewritten text.** When what is written for a match reads under `g` as the match
does under `f`, and what is left reads the same, so does the whole. -/
theorem Rewrites.flatMap {f g : Char → Text} (h : rule.Rewrites atStart text new)
    (hmatch : ∀ atStart text found, rule.pattern.match? atStart text = some found →
      (rule.expand found).flatMap g = found.flatten.flatMap f)
    (hkeep : ∀ atStart c text,
      (∀ found, rule.pattern.match? atStart (c :: text) = some found → found.flatten = []) →
      g c = f c) :
    new.flatMap g = text.flatMap f := by
  induction h with
  | stop => rfl
  | last hfound =>
    rw [hmatch _ _ _ hfound]
    rw [List.prefix_nil.mp (Pattern.forall₂_of_match? hfound).2]
  | @keep atStart c text _ hnone _ ih =>
    have hc : g c = f c := by
      refine hkeep atStart c text fun found hfound => ?_
      rw [hnone] at hfound
      cases hfound
    rw [List.flatMap_cons, List.flatMap_cons, ih, hc]
  | @pass atStart c text _ found hfound hempty _ ih =>
    have hc : g c = f c := by
      refine hkeep atStart c text fun other hother => ?_
      rw [hfound] at hother
      rw [← Option.some.inj hother, hempty]
    rw [List.flatMap_append, hmatch _ _ _ hfound, hempty, List.flatMap_nil, List.nil_append,
      List.flatMap_cons, List.flatMap_cons, ih, hc]
  | put hfound _ _ ih => rw [List.flatMap_append, List.flatMap_append, hmatch _ _ _ hfound, ih]

/-- A rule that is bound to the start changes nothing after it. -/
theorem Rewrites.eq_of_fromStart (h : rule.Rewrites atStart text new) (hstart : atStart = false)
    (hbound : rule.pattern.fromStart = true) : new = text := by
  have hnone {text : Text} {found : List Text} :
      rule.pattern.match? false text ≠ some found := by
    intro hfound
    cases (Pattern.match?_eq_some hfound).1 hbound
  induction h with
  | stop => rfl
  | last hfound => exact absurd (hstart ▸ hfound) hnone
  | keep _ _ ih => rw [ih rfl]
  | pass hfound => exact absurd (hstart ▸ hfound) hnone
  | put hfound => exact absurd (hstart ▸ hfound) hnone

/-- **A rule that writes each match as it is** leaves the text alone. -/
theorem Rewrites.eq_of_expand (h : rule.Rewrites atStart text new)
    (hsame : ∀ atStart rest found, rest <:+ text → rule.pattern.match? atStart rest = some found →
      rule.expand found = found.flatten) : new = text := by
  induction h with
  | stop => rfl
  | last hfound =>
    rw [hsame _ _ _ List.suffix_rfl hfound]
    exact List.prefix_nil.mp (Pattern.forall₂_of_match? hfound).2
  | keep _ _ ih =>
    rw [ih fun _ _ _ hrest => hsame _ _ _ (hrest.trans (List.suffix_cons _ _))]
  | pass hfound hempty _ ih =>
    rw [ih fun _ _ _ hrest => hsame _ _ _ (hrest.trans (List.suffix_cons _ _)),
      hsame _ _ _ List.suffix_rfl hfound, hempty, List.nil_append]
  | put hfound _ _ ih =>
    rw [ih fun _ _ _ hrest => hsame _ _ _ (hrest.trans (List.suffix_append _ _)),
      hsame _ _ _ List.suffix_rfl hfound]

/-- **A rule that keeps to a kind of characters**: when a match consists of them exactly if what is
written for it does, so does a text. -/
theorem Rewrites.subset_iff {members : Text} (h : rule.Rewrites atStart text new)
    (hmatch : ∀ atStart rest found, rule.pattern.match? atStart rest = some found →
      (rule.expand found ⊆ members ↔ found.flatten ⊆ members)) :
    new ⊆ members ↔ text ⊆ members := by
  induction h with
  | stop => rfl
  | last hfound =>
    rw [hmatch _ _ _ hfound, List.prefix_nil.mp (Pattern.forall₂_of_match? hfound).2]
  | keep _ _ ih => rw [List.cons_subset, List.cons_subset, ih]
  | pass hfound hempty _ ih =>
    have hwritten : rule.expand _ ⊆ members := (hmatch _ _ _ hfound).mpr (hempty ▸ List.nil_subset _)
    rw [List.append_subset, List.cons_subset, List.cons_subset, ih, and_iff_right hwritten]
  | put hfound _ _ ih => rw [List.append_subset, List.append_subset, hmatch _ _ _ hfound, ih]

/-- **A text without a match** stays as it is. -/
theorem apply_eq_self
    (h : ∀ atStart rest found, rest <:+ text → rule.pattern.match? atStart rest ≠ some found) :
    rule.apply text = text :=
  (rewrites_apply rule text).eq_of_expand fun atStart rest found hrest hfound =>
    absurd hfound (h atStart rest found hrest)

/-- **A text without the characters** that some item asks for stays as it is. -/
theorem apply_of_absent {members : Text} (hitem : .one { members } ∈ rule.pattern.items)
    (h : ∀ c ∈ members, c ∉ text) : rule.apply text = text := by
  refine apply_eq_self fun atStart rest found hrest hfound => ?_
  obtain ⟨hmatches, hbegins⟩ := Pattern.forall₂_of_match? hfound
  obtain ⟨index, hindex, hitem⟩ := List.getElem_of_mem hitem
  have hindex' : index < found.length := hmatches.length_eq ▸ hindex
  have hpart : Item.Matches (.one { members }) found[index] := hitem ▸ hmatches.get hindex hindex'
  obtain ⟨c, hc, hsingle⟩ := hpart
  have hmem : c ∈ found.flatten :=
    List.mem_flatten.mpr ⟨found[index], List.getElem_mem hindex', hsingle ▸ List.mem_singleton_self c⟩
  exact h c (CharClass.contains_members.mp hc) (hrest.subset (hbegins.subset hmem))

/-! ### Characters -/

/-- The characters that a rule writes. -/
def written (rule : Rule) : Text :=
  rule.replacement.flatMap fun
    | .text text => text
    | .item _ => []

theorem mem_expand {d : Char} {found : List Text} (h : d ∈ rule.expand found) :
    d ∈ found.flatten ∨ d ∈ rule.written := by
  obtain ⟨piece, hpiece, hd⟩ := List.mem_flatMap.mp h
  cases piece with
  | text text => exact .inr (List.mem_flatMap.mpr ⟨.text text, hpiece, hd⟩)
  | item index =>
    cases hindex : found[index]? with
    | none =>
      simp only [List.getD_eq_getElem?_getD, hindex] at hd
      cases hd
    | some match_ =>
      simp only [List.getD_eq_getElem?_getD, hindex] at hd
      exact .inl (List.mem_flatten.mpr ⟨match_, List.mem_of_getElem? hindex, hd⟩)

/-- **Nothing else is in a rewritten text.** -/
theorem Rewrites.mem {d : Char} (h : rule.Rewrites atStart text new) (hd : d ∈ new) :
    d ∈ text ∨ d ∈ rule.written := by
  induction h with
  | stop => exact .inl hd
  | last hfound =>
    rcases mem_expand hd with hd | hd
    · exact .inl ((Pattern.forall₂_of_match? hfound).2.subset hd)
    · exact .inr hd
  | keep _ _ ih =>
    rcases List.mem_cons.mp hd with rfl | hd
    · exact .inl List.mem_cons_self
    · exact (ih hd).imp_left (List.mem_cons_of_mem _)
  | pass _ hempty _ ih =>
    rcases List.mem_append.mp hd with hd | hd
    · rcases mem_expand hd with hd | hd
      · rw [hempty] at hd
        cases hd
      · exact .inr hd
    · rcases List.mem_cons.mp hd with rfl | hd
      · exact .inl List.mem_cons_self
      · exact (ih hd).imp_left (List.mem_cons_of_mem _)
  | put _ _ _ ih =>
    rcases List.mem_append.mp hd with hd | hd
    · exact (mem_expand hd).imp_left (List.mem_append_left _)
    · exact (ih hd).imp_left (List.mem_append_right _)

/-! ### Replacing a character -/

/-- A character replaced by a text. -/
def ofChar (c : Char) (new : Text) : Rule :=
  { pattern := { items := [.one { members := [c] }] }, replacement := [.text new] }

variable {c : Char} {substitute : Text}

theorem match?_ofChar_cons (c d : Char) (substitute : Text) :
    (ofChar c substitute).pattern.match? atStart (d :: text) = if d = c then some [[d]] else none := by
  by_cases hd : d = c
  · simp [ofChar, Pattern.match?, matchItems, hd]
  · simp [ofChar, Pattern.match?, matchItems, hd]

/-- **Replacing a character.** What the new text reads as takes the place of the character. -/
theorem flatMap_apply_ofChar (g : Char → Text) (text : Text) :
    ((ofChar c substitute).apply text).flatMap g =
      text.flatMap fun d => if d = c then substitute.flatMap g else g d := by
  refine (rewrites_apply _ text).flatMap ?_ ?_
  · intro atStart text found hfound
    cases text with
    | nil => cases hfound
    | cons d text =>
      rw [match?_ofChar_cons] at hfound
      split at hfound
      · rename_i hd
        obtain rfl := Option.some.inj hfound
        simp [expand, ofChar, hd]
      · cases hfound
  · intro atStart d text hnone
    rw [if_neg]
    rintro rfl
    have hempty := hnone [[d]] (by rw [match?_ofChar_cons, if_pos rfl])
    cases hempty

/-- The new text takes the place of the character. -/
theorem apply_ofChar (c : Char) (substitute text : Text) :
    (ofChar c substitute).apply text = text.flatMap fun d => if d = c then substitute else [d] := by
  have hread : ((ofChar c substitute).apply text).flatMap (fun d => [d]) = _ :=
    flatMap_apply_ofChar (fun d => [d]) text
  simpa only [List.flatMap_singleton'] using hread

/-- A character that is replaced is gone. -/
theorem not_mem_apply_ofChar (h : c ∉ substitute) (text : Text) :
    c ∉ (ofChar c substitute).apply text := by
  rw [apply_ofChar]
  intro hmem
  obtain ⟨d, -, hd⟩ := List.mem_flatMap.mp hmem
  split at hd
  · exact h hd
  · rename_i hne
    exact hne (List.mem_singleton.mp hd).symm

end Rule

/-- **A character that no rule writes** is not in a text after the rules when it was not before. -/
theorem not_mem_applyRules_of_not_mem {rules : List Rule} {c : Char} {text : Text}
    (hwritten : ∀ rule ∈ rules, c ∉ rule.written) (h : c ∉ text) : c ∉ applyRules rules text := by
  induction rules generalizing text with
  | nil => exact h
  | cons rule rules ih =>
    obtain ⟨hfirst, hrest⟩ := List.forall_mem_cons.mp hwritten
    refine ih hrest fun hmem => ?_
    rcases (Rule.rewrites_apply rule text).mem hmem with hmem | hmem
    · exact h hmem
    · exact hfirst hmem

/-- **A character that one rule replaces and none writes** is gone after the rules. -/
theorem not_mem_applyRules {rules : List Rule} {c : Char} {new : Text}
    (hrule : Rule.ofChar c new ∈ rules) (hwritten : ∀ rule ∈ rules, c ∉ rule.written)
    (text : Text) : c ∉ applyRules rules text := by
  induction rules generalizing text with
  | nil => cases hrule
  | cons rule rules ih =>
    obtain ⟨hfirst, hrest⟩ := List.forall_mem_cons.mp hwritten
    rcases List.mem_cons.mp hrule with rfl | hrule
    · have hnew : c ∉ new := by simpa [Rule.written, Rule.ofChar] using hfirst
      have hgone := not_mem_applyRules_of_not_mem hrest (Rule.not_mem_apply_ofChar hnew text)
      exact hgone
    · exact ih hrule hrest _

end Corpus.English
