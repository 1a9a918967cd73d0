import Corpus.Proofs.Text.Pieces

/-!
# Stretches

A stretch of a list is whatever stands in it without a separator inside. The pieces of a split are
the longest stretches: every piece is one, and every stretch stands in a piece.

Proofs go along the separators (`separator_induction`): a list either has none, or it goes on behind
its first one.
-/

namespace Corpus

variable {α : Type} {sep : α} {stretch xs : List α}

/-- **A stretch does not reach over a separator.** -/
theorem isInfix_append_cons_iff (h : sep ∉ stretch) {front rest : List α} :
    stretch <:+: front ++ sep :: rest ↔ stretch <:+: front ∨ stretch <:+: rest := by
  constructor
  · intro hwithin
    rcases List.infix_append_iff.mp hwithin with hfront | hrest | ⟨before, after, rfl, hbefore, hafter⟩
    · exact .inl hfront
    · rcases List.infix_cons_iff.mp hrest with hbegins | hrest
      · rcases List.prefix_cons_iff.mp hbegins with rfl | ⟨tail, rfl, -⟩
        · exact .inl List.nil_infix
        · exact absurd List.mem_cons_self h
      · exact .inr hrest
    · rcases List.prefix_cons_iff.mp hafter with rfl | ⟨tail, rfl, -⟩
      · rw [List.append_nil]
        exact .inl hbefore.isInfix
      · exact absurd (List.mem_append_right _ List.mem_cons_self) h
  · rintro (hfront | hrest)
    · exact List.infix_append_of_infix_left hfront
    · exact hrest.trans ((List.suffix_cons _ _).trans (List.suffix_append _ _)).isInfix

/-- **Induction along the separators.** -/
theorem separator_induction {motive : List α → Prop} (sep : α)
    (whole : ∀ xs, sep ∉ xs → motive xs)
    (cut : ∀ front rest, sep ∉ front → motive rest → motive (front ++ sep :: rest))
    (xs : List α) : motive xs := by
  induction hlength : xs.length using Nat.strongRecOn generalizing xs with
  | ind n ih =>
    subst hlength
    by_cases hmem : sep ∈ xs
    · obtain ⟨front, rest, rfl, hfront⟩ := List.eq_append_cons_of_mem hmem
      refine cut front rest hfront (ih rest.length ?_ rest rfl)
      rw [List.length_append, List.length_cons]
      omega
    · exact whole xs hmem

variable [BEq α] [LawfulBEq α]

/-- **A piece is a stretch.** -/
theorem isInfix_of_mem_splitOn (h : stretch ∈ List.splitOn sep xs) : stretch <:+: xs := by
  induction xs using separator_induction sep with
  | whole xs hxs =>
    rw [List.splitOn_eq_singleton hxs, List.mem_singleton] at h
    exact h ▸ List.infix_rfl
  | cut front rest hfront ih =>
    have hstretch := not_mem_of_mem_splitOn h
    rw [List.splitOn_append_cons_self_of_not_mem hfront, List.mem_cons] at h
    rw [isInfix_append_cons_iff hstretch]
    rcases h with rfl | hrest
    · exact .inl List.infix_rfl
    · exact .inr (ih hrest)

/-- **A stretch stands in a piece.** -/
theorem exists_mem_splitOn_of_isInfix (h : sep ∉ stretch) (hwithin : stretch <:+: xs) :
    ∃ piece ∈ List.splitOn sep xs, stretch <:+: piece := by
  induction xs using separator_induction sep with
  | whole xs hxs =>
    rw [List.splitOn_eq_singleton hxs]
    exact ⟨xs, List.mem_cons_self, hwithin⟩
  | cut front rest hfront ih =>
    rw [List.splitOn_append_cons_self_of_not_mem hfront]
    rcases (isInfix_append_cons_iff h).mp hwithin with hwithin | hwithin
    · exact ⟨front, List.mem_cons_self, hwithin⟩
    · obtain ⟨piece, hpiece, hwithin⟩ := ih hwithin
      exact ⟨piece, List.mem_cons_of_mem _ hpiece, hwithin⟩

/-- Writing that keeps the separators goes on inside the pieces. -/
theorem splitOn_flatMap {write : α → List α} (hsep : write sep = [sep])
    (h : ∀ x, x ≠ sep → sep ∉ write x) (xs : List α) :
    List.splitOn sep (xs.flatMap write) = (List.splitOn sep xs).map (List.flatMap write) := by
  have hwritten {xs : List α} (hxs : sep ∉ xs) : sep ∉ xs.flatMap write := by
    intro hmem
    obtain ⟨x, hx, hwrite⟩ := List.mem_flatMap.mp hmem
    exact h x (fun heq => hxs (heq ▸ hx)) hwrite
  induction xs using separator_induction sep with
  | whole xs hxs =>
    rw [List.splitOn_eq_singleton hxs, List.splitOn_eq_singleton (hwritten hxs)]
    rfl
  | cut front rest hfront ih =>
    rw [List.flatMap_append, List.flatMap_cons, hsep, List.singleton_append,
      List.splitOn_append_cons_self_of_not_mem hfront,
      List.splitOn_append_cons_self_of_not_mem (hwritten hfront), ih, List.map_cons]

end Corpus
