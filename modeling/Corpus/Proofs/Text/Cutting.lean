import Corpus.Proofs.Text.Pieces

/-!
# Cutting at the end of each part

Splitting has a piece after the last separator, also when nothing stands there. Where a separator ends
a part, this piece is a part only if it is not empty, as with the lines of a text and the blocks of
lines.

* A part that ends before a separator may be finished by taking something off it; the last part, which
  nothing ends, is left as it is.
* All rests on one equation, `cutAt_append_cons`: up to a separator the parts are the finished pieces,
  and what comes after it is cut on its own.
-/

namespace Corpus

variable {α : Type} [DecidableEq α] {sep : α} {finish : List α → List α}

/-- **Cutting.** The pieces that end in `sep`, finished, and what stands after the last `sep` unless it
is empty. -/
def cutAt (sep : α) (finish : List α → List α) (xs : List α) : List (List α) :=
  (List.splitOn sep xs).dropLast.map finish ++
    (List.splitOn sep xs).getLast?.toList.filter (· ≠ [])

@[simp] theorem cutAt_nil : cutAt sep finish [] = [] := by
  simp [cutAt]

/-- **Up to a separator** the pieces are finished; the rest is cut on its own. -/
theorem cutAt_append_cons (front rest : List α) :
    cutAt sep finish (front ++ sep :: rest) =
      (List.splitOn sep front).map finish ++ cutAt sep finish rest := by
  have hne := List.splitOn_ne_nil sep rest
  rw [cutAt, cutAt, List.splitOn_append_cons_self, List.dropLast_append_of_ne_nil hne,
    List.getLast?_append, Option.or_of_isSome (List.getLast?_isSome.mpr hne), List.map_append,
    List.append_assoc]

/-- The first part ends at the first separator. -/
theorem cutAt_of_not_mem_append {front : List α} (h : sep ∉ front) (rest : List α) :
    cutAt sep finish (front ++ sep :: rest) = finish front :: cutAt sep finish rest := by
  rw [cutAt_append_cons, List.splitOn_eq_singleton h]
  rfl

/-- Without a separator there is one part, left as it is. -/
theorem cutAt_of_not_mem {xs : List α} (hne : xs ≠ []) (h : sep ∉ xs) :
    cutAt sep finish xs = [xs] := by
  rw [cutAt, List.splitOn_eq_singleton h]
  simp [hne]

/-- Parts that each end in a separator come before the parts of the rest. -/
theorem cutAt_flatMap_append {parts : List (List α)} (h : ∀ part ∈ parts, sep ∉ part)
    (rest : List α) :
    cutAt sep finish (parts.flatMap (· ++ [sep]) ++ rest) =
      parts.map finish ++ cutAt sep finish rest := by
  induction parts with
  | nil => rfl
  | cons part parts ih =>
    obtain ⟨hpart, hparts⟩ := List.forall_mem_cons.mp h
    rw [List.flatMap_cons, List.append_assoc, List.append_assoc, List.singleton_append,
      cutAt_of_not_mem_append hpart, ih hparts, List.map_cons, List.cons_append]

/-- **Cutting after a separator** cuts either side on its own. -/
theorem cutAt_append {front : List α} (h : front = [] ∨ [sep] <:+ front) (rest : List α) :
    cutAt sep finish (front ++ rest) = cutAt sep finish front ++ cutAt sep finish rest := by
  rcases h with rfl | ⟨before, rfl⟩
  · rw [cutAt_nil, List.nil_append, List.nil_append]
  · have hbefore : cutAt sep finish (before ++ [sep]) = (List.splitOn sep before).map finish := by
      rw [cutAt_append_cons, cutAt_nil, List.append_nil]
    rw [hbefore, List.append_assoc, List.singleton_append, cutAt_append_cons]

/-- Cutting loses the separators and nothing else. -/
theorem flatten_cutAt (xs : List α) : (cutAt sep id xs).flatten = xs.filter (· ≠ sep) := by
  obtain ⟨front, last, hlast⟩ := List.eq_nil_or_concat (List.splitOn sep xs) |>.resolve_left
    (List.splitOn_ne_nil sep xs)
  rw [← flatten_splitOn xs, cutAt, hlast, List.concat_eq_append, List.dropLast_concat, List.map_id,
    List.getLast?_concat]
  by_cases hempty : last = []
  · simp [hempty]
  · simp [hempty]

end Corpus
