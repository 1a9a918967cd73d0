import Corpus.Text.Basic

/-!
# Pieces and separators

What splitting, joining and breaking say about each other.

* No piece of a split holds the separator, and pieces without the separator come back from their
  join.
* Lines that each end in a line feed split into themselves and an empty last piece.
* `breakAt` stops at the first separator and `Text.breakOn` at the first occurrence of a word.
-/

namespace Corpus

/-! ### Splitting -/

/-- No piece of a split holds the separator. -/
theorem not_mem_of_mem_splitOn {α : Type} [BEq α] [LawfulBEq α] {sep : α} {xs piece : List α}
    (h : piece ∈ List.splitOn sep xs) : sep ∉ piece := by
  induction xs generalizing piece with
  | nil =>
    simp only [List.splitOn_nil, List.mem_singleton] at h
    simp [h]
  | cons x xs ih =>
    rw [List.splitOn_cons_eq_if_modifyHead] at h
    obtain ⟨first, rest, hsplit⟩ := List.exists_cons_of_ne_nil (List.splitOn_ne_nil sep xs)
    rw [hsplit] at h ih
    by_cases hx : x = sep
    · simp only [hx, beq_self_eq_true, if_true, List.mem_cons] at h
      rcases h with rfl | h
      · exact List.not_mem_nil
      · exact ih (by simpa using h)
    · simp only [beq_iff_eq, hx, if_false, List.modifyHead_cons, List.mem_cons] at h
      rcases h with rfl | h
      · have hfirst := ih (List.mem_cons_self ..)
        simp [hfirst, Ne.symm hx]
      · exact ih (List.mem_cons_of_mem _ h)

/-- Splitting loses the separators and nothing else. -/
theorem flatten_splitOn {α : Type} [DecidableEq α] {sep : α} (xs : List α) :
    (List.splitOn sep xs).flatten = xs.filter (· ≠ sep) := by
  induction xs with
  | nil => simp
  | cons x xs ih =>
    obtain ⟨first, rest, hfirst⟩ := List.exists_cons_of_ne_nil (List.splitOn_ne_nil sep xs)
    rw [hfirst, List.flatten_cons] at ih
    rw [List.splitOn_cons_eq_if_modifyHead, hfirst]
    by_cases hx : x = sep
    · simp [hx, ih]
    · simp [hx, ih]

/-- What stands before a list and holds no separator goes into the first piece. -/
theorem splitOn_append_of_not_mem {α : Type} [BEq α] [LawfulBEq α] {sep : α} {front : List α}
    (h : sep ∉ front) (xs : List α) :
    List.splitOn sep (front ++ xs) = (List.splitOn sep xs).modifyHead (front ++ ·) := by
  obtain ⟨first, rest, hsplit⟩ := List.exists_cons_of_ne_nil (List.splitOn_ne_nil sep xs)
  rw [hsplit, List.modifyHead_cons]
  induction front with
  | nil => exact hsplit
  | cons x front ih =>
    obtain ⟨hx, hfront⟩ := List.ne_and_not_mem_of_not_mem_cons h
    rw [List.cons_append, List.splitOn_cons_eq_if_modifyHead, if_neg (by simpa using hx.symm),
      ih hfront]
    rfl

/-- Lists that each end in the separator split into themselves and an empty last piece. -/
theorem splitOn_flatMap_concat {α : Type} [BEq α] [LawfulBEq α] {sep : α} {parts : List (List α)}
    (h : ∀ piece ∈ parts, sep ∉ piece) :
    List.splitOn sep (parts.flatMap (· ++ [sep])) = parts ++ [[]] := by
  induction parts with
  | nil => simp
  | cons piece rest ih =>
    obtain ⟨hpiece, hrest⟩ := List.forall_mem_cons.mp h
    rw [List.flatMap_cons, List.append_assoc, List.singleton_append,
      List.splitOn_append_cons_self_of_not_mem hpiece, ih hrest, List.cons_append]

namespace Text

/-! ### Joining -/

/-- A character of a join is the separator or stands in a piece. -/
theorem mem_of_mem_joined {sep c : Char} {pieces : List Text} (h : c ∈ joined [sep] pieces) :
    c = sep ∨ ∃ piece ∈ pieces, c ∈ piece := by
  induction pieces with
  | nil => simp [joined] at h
  | cons piece rest ih =>
    cases rest with
    | nil => exact .inr ⟨piece, by simp, by simpa [joined] using h⟩
    | cons next rest =>
      simp only [joined, List.intercalate_cons_cons, List.mem_append, List.mem_singleton] at h
      rcases h with (h | h) | h
      · exact .inr ⟨piece, by simp, h⟩
      · exact .inl h
      · rcases ih h with h | ⟨other, hmem, hc⟩
        · exact .inl h
        · exact .inr ⟨other, List.mem_cons_of_mem _ hmem, hc⟩

/-- Whatever stands in a piece stands in the join. -/
theorem mem_joined {sep c : Char} {piece : Text} {pieces : List Text} (hmem : piece ∈ pieces)
    (hc : c ∈ piece) : c ∈ joined [sep] pieces := by
  induction pieces with
  | nil => cases hmem
  | cons first rest ih =>
    cases rest with
    | nil =>
      obtain rfl := List.mem_singleton.mp hmem
      simpa [joined] using hc
    | cons next rest =>
      simp only [joined, List.intercalate_cons_cons, List.mem_append] at ih ⊢
      rcases List.mem_cons.mp hmem with rfl | hmem
      · exact .inl (.inl hc)
      · exact .inr (ih hmem)

/-- Whatever stands in a piece of a split stands in the text. -/
theorem mem_of_mem_splitOn {sep c : Char} {text piece : Text}
    (h : piece ∈ List.splitOn sep text) (hc : c ∈ piece) : c ∈ text := by
  have hjoin : joined [sep] (List.splitOn sep text) = text := List.intercalate_splitOn sep
  rw [← hjoin]
  exact mem_joined h hc

/-- **Splitting undoes joining.** -/
theorem splitOn_joined {sep : Char} {pieces : List Text} (hne : pieces ≠ [])
    (h : ∀ piece ∈ pieces, sep ∉ piece) : List.splitOn sep (joined [sep] pieces) = pieces :=
  List.splitOn_intercalate sep h hne

/-- Pieces without the separator are determined by their join. -/
theorem joined_inj {sep : Char} {as bs : List Text} (has : as ≠ []) (hbs : bs ≠ [])
    (ha : ∀ piece ∈ as, sep ∉ piece) (hb : ∀ piece ∈ bs, sep ∉ piece) :
    joined [sep] as = joined [sep] bs ↔ as = bs := by
  constructor
  · intro h
    rw [← splitOn_joined has ha, h, splitOn_joined hbs hb]
  · intro h
    rw [h]

/-- One more piece stands after one more separator. -/
theorem joined_append_singleton {sep : Text} {pieces : List Text} (hne : pieces ≠ [])
    (piece : Text) : joined sep (pieces ++ [piece]) = joined sep pieces ++ (sep ++ piece) := by
  induction pieces with
  | nil => exact absurd rfl hne
  | cons first rest ih =>
    cases rest with
    | nil => simp [joined]
    | cons next rest =>
      have ih := ih (List.cons_ne_nil _ _)
      simp only [joined, List.cons_append, List.intercalate_cons_cons] at ih ⊢
      simp only [ih, List.append_assoc]

/-! ### Lines -/

/-- A join of lines with a last line feed is each line with its line feed. -/
theorem joined_append_lineFeed {lines : List Text} (hne : lines ≠ []) :
    joined ['\n'] lines ++ ['\n'] = lines.flatMap (· ++ ['\n']) := by
  induction lines with
  | nil => exact absurd rfl hne
  | cons line rest ih =>
    cases rest with
    | nil => simp [joined]
    | cons next rest =>
      have ih := ih (List.cons_ne_nil _ _)
      simp only [joined, List.intercalate_cons_cons] at ih ⊢
      rw [List.append_assoc, ih]
      rfl

/-- Lines with their line feeds split into the lines and what stands after the last line feed. -/
theorem splitOn_lines {lines : List Text} (h : ∀ line ∈ lines, '\n' ∉ line) :
    List.splitOn '\n' (lines.flatMap (· ++ ['\n'])) = lines ++ [[]] :=
  splitOn_flatMap_concat h

end Text

/-! ### Breaking at a separator -/

/-- **The first separator.** A list breaks into what is before the first separator and what is
after it. -/
theorem breakAt_eq_some_iff {α : Type} [DecidableEq α] {sep : α} {xs l r : List α} :
    breakAt sep xs = some (l, r) ↔ xs = l ++ sep :: r ∧ sep ∉ l := by
  induction xs generalizing l with
  | nil => simp [breakAt]
  | cons x xs ih =>
    by_cases hx : x = sep
    · subst hx
      cases l with
      | nil => simp [breakAt]
      | cons y l =>
        simp only [breakAt, if_true, Option.some.injEq, Prod.mk.injEq, reduceCtorEq, false_and,
          List.cons_append, List.cons.injEq, List.mem_cons, not_or, false_iff]
        rintro ⟨⟨rfl, -⟩, hne, -⟩
        exact hne rfl
    · cases l with
      | nil => simp [breakAt, hx]
      | cons y l =>
        simp only [breakAt, hx, if_false, Option.map_eq_some_iff, Prod.mk.injEq, List.cons.injEq,
          List.cons_append, List.mem_cons, not_or, Prod.exists]
        constructor
        · rintro ⟨a, b, hab, ⟨rfl, rfl⟩, rfl⟩
          obtain ⟨hxs, hmem⟩ := ih.mp hab
          exact ⟨⟨rfl, hxs⟩, Ne.symm hx, hmem⟩
        · rintro ⟨⟨rfl, hxs⟩, -, hmem⟩
          exact ⟨l, r, ih.mpr ⟨hxs, hmem⟩, ⟨rfl, rfl⟩, rfl⟩

/-- A list does not break where there is no separator. -/
theorem breakAt_eq_none_iff {α : Type} [DecidableEq α] {sep : α} {xs : List α} :
    breakAt sep xs = none ↔ sep ∉ xs := by
  induction xs with
  | nil => simp [breakAt]
  | cons x xs ih =>
    by_cases hx : x = sep
    · simp [breakAt, hx]
    · simp [breakAt, hx, ih, Ne.symm hx]

/-! ### Breaking on a word -/

namespace Text

/-- What is left after a word. -/
theorem after?_eq_some_iff {word text rest : Text} :
    after? word text = some rest ↔ text = word ++ rest := by
  induction word generalizing text with
  | nil => simp [after?, eq_comm]
  | cons w word ih =>
    cases text with
    | nil => simp [after?]
    | cons c text =>
      by_cases hc : w = c
      · simp [after?, hc, ih]
      · simp [after?, hc, Ne.symm hc]

/-- Breaking where the word stands at the front. -/
theorem breakOn_append (word rest : Text) : breakOn word (word ++ rest) = some ([], rest) := by
  have hafter : after? word (word ++ rest) = some rest := after?_eq_some_iff.mpr rfl
  cases h : word ++ rest with
  | nil =>
    rw [h] at hafter
    simp [breakOn, hafter]
  | cons c text =>
    rw [h] at hafter
    simp [breakOn, hafter]

/-- Breaking where the word does not stand at the front. -/
theorem breakOn_cons {word text : Text} {c : Char} (h : ∀ rest, c :: text ≠ word ++ rest) :
    breakOn word (c :: text) = (breakOn word text).map fun parts => (c :: parts.1, parts.2) := by
  have hafter : after? word (c :: text) = none := by
    rw [Option.eq_none_iff_forall_not_mem]
    intro rest hrest
    exact h rest (after?_eq_some_iff.mp hrest)
  simp [breakOn, hafter]

/-- What a text breaks into, and that the word does not occur earlier. -/
theorem eq_append_of_breakOn {word text l r : Text} (h : breakOn word text = some (l, r)) :
    text = l ++ (word ++ r) ∧ ∀ l' r', text = l' ++ (word ++ r') → l.length ≤ l'.length := by
  induction text generalizing l with
  | nil =>
    simp only [breakOn, Option.map_eq_some_iff, Prod.mk.injEq] at h
    obtain ⟨rest, hrest, rfl, rfl⟩ := h
    exact ⟨by simpa using after?_eq_some_iff.mp hrest, fun _ _ _ => Nat.zero_le _⟩
  | cons c text ih =>
    by_cases hfront : ∃ rest, c :: text = word ++ rest
    · obtain ⟨rest, hrest⟩ := hfront
      rw [hrest, breakOn_append] at h
      obtain ⟨rfl, rfl⟩ : [] = l ∧ rest = r := by simpa using h
      exact ⟨hrest, fun _ _ _ => Nat.zero_le _⟩
    · have hnot : ∀ rest, c :: text ≠ word ++ rest := fun rest hrest => hfront ⟨rest, hrest⟩
      rw [breakOn_cons hnot, Option.map_eq_some_iff] at h
      obtain ⟨⟨before, after⟩, hbreak, hparts⟩ := h
      obtain ⟨rfl, rfl⟩ : c :: before = l ∧ after = r := by simpa using hparts
      obtain ⟨htext, hleast⟩ := ih hbreak
      refine ⟨by rw [htext, List.cons_append], fun l' r' hl' => ?_⟩
      cases l' with
      | nil => exact absurd hl' (hnot r')
      | cons c' l' =>
        have htail : text = l' ++ (word ++ r') := (List.cons.inj hl').2
        exact Nat.succ_le_succ (hleast l' r' htail)

/-- A text breaks on a word that occurs in it. -/
theorem breakOn_ne_none (word l r : Text) : breakOn word (l ++ (word ++ r)) ≠ none := by
  induction l with
  | nil => simp [breakOn_append]
  | cons c l ih =>
    by_cases hfront : ∃ rest, c :: (l ++ (word ++ r)) = word ++ rest
    · obtain ⟨rest, hrest⟩ := hfront
      rw [List.cons_append, hrest, breakOn_append]
      exact Option.some_ne_none _
    · rw [List.cons_append, breakOn_cons fun rest hrest => hfront ⟨rest, hrest⟩]
      simpa using ih

/-- **The first occurrence.** A text breaks on a word where the word occurs with the least text
before it. -/
theorem breakOn_eq_some_iff {word text l r : Text} :
    breakOn word text = some (l, r) ↔
      text = l ++ (word ++ r) ∧ ∀ l' r', text = l' ++ (word ++ r') → l.length ≤ l'.length := by
  refine ⟨eq_append_of_breakOn, fun ⟨htext, hleast⟩ => ?_⟩
  obtain ⟨⟨l', r'⟩, hbreak⟩ := Option.ne_none_iff_exists'.mp (htext ▸ breakOn_ne_none word l r)
  obtain ⟨htext', hleast'⟩ := eq_append_of_breakOn hbreak
  have hlen : l.length = l'.length := Nat.le_antisymm (hleast l' r' htext') (hleast' l r htext)
  obtain ⟨rfl, hrest⟩ := List.append_inj (htext.symm.trans htext') hlen
  obtain rfl := List.append_cancel_left hrest
  exact hbreak

end Text

end Corpus
