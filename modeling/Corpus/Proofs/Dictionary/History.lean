import Corpus.Dictionary
import Mathlib.Data.List.Basic
import Mathlib.Data.List.Induction

/-!
# Histories of writing

A dictionary that has been written key by key on an empty one is known from the history of its writing.

* A value that is written under several keys is found under all of them (`get?_insertAll_map`), and the
  keys are those that were written, in the order of their first writing (`keys_insertAll`). Both follow a
  history write by write, with what one write does.
* No key comes twice, so that values can be told from keys (`mem_values_iff`, `idxOf_values`).
* Where repetitions are dropped, the first of equal elements stays, and the others keep their order
  (`pairwise_eraseDups`).
-/

namespace Corpus

universe u

/-! ### First occurrences -/

/-- The first index depends on the members only. -/
theorem findIdx_congr {α : Type u} {p q : α → Bool} {xs : List α} (h : ∀ x ∈ xs, p x = q x) :
    xs.findIdx p = xs.findIdx q := by
  induction xs with
  | nil => rfl
  | cons x xs ih =>
    obtain ⟨hx, hxs⟩ := List.forall_mem_cons.mp h
    rw [List.findIdx_cons, List.findIdx_cons, hx, ih hxs]

section Repetitions

variable {α : Type u} [BEq α] [LawfulBEq α]

/-- One more element stays when it is a new one. -/
theorem eraseDups_concat (xs : List α) (x : α) :
    (xs ++ [x]).eraseDups = if x ∈ xs then xs.eraseDups else xs.eraseDups ++ [x] := by
  rw [List.eraseDups_append, List.cons_removeAll]
  by_cases hx : x ∈ xs
  · simp [hx, List.removeAll]
  · simp [hx, List.removeAll, List.eraseDups_cons]

/-- **First occurrences.** Without repetitions the elements stand in the order in which they come
first. -/
theorem pairwise_eraseDups (xs : List α) :
    xs.eraseDups.Pairwise fun a b => xs.idxOf a < xs.idxOf b := by
  induction xs using List.reverseRecOn with
  | nil => exact .nil
  | append_singleton xs x ih =>
    have hkept : xs.eraseDups.Pairwise fun a b => (xs ++ [x]).idxOf a < (xs ++ [x]).idxOf b := by
      refine ih.imp_of_mem fun {a b} ha hb hlt => ?_
      rwa [List.idxOf_append_of_mem (List.mem_eraseDups.mp ha),
        List.idxOf_append_of_mem (List.mem_eraseDups.mp hb)]
    rw [eraseDups_concat]
    by_cases hx : x ∈ xs
    · rwa [if_pos hx]
    · rw [if_neg hx, List.pairwise_append]
      refine ⟨hkept, List.pairwise_singleton _ _, fun a ha b hb => ?_⟩
      obtain rfl := List.mem_singleton.mp hb
      have ha := List.mem_eraseDups.mp ha
      rw [List.idxOf_append_of_mem ha, List.idxOf_append_of_notMem hx]
      exact Nat.lt_of_lt_of_le (List.idxOf_lt_length_of_mem ha) (Nat.le_add_right _ _)

theorem nodup_eraseDups (xs : List α) : xs.eraseDups.Nodup :=
  (pairwise_eraseDups xs).imp fun hlt heq => absurd (heq ▸ hlt) (Nat.lt_irrefl _)

end Repetitions

namespace Dictionary

variable {β : Type u} {κ : Type} [DecidableEq κ] {d : Dictionary β κ} {key : κ} {value : β}

/-! ### What is written -/

theorem insertAll_concat (entries : List (κ × β)) (entry : κ × β) :
    insertAll (entries ++ [entry]) d = insert entry.1 entry.2 (insertAll entries d) :=
  List.foldl_append

/-- **One value under several keys.** These have it afterwards, and the other keys are left. -/
theorem get?_insertAll_map [BEq κ] [LawfulBEq κ] (keys : List κ) (value : β) (key : κ) :
    get? key (insertAll (keys.map fun k => (k, value)) d) =
      if key ∈ keys then some value else get? key d := by
  induction keys using List.reverseRecOn with
  | nil => rfl
  | append_singleton keys k ih =>
    rw [List.map_append, List.map_singleton, insertAll_concat, get?_insert, ih]
    by_cases hk : k = key
    · simp [hk]
    · simp [hk, Ne.symm hk]

/-- **The first write places.** The keys stand in the order of their first writing. -/
theorem keys_insertAll [BEq κ] [LawfulBEq κ] (entries : List (κ × β)) :
    keys (insertAll entries []) = (entries.map Prod.fst).eraseDups := by
  induction entries using List.reverseRecOn with
  | nil => rfl
  | append_singleton entries entry ih =>
    rw [insertAll_concat, keys_insert, ih, List.map_append, List.map_singleton, eraseDups_concat]
    by_cases hkey : entry.1 ∈ entries.map Prod.fst
    · rw [if_pos hkey, if_pos (List.mem_eraseDups.mpr hkey)]
    · rw [if_neg hkey, if_neg (mt List.mem_eraseDups.mp hkey)]

theorem nodup_keys_insertAll (entries : List (κ × β)) : (insertAll entries []).keys.Nodup := by
  rw [keys_insertAll]
  exact nodup_eraseDups _

/-- Writing keeps the keys distinct. -/
theorem nodup_keys_insert (h : d.keys.Nodup) : (insert key value d).keys.Nodup := by
  rw [keys_insert]
  split
  · exact h
  · rename_i hkey
    exact List.nodup_append.mpr ⟨h, List.pairwise_singleton _ _, fun a ha b hb =>
      List.mem_singleton.mp hb ▸ fun heq => hkey (heq ▸ ha)⟩

/-! ### Values by keys -/

/-- A key that was not written has no value. -/
theorem get?_eq_none_of_not_mem (h : key ∉ d.keys) : get? key d = none := by
  induction d with
  | nil => rfl
  | cons entry d ih =>
    obtain ⟨k, v⟩ := entry
    obtain ⟨hk, hkeys⟩ := not_or.mp (mt List.mem_cons.mpr h)
    rw [get?, if_neg (Ne.symm hk), ih hkeys]

/-- What is found is an entry. -/
theorem mem_of_get? (h : get? key d = some value) : (key, value) ∈ d := by
  induction d with
  | nil => cases h
  | cons entry d ih =>
    obtain ⟨k, v⟩ := entry
    rw [get?] at h
    split at h
    · rename_i hk
      obtain rfl := Option.some.inj h
      exact hk ▸ List.mem_cons_self
    · exact List.mem_cons_of_mem _ (ih h)

/-- Where no key comes twice, every entry is found under its key. -/
theorem get?_of_mem (hkeys : d.keys.Nodup) (h : (key, value) ∈ d) : get? key d = some value := by
  induction d with
  | nil => cases h
  | cons entry d ih =>
    obtain ⟨k, v⟩ := entry
    obtain ⟨hk, hkeys⟩ := List.nodup_cons.mp hkeys
    rcases List.mem_cons.mp h with h | h
    · obtain ⟨rfl, rfl⟩ := Prod.mk.inj h
      exact if_pos rfl
    · have hne : k ≠ key := fun heq => hk (heq ▸ List.mem_map.mpr ⟨_, h, rfl⟩)
      rw [get?, if_neg hne, ih hkeys h]

/-- **The values** are what the keys have. -/
theorem mem_values_iff (hkeys : d.keys.Nodup) :
    value ∈ d.values ↔ ∃ key ∈ d.keys, get? key d = some value := by
  constructor
  · intro h
    obtain ⟨⟨key, value⟩, hentry, rfl⟩ := List.mem_map.mp h
    exact ⟨key, List.mem_map_of_mem hentry, get?_of_mem hkeys hentry⟩
  · rintro ⟨key, -, hvalue⟩
    exact List.mem_map_of_mem (mem_of_get? hvalue)

/-- **The place of a value** is that of the first key that has it. -/
theorem idxOf_values [DecidableEq β] (hkeys : d.keys.Nodup) (value : β) :
    d.values.idxOf value = d.keys.findIdx fun key => get? key d = some value := by
  have hentry : ∀ entry ∈ d, (entry.2 == value) = decide (get? entry.1 d = some value) := by
    intro entry h
    rw [get?_of_mem hkeys h, Bool.eq_iff_iff, beq_iff_eq, decide_eq_true_eq, Option.some.injEq]
  rw [values, keys, List.idxOf, List.findIdx_map, List.findIdx_map]
  exact findIdx_congr hentry

end Dictionary

end Corpus
