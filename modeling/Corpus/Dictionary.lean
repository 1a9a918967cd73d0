import Corpus.Text.Basic

/-!
# Dictionaries

A dictionary is the list of its entries in the order in which their keys were first written. Writing a
key again changes its value and keeps its place.

* `get?_insert` says what a written key does to every look-up.
* `keys_insert` says that only a new key lengthens the list of keys.
-/

namespace Corpus

universe u

/-- **Dictionary.** Entries in the order of the first writing of their keys, which are texts if nothing
else is said. -/
abbrev Dictionary (β : Type u) (κ : Type := Text) := List (κ × β)

namespace Dictionary

variable {β : Type u} {κ : Type} [DecidableEq κ]

/-- The value of a key. -/
def get? (key : κ) : Dictionary β κ → Option β
  | [] => none
  | (k, v) :: rest => if k = key then some v else get? key rest

/-- **Writing a key.** -/
def insert (key : κ) (value : β) : Dictionary β κ → Dictionary β κ
  | [] => [(key, value)]
  | (k, v) :: rest => if k = key then (k, value) :: rest else (k, v) :: insert key value rest

/-- The keys in the order of their first writing. -/
def keys {κ : Type} (d : Dictionary β κ) : List κ := d.map Prod.fst

/-- The values in the order of their keys. -/
def values {κ : Type} (d : Dictionary β κ) : List β := d.map Prod.snd

/-- The entries written one after another onto `d`. -/
def insertAll (entries : List (κ × β)) (d : Dictionary β κ) : Dictionary β κ :=
  entries.foldl (fun d entry => d.insert entry.1 entry.2) d

theorem get?_insert (key other : κ) (value : β) (d : Dictionary β κ) :
    get? other (insert key value d) = if key = other then some value else get? other d := by
  induction d with
  | nil => rfl
  | cons entry rest ih =>
    obtain ⟨k, v⟩ := entry
    by_cases hk : k = key
    · subst hk
      by_cases ho : k = other <;> simp [insert, get?, ho]
    · simp only [insert, if_neg hk, get?, ih]
      by_cases ho : k = other
      · subst ho
        simp [show ¬ key = k from fun h => hk h.symm]
      · simp [ho]

theorem keys_insert (key : κ) (value : β) (d : Dictionary β κ) :
    keys (insert key value d) = if key ∈ keys d then keys d else keys d ++ [key] := by
  induction d with
  | nil => simp [insert, keys]
  | cons entry rest ih =>
    obtain ⟨k, v⟩ := entry
    simp only [keys] at ih
    by_cases hk : k = key
    · simp [insert, keys, hk]
    · simp only [insert, if_neg hk, keys, List.map_cons, ih, List.mem_cons,
        show ¬ key = k from fun h => hk h.symm, false_or]
      by_cases hm : key ∈ List.map Prod.fst rest <;> simp [hm]

end Dictionary

end Corpus
