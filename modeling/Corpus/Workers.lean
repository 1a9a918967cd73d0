/-!
# Workers

Tasks that do not depend on each other are given to several workers, which finish them in some order.

* `slots` holds a place for the result of every task; a result goes to the place of its task, whenever
  it comes.
* `inOrder` takes the results in the order of the tasks. Once every task has been finished it does not
  matter in which order that has happened (`inOrder_eq_map`); once those at the front have been
  finished, their results come first whatever becomes of the rest (`exists_inOrder_append`).
-/

namespace Corpus.Workers

universe u v

variable {α : Type u} {β : Type v}

/-- **Slots.** The places of the results, after the tasks with the numbers in `order` have been finished
one after another, the last of the list first. -/
def slots (task : α → β) (items : List α) : (order : List Nat) → List (Option β)
  | [] => items.map fun _ => none
  | i :: order =>
    match items[i]? with
    | some item => (slots task items order).set i (some (task item))
    | none => slots task items order

/-- **Results in the order of the tasks.** -/
def inOrder (task : α → β) (items : List α) (order : List Nat) : List β :=
  (slots task items order).filterMap id

theorem length_slots (task : α → β) (items : List α) (order : List Nat) :
    (slots task items order).length = items.length := by
  induction order with
  | nil => simp [slots]
  | cons i order ih =>
    simp only [slots]
    split
    · rw [List.length_set, ih]
    · exact ih

/-- A finished task has its result in its place. -/
theorem getElem?_slots (task : α → β) (items : List α) {order : List Nat} {i : Nat}
    (h : i ∈ order) : (slots task items order)[i]? = items[i]?.map fun item => some (task item) := by
  induction order with
  | nil => cases h
  | cons j order ih =>
    simp only [slots]
    cases hj : items[j]? with
    | none =>
      simp only
      rcases List.mem_cons.1 h with rfl | h
      · rw [hj, Option.map_none, List.getElem?_eq_none_iff, length_slots]
        exact List.getElem?_eq_none_iff.1 hj
      · exact ih h
    | some item =>
      simp only
      have hlt : j < items.length := (List.getElem?_eq_some_iff.1 hj).1
      by_cases hij : j = i
      · subst hij
        rw [List.getElem?_set_self (by rw [length_slots]; exact hlt), hj, Option.map_some]
      · rw [List.getElem?_set_ne hij]
        rcases List.mem_cons.1 h with rfl | h
        · exact absurd rfl hij
        · exact ih h

/-- **The order of finishing does not matter.** -/
theorem inOrder_eq_map (task : α → β) (items : List α) {order : List Nat}
    (h : ∀ i, i < items.length → i ∈ order) : inOrder task items order = items.map task := by
  have hs : slots task items order = items.map fun item => some (task item) := by
    refine List.ext_getElem? fun i => ?_
    rcases Nat.lt_or_ge i items.length with hi | hi
    · rw [getElem?_slots task items (h i hi), List.getElem?_map]
    · rw [List.getElem?_eq_none (by rw [length_slots]; exact hi),
        List.getElem?_eq_none (by rw [List.length_map]; exact hi)]
  rw [inOrder, hs, List.filterMap_map]
  exact congrFun List.filterMap_eq_map items

/-- **Finished front.** When all tasks at the front have been finished, their results come first. -/
theorem exists_inOrder_append (task : α → β) (front back : List α) {order : List Nat}
    (h : ∀ i, i < front.length → i ∈ order) :
    ∃ rest, inOrder task (front ++ back) order = front.map task ++ rest := by
  have htake : (slots task (front ++ back) order).take front.length =
      front.map fun item => some (task item) := by
    refine List.ext_getElem? fun i => ?_
    rcases Nat.lt_or_ge i front.length with hi | hi
    · rw [List.getElem?_take_of_lt hi, getElem?_slots task _ (h i hi), List.getElem?_map,
        List.getElem?_append_left hi]
    · rw [List.getElem?_eq_none (Nat.le_trans (List.length_take_le _ _) hi),
        List.getElem?_eq_none (by rw [List.length_map]; exact hi)]
  have hslots : slots task (front ++ back) order =
      (front.map fun item => some (task item)) ++
        (slots task (front ++ back) order).drop front.length := by
    rw [← htake, List.take_append_drop]
  refine ⟨((slots task (front ++ back) order).drop front.length).filterMap id, ?_⟩
  rw [inOrder, hslots, List.filterMap_append, List.filterMap_map, ← hslots]
  congr 1
  exact congrFun List.filterMap_eq_map front

end Corpus.Workers
