import Corpus.Proofs.Dictionary.History
import Corpus.Registry

/-!
# Histories of registration

A registry is known from the entries that were registered in it, one call after another.

* A call writes its entry under its keys, the lower-case forms of its name and of its aliases
  (`register_eq_insertAll`), so that a history of calls is a history of writing.
* A key is held by the entry of the last call that writes it (`get?_ofCalls`), whatever stood there
  before, and keeps the place of its first writing (`keys_ofCalls`).
* An entry is in the registry as long as it holds a key (`mem_entries_ofCalls_iff`), and stands where the
  earliest of these keys stands (`idxOf_values_ofCalls`).
-/

namespace Corpus

variable {F : Type}

/-- **The keys of an entry.** Its name and its aliases in lower case. -/
def FormatEntry.keys (entry : FormatEntry F) : List Text :=
  (entry.name :: entry.aliases).map Text.lower

namespace Registry

/-- **A history of calls.** The new registry in which these entries have been registered, in this
order. -/
def ofCalls (calls : List (FormatEntry F)) : Registry F :=
  calls.foldl (fun registry entry => registry.register entry) []

/-- **All keys** that calls write, in the order of their first writing. -/
def writtenKeys (calls : List (FormatEntry F)) : List Text :=
  (calls.flatMap FormatEntry.keys).eraseDups

/-- **The holder of a key.** The entry of the last call that writes the key. -/
def holder? (calls : List (FormatEntry F)) (key : Text) : Option (FormatEntry F) :=
  calls.findRev? fun entry => entry.keys.contains key

/-- **The place of an entry.** That of the earliest written of the keys which it holds. -/
def place [DecidableEq F] (calls : List (FormatEntry F)) (entry : FormatEntry F) : Nat :=
  (writtenKeys calls).findIdx fun key => holder? calls key = some entry

variable {calls : List (FormatEntry F)} {entry : FormatEntry F} {key : Text}

/-! ### Holders -/

/-- One call more holds its own keys and leaves the other ones. -/
theorem holder?_concat (calls : List (FormatEntry F)) (entry : FormatEntry F) (key : Text) :
    holder? (calls ++ [entry]) key = if key ∈ entry.keys then some entry else holder? calls key := by
  rw [holder?, holder?, List.findRev?_eq_find?_reverse, List.findRev?_eq_find?_reverse,
    List.reverse_concat, List.find?_cons]
  by_cases hkey : key ∈ entry.keys
  · simp [hkey]
  · simp [hkey]

/-- A holder writes the key which it holds. -/
theorem mem_keys_of_holder? (h : holder? calls key = some entry) : key ∈ entry.keys := by
  rw [holder?, List.findRev?_eq_find?_reverse] at h
  simpa using List.find?_some h

/-- Every held key has been written. -/
theorem mem_writtenKeys_of_holder? (h : holder? calls key = some entry) : key ∈ writtenKeys calls := by
  have hkey := mem_keys_of_holder? h
  rw [holder?, List.findRev?_eq_find?_reverse] at h
  have hentry : entry ∈ calls := List.mem_reverse.mp (List.mem_of_find?_eq_some h)
  exact List.mem_eraseDups.mpr (List.mem_flatMap.mpr ⟨entry, hentry, hkey⟩)

/-! ### Calls as writing -/

/-- **A call writes** its entry under each of its keys. -/
theorem register_eq_insertAll (entry : FormatEntry F) (registry : Registry F) :
    registry.register entry = Dictionary.insertAll (entry.keys.map fun key => (key, entry)) registry := by
  rw [register, FormatEntry.keys, Dictionary.insertAll, List.foldl_map, List.foldl_map]

theorem ofCalls_concat (calls : List (FormatEntry F)) (entry : FormatEntry F) :
    ofCalls (calls ++ [entry]) = (ofCalls calls).register entry :=
  List.foldl_append

/-- **Calls write** one after another. -/
theorem ofCalls_eq_insertAll (calls : List (FormatEntry F)) :
    ofCalls calls =
      Dictionary.insertAll (calls.flatMap fun entry => entry.keys.map fun key => (key, entry)) [] := by
  rw [ofCalls, Dictionary.insertAll, List.foldl_flatMap]
  simp only [register_eq_insertAll, Dictionary.insertAll]

/-- **A key has its holder.** -/
theorem get?_ofCalls (calls : List (FormatEntry F)) (key : Text) :
    Dictionary.get? key (ofCalls calls) = holder? calls key := by
  induction calls using List.reverseRecOn with
  | nil => rfl
  | append_singleton calls entry ih =>
    rw [ofCalls_concat, register_eq_insertAll, Dictionary.get?_insertAll_map, ih, holder?_concat]

/-- **The keys** stand in the order of their first writing. -/
theorem keys_ofCalls (calls : List (FormatEntry F)) :
    Dictionary.keys (ofCalls calls) = writtenKeys calls := by
  have hfst (entry : FormatEntry F) :
      (entry.keys.map fun key => (key, entry)).map Prod.fst = entry.keys := by
    rw [List.map_map]
    exact List.map_id _
  rw [ofCalls_eq_insertAll, Dictionary.keys_insertAll, writtenKeys, List.map_flatMap]
  simp only [hfst]

/-! ### What a registry holds -/

theorem nodup_keys_ofCalls (calls : List (FormatEntry F)) :
    (Dictionary.keys (ofCalls calls)).Nodup :=
  keys_ofCalls calls ▸ nodup_eraseDups _

variable [DecidableEq F]

/-- **The entries** are those that hold a key. -/
theorem mem_entries_ofCalls_iff :
    entry ∈ (ofCalls calls).entries ↔ ∃ key ∈ writtenKeys calls, holder? calls key = some entry := by
  simp only [entries, List.mem_eraseDups, Dictionary.mem_values_iff (nodup_keys_ofCalls calls),
    get?_ofCalls, keys_ofCalls]

/-- The first entry with a value stands where the earliest key that it holds stands. -/
theorem idxOf_values_ofCalls (calls : List (FormatEntry F)) (entry : FormatEntry F) :
    (Dictionary.values (ofCalls calls)).idxOf entry = place calls entry := by
  rw [Dictionary.idxOf_values (nodup_keys_ofCalls calls), keys_ofCalls, place]
  simp only [get?_ofCalls]

/-- **A registry reflects the registrations that survive.** Whatever was registered, a name that is not
empty finds the last entry that was registered under it in any case of letters. The entries come once
each. They are those that still hold a key, one of their own, and stand in the order of the earliest
written key that each of them holds. -/
theorem ofCalls_reflects (calls : List (FormatEntry F)) :
    (∀ name, (ofCalls calls).find? name =
      if name = [] then none else calls.findRev? fun entry =>
        ∃ own ∈ entry.name :: entry.aliases, own.lower = name.lower) ∧
    (ofCalls calls).entries.Nodup ∧
    (∀ entry, entry ∈ (ofCalls calls).entries ↔
      ∃ key ∈ writtenKeys calls, holder? calls key = some entry) ∧
    (∀ entry, entry ∈ (ofCalls calls).entries ↔
      ∃ key ∈ entry.keys, holder? calls key = some entry) ∧
    (ofCalls calls).entries.Pairwise fun first second => place calls first < place calls second := by
  refine ⟨fun name => ?_, nodup_eraseDups _, fun entry => mem_entries_ofCalls_iff, fun entry => ?_, ?_⟩
  · simp only [find?, get?_ofCalls, holder?, FormatEntry.keys, List.contains_eq_mem, List.mem_map]
  · rw [mem_entries_ofCalls_iff]
    constructor
    · rintro ⟨key, -, hholder⟩
      exact ⟨key, mem_keys_of_holder? hholder, hholder⟩
    · rintro ⟨key, -, hholder⟩
      exact ⟨key, mem_writtenKeys_of_holder? hholder, hholder⟩
  · refine (pairwise_eraseDups (Dictionary.values (ofCalls calls))).imp fun {first second} hlt => ?_
    rwa [idxOf_values_ofCalls, idxOf_values_ofCalls] at hlt

/-- An entry that has lost every key is gone, and the one that took them stands at its place. -/
example :
    let last := entryOf .characters ["Words", "Tokenized-Text"] ""
    (ofCalls [entryOf .tokenized ["words"] "", entryOf .english [] "", last]).entries =
      [last, entryOf .english [] ""] := by
  decide +kernel

end Registry

end Corpus
