import Corpus.Files.Tree

/-!
# Places and what is at them

* What is written into a file is found at its place as far as there is room, and every other place is as
  before (`node?_write_self`, `node?_write_of_ne`). Nothing is found at a device.
* A walk ends at a place and shows what is there. So a file that is opened for writing is not at the
  root, which is a directory.
-/

namespace Corpus.FileTree

variable {tree : FileTree} {place other : Place} {node : Node} {found : Option Node} {path : Path}
  {shown : RawText} {here : Place} {parts : List RawText} {bytes : List UInt8}

/-! ### Putting a node -/

theorem node?_put_self (hplace : place ≠ []) : (tree.put place node).node? place = some node := by
  rw [node?, if_neg hplace, put, List.lookup_cons_self]

/-- Other entries are found as if none had been taken away. -/
theorem lookup_filter_ne {nodes : List (Place × Node)} (hother : other ≠ place) :
    (nodes.filter fun entry => entry.1 ≠ place).lookup other = nodes.lookup other := by
  induction nodes with
  | nil => rfl
  | cons entry nodes ih =>
    obtain ⟨key, node⟩ := entry
    by_cases hkey : key = place
    · rw [List.filter_cons_of_neg (by simpa using hkey), ih, List.lookup_cons,
        beq_false_of_ne (hkey.symm ▸ hother)]
    · rw [List.filter_cons_of_pos (by simpa using hkey), List.lookup_cons, List.lookup_cons, ih]

theorem node?_put_of_ne (hother : other ≠ place) :
    (tree.put place node).node? other = tree.node? other := by
  rw [node?, node?, put, List.lookup_cons, beq_false_of_ne hother, lookup_filter_ne hother]

/-! ### Room -/

@[simp] theorem taken_nil : tree.taken place [] = [] := by
  rw [taken]
  split
  · rfl
  · exact List.take_nil

@[simp] theorem overflow?_nil : tree.overflow? place [] = none := by
  rw [overflow?]
  cases (tree.access place).room <;> simp [Option.filter]

/-- **Where nothing overflows, all is taken.** -/
theorem taken_eq_self (h : tree.overflow? place bytes = none) : tree.taken place bytes = bytes := by
  rw [taken]
  rw [overflow?, Option.map_eq_none_iff] at h
  cases hroom : (tree.access place).room with
  | none => rfl
  | some room =>
    rw [hroom, Option.filter_eq_none_iff] at h
    exact List.take_of_length_le (Nat.not_lt.mp (by simpa using h room rfl))

/-! ### Writing -/

@[simp] theorem access_write : (tree.write place bytes).access = tree.access := by
  rw [write]
  split <;> rfl

@[simp] theorem taken_write {more : List UInt8} :
    (tree.write place bytes).taken other more = tree.taken other more := by
  rw [taken, taken, access_write]

@[simp] theorem overflow?_write {more : List UInt8} :
    (tree.write place bytes).overflow? other more = tree.overflow? other more := by
  rw [overflow?, overflow?, access_write]

/-- A device keeps nothing. -/
theorem write_of_isDevice (h : tree.isDevice place = true) : tree.write place bytes = tree := if_pos h

/-- **What a file holds** once it has been written. -/
theorem node?_write_self (hplace : place ≠ []) (hdevice : tree.isDevice place = false) :
    (tree.write place bytes).node? place = some (.file (tree.taken place bytes)) := by
  rw [write, hdevice]
  exact node?_put_self hplace

/-- **Writing leaves every other place as it is.** -/
theorem node?_write_of_ne (hother : other ≠ place) :
    (tree.write place bytes).node? other = tree.node? other := by
  rw [write]
  split
  · rfl
  · exact node?_put_of_ne hother

theorem content_write_of_ne (hother : other ≠ place) :
    (tree.write place bytes).content other = tree.content other := by
  rw [content, content, node?_write_of_ne hother]

/-- A device stays one, and nothing else becomes one. -/
theorem isDevice_write (hplace : place ≠ []) (bytes : List UInt8) :
    (tree.write place bytes).isDevice place = tree.isDevice place := by
  cases hdevice : tree.isDevice place with
  | true => rw [write_of_isDevice hdevice, hdevice]
  | false => rw [isDevice, node?_write_self hplace hdevice]

/-! ### Opening -/

/-- A walk shows what is at the place where it ends. -/
theorem node?_of_walk (h : tree.walk shown here parts = .ok (place, found)) :
    found = tree.node? place := by
  induction parts generalizing here with
  | nil =>
    obtain ⟨rfl, rfl⟩ := Prod.mk.inj (Except.ok.inj h)
    rfl
  | cons part parts ih =>
    rw [walk] at h
    split at h
    · cases h
    · cases h
    · cases h
    · split at h
      · cases h
      · split at h
        · exact ih h
        · split at h
          · cases h
          · split at h
            · cases h
            · exact ih h

/-- A path shows what is at the place to which it leads. -/
theorem node?_of_locate (h : tree.locate path = .ok (place, found)) : found = tree.node? place := by
  rw [locate] at h
  split at h
  · cases h
  · exact node?_of_walk h

/-- What is there can be located. -/
theorem exists_locate_of_isThere (h : tree.isThere path = .ok true) :
    misnamed? path = none ∧ ∃ place node, tree.locate path = .ok (place, some node) := by
  rw [isThere] at h
  split at h
  · cases h
  · rename_i hnamed
    refine ⟨Option.not_isSome_iff_eq_none.mp hnamed, ?_⟩
    cases hlocate : tree.locate path with
    | ok reached =>
      obtain ⟨place, found⟩ := reached
      rw [hlocate] at h
      obtain ⟨node, rfl⟩ := Option.isSome_iff_exists.mp (Except.ok.inj h)
      exact ⟨place, node, rfl⟩
    | error fault =>
      rw [hlocate] at h
      cases fault with
      | refused refusal shown =>
        simp only at h
        split at h <;> cases h
      | _ => cases h

/-- **Opening what is there for reading.** What holds bytes is opened with them where this is granted. -/
theorem openToRead_bytes (hnamed : misnamed? path = none)
    (h : tree.locate path = .ok (place, some node)) (hgranted : (tree.access place).read = none)
    (hbytes : node.bytes? = some bytes) :
    tree.openToRead path = .ok place ∧ tree.content place = bytes := by
  constructor
  · rw [openToRead, hnamed, h]
    simp only [hgranted, granted]
    cases node with
    | directory => cases hbytes
    | _ => rfl
  · rw [content, ← node?_of_locate h, Option.bind_some, hbytes]
    rfl

/-- A directory is not opened, and neither is what is refused. -/
theorem exists_openToRead_error (hnamed : misnamed? path = none)
    (h : tree.locate path = .ok (place, some node))
    (hclosed : (tree.access place).read ≠ none ∨ node.bytes? = none) :
    ∃ e, tree.openToRead path = .error e := by
  rw [openToRead, hnamed, h]
  cases hread : (tree.access place).read with
  | some refusal => exact ⟨_, by simp only [hread, granted]; rfl⟩
  | none =>
    rcases hclosed with hrefused | hbytes
    · exact absurd hread hrefused
    · cases node with
      | directory => exact ⟨_, by simp only [hread, granted]; rfl⟩
      | _ => cases hbytes

/-- What is granted is granted at the place itself. -/
theorem granted_eq_ok_iff {refusal : Option Refusal} :
    granted place path refusal = .ok other ↔ refusal = none ∧ place = other := by
  cases refusal <;> simp [granted]

/-- **What is opened for writing** is no directory. -/
theorem node?_ne_directory_of_openToWrite (h : tree.openToWrite path = .ok place) :
    tree.node? place ≠ some .directory := by
  rw [openToWrite] at h
  split at h
  · cases h
  · split at h
    · cases h
    · cases h
    · rename_i reached found hdirectory hlocate
      obtain ⟨-, rfl⟩ := granted_eq_ok_iff.mp h
      rw [← node?_of_locate hlocate]
      rintro rfl
      exact hdirectory rfl

/-- **What can be read can be written** where this is granted, at the same place. -/
theorem openToWrite_of_openToRead (h : tree.openToRead path = .ok place)
    (hgranted : (tree.access place).write = none) : tree.openToWrite path = .ok place := by
  rw [openToRead] at h
  rw [openToWrite]
  split at h
  · cases h
  · cases hlocate : tree.locate path with
    | error fault =>
      rw [hlocate] at h
      cases h
    | ok reached =>
      obtain ⟨reached, found⟩ := reached
      rw [hlocate] at h
      cases found with
      | none => cases h
      | some node =>
        simp only at h
        split at h
        · cases h
        · rename_i granted hread
          -- Both ways of opening grant the place itself, and only a directory is told apart.
          obtain ⟨-, rfl⟩ := granted_eq_ok_iff.mp hread
          cases node with
          | directory => cases h
          | _ =>
            obtain rfl := Except.ok.inj h
            exact granted_eq_ok_iff.mpr ⟨hgranted, rfl⟩

/-- The root is a directory, so that it is not opened for writing. -/
theorem ne_nil_of_openToWrite (h : tree.openToWrite path = .ok place) : place ≠ [] := by
  rintro rfl
  exact node?_ne_directory_of_openToWrite h rfl

end Corpus.FileTree
