import Corpus.Options.Config
import Corpus.Proofs.Files.Tree
import Corpus.Proofs.Json.Excess
import Corpus.Proofs.Options.Merging
import Corpus.Proofs.Text.Encoding

/-!
# What a configuration file says

Reading a configuration, said of the bytes of its file and of the grammar of JSON.

* Entries are read from the UTF-8 of a document whose value is an object (`HoldsObject`).
* Reading breaks off at bytes that are no UTF-8 and at documents that exceed the digit limit or the depth
  for which the stack has room (`Breaks`), and only there.
* Whatever else is at the path, a directory too or what may not be read, says nothing and is reported with
  one warning.

A configuration holds every key once, so that options are settled by its values in effect.
-/

namespace Corpus.Config

variable {tree : FileTree} {env : Environment} {given : Option Path} {path : Path} {place : Place}
  {node : Node} {nesting : Nat} {bytes : List UInt8} {entries overrides : List (RawText × Json)}
  {contents : Contents} {e : Error}

/-- **An object is held**, with these entries: the UTF-8 of a document that is nested up to `nesting`
levels. -/
def HoldsObject (nesting : Nat) (node : Node) (entries : List (RawText × Json)) : Prop :=
  ∃ text, node.bytes? = some (Utf8.encode text) ∧
    Json.Document (some Numeral.digitLimit) nesting text (.object entries)

/-- **What breaks the reading off**, and the error. -/
inductive Breaks (nesting : Nat) (node : Node) : Error → Prop
  | undecodable {bytes : List UInt8} (hbytes : node.bytes? = some bytes)
      (h : ∀ text, bytes ≠ Utf8.encode text) : Breaks nesting node .undecodable
  | tooLong {text : Text} {digits : Nat} (hbytes : node.bytes? = some (Utf8.encode text))
      (h : Json.Exceeds Numeral.digitLimit nesting text (.tooLong digits)) :
      Breaks nesting node (.numeral (.tooLongToRead digits))
  | tooDeep {text : Text} {container : Json.Container} (hbytes : node.bytes? = some (Utf8.encode text))
      (h : Json.Exceeds Numeral.digitLimit nesting text (.tooDeep container)) :
      Breaks nesting node (.tooDeep container)

/-- **One warning** and no entries. -/
def Warns (outcome : Except Error Contents) : Prop :=
  ∃ entry : Log.Entry, entry.level = .warning ∧ outcome = .ok { log := [entry] }

/-! ### Bytes of a file -/

theorem ofBytes_object (hbytes : node.bytes? = some bytes) (h : HoldsObject nesting node entries) :
    ofBytes nesting path bytes = .ok { entries } := by
  obtain ⟨text, htext, hdocument⟩ := h
  obtain rfl := Option.some.inj (hbytes.symm.trans htext)
  rw [ofBytes, Utf8.decode?_eq_some_iff.mpr rfl]
  simp only [Json.read_eq_ok_iff.mpr hdocument]

theorem ofBytes_breaks (hbytes : node.bytes? = some bytes) (h : Breaks nesting node e) :
    ofBytes nesting path bytes = .error e := by
  cases h with
  | undecodable htext hnone =>
    obtain rfl := Option.some.inj (hbytes.symm.trans htext)
    have hdecode : Utf8.decode? bytes = none :=
      Option.eq_none_iff_forall_ne_some.mpr fun text htext =>
        hnone text (Utf8.decode?_eq_some_iff.mp htext)
    rw [ofBytes, hdecode]
  | tooLong htext hexceeds =>
    obtain rfl := Option.some.inj (hbytes.symm.trans htext)
    rw [ofBytes, Utf8.decode?_eq_some_iff.mpr rfl]
    simp only [hexceeds.read_eq]
  | tooDeep htext hexceeds =>
    obtain rfl := Option.some.inj (hbytes.symm.trans htext)
    rw [ofBytes, Utf8.decode?_eq_some_iff.mpr rfl]
    simp only [hexceeds.read_eq]

/-- Any other bytes are ignored with a warning. -/
theorem ofBytes_warns (hbytes : node.bytes? = some bytes)
    (hobject : ∀ entries, ¬ HoldsObject nesting node entries) (hbreaks : ∀ e, ¬ Breaks nesting node e) :
    Warns (ofBytes nesting path bytes) := by
  cases htext : Utf8.decode? bytes with
  | none =>
    refine absurd (.undecodable hbytes fun text hencoded => ?_) (hbreaks .undecodable)
    cases htext.symm.trans (Utf8.decode?_eq_some_iff.mpr hencoded)
  | some text =>
    obtain rfl := Utf8.decode?_eq_some_iff.mp htext
    -- A refusal for another reason than the form would break the reading off, which it does not.
    have hexceeds {fault : Json.Fault} (hfault : fault ≠ .malformed)
        (hread : Json.read (some Numeral.digitLimit) nesting text = .error fault) :
        Json.Exceeds Numeral.digitLimit nesting text fault :=
      (Json.read_eq_error_iff (by decide) hfault).mp hread
    rw [ofBytes, htext]
    cases hread : Json.read (some Numeral.digitLimit) nesting text with
    | error fault =>
      cases fault with
      | malformed => exact ⟨unreadable path, rfl, by simp only [hread]⟩
      | tooLong digits => exact absurd (.tooLong hbytes (hexceeds nofun hread)) (hbreaks _)
      | tooDeep container => exact absurd (.tooDeep hbytes (hexceeds nofun hread)) (hbreaks _)
    | ok value =>
      cases value with
      | object entries =>
        exact absurd ⟨text, hbytes, Json.read_eq_ok_iff.mp hread⟩ (hobject entries)
      | _ => exact ⟨notObject path, rfl, by simp only [hread]⟩

/-! ### Files -/

/-- What is not opened is ignored with a warning. -/
theorem read_closed (hthere : tree.isThere path = .ok true)
    (h : tree.locate path = .ok (place, some node))
    (hclosed : (tree.access place).read ≠ none ∨ node.bytes? = none) :
    Warns (read tree env (some path)) := by
  obtain ⟨e, hopen⟩ :=
    FileTree.exists_openToRead_error (FileTree.exists_locate_of_isThere hthere).1 h hclosed
  refine ⟨unreadable path, rfl, ?_⟩
  simp only [read, bind, Except.bind, hthere, hopen]
  rfl

/-- What is opened is read from its bytes. -/
theorem read_opened (hthere : tree.isThere path = .ok true)
    (h : tree.locate path = .ok (place, some node)) (hgranted : (tree.access place).read = none)
    (hbytes : node.bytes? = some bytes) :
    read tree env (some path) = ofBytes env.nesting path bytes := by
  obtain ⟨hopen, hcontent⟩ :=
    FileTree.openToRead_bytes (FileTree.exists_locate_of_isThere hthere).1 h hgranted hbytes
  simp only [read, bind, Except.bind, hthere, hopen, hcontent]
  rfl

/-- **Reading what is there.** Where reading is granted, entries come from what holds an object; what is
no UTF-8, has an integer of too many digits or is nested too deeply breaks the reading off; anything else
says nothing and gives one warning. So does what may not be read. -/
theorem read_of_isThere (env : Environment) (hthere : tree.isThere path = .ok true) :
    ∃ place node, tree.locate path = .ok (place, some node) ∧
      ((tree.access place).read = none →
        (∀ entries, HoldsObject env.nesting node entries →
          read tree env (some path) = .ok { entries }) ∧
        (∀ e, Breaks env.nesting node e → read tree env (some path) = .error e) ∧
        ((∀ entries, ¬ HoldsObject env.nesting node entries) → (∀ e, ¬ Breaks env.nesting node e) →
          Warns (read tree env (some path)))) ∧
      ((tree.access place).read ≠ none → Warns (read tree env (some path))) := by
  obtain ⟨-, place, node, hlocate⟩ := FileTree.exists_locate_of_isThere hthere
  refine ⟨place, node, hlocate, fun hgranted => ?_,
    fun hrefused => read_closed hthere hlocate (.inl hrefused)⟩
  cases hbytes : node.bytes? with
  | none =>
    refine ⟨?_, fun e hbreaks => ?_, fun _ _ => read_closed hthere hlocate (.inr hbytes)⟩
    · rintro entries ⟨text, htext, -⟩
      cases hbytes.symm.trans htext
    · cases hbreaks <;> cases hbytes.symm.trans (by assumption)
  | some bytes =>
    rw [read_opened hthere hlocate hgranted hbytes]
    exact ⟨fun _ => ofBytes_object hbytes, fun _ => ofBytes_breaks hbytes, ofBytes_warns hbytes⟩

/-- The directory with a configuration of these bytes. -/
def treeOf (bytes : List UInt8) : FileTree := { nodes := [(["c.json".toList], .file bytes)] }

/-- An object with one key twice, and blanks. -/
def repeatedKey : Text :=
  [' ', '\x7b', '\x22', 'd', '\x22', ':', '1', ',', ' ', '\x22', 'd', '\x22', ' ', ':', '[', ' ', ']',
    '\x7d', '\n']

theorem read_repeatedKey :
    let tree := treeOf (Utf8.encode repeatedKey)
    let path : Path := { parts := ["c.json".toList] }
    tree.isThere path = .ok true ∧
      read tree {} (some path) = .ok { entries := [([.char 'd'], .array [])] } := by
  intro tree path
  have hthere : tree.isThere path = .ok true := rfl
  have hread : Json.read (some Numeral.digitLimit) ({} : Environment).nesting repeatedKey =
      .ok (.object [([.char 'd'], .array [])]) := rfl
  have hfile : tree.locate path = .ok (["c.json".toList], some (.file (Utf8.encode repeatedKey))) := rfl
  obtain ⟨place, node, hlocate, hgranted, -⟩ := read_of_isThere {} hthere
  cases hfile.symm.trans hlocate
  exact ⟨hthere, (hgranted rfl).1 _ ⟨repeatedKey, rfl, Json.read_eq_ok_iff.mp hread⟩⟩

/-- A byte that is no UTF-8 is not ignored. -/
theorem read_loneByte :
    let tree := treeOf [0xFF]
    let path : Path := { parts := ["c.json".toList] }
    tree.isThere path = .ok true ∧ read tree {} (some path) = .error .undecodable :=
  ⟨rfl, rfl⟩

/-- Neither is an array in an array where one level is all that there is room for. -/
example :
    read (treeOf (Utf8.encode "[[]]".toList)) { nesting := 1 } (some { parts := ["c.json".toList] }) =
      .error (.tooDeep .array) :=
  rfl

/-! ### Options -/

theorem nodup_keys_of_ofBytes (h : ofBytes nesting path bytes = .ok contents) :
    (Dictionary.keys contents.entries).Nodup := by
  rw [ofBytes] at h
  split at h
  · cases h
  · split at h
    · cases h
      exact List.nodup_nil
    · cases h
    · cases h
    · rename_i entries hread
      cases h
      exact Json.nodup_keys_of_read hread
    · cases h
      exact List.nodup_nil

/-- **A configuration holds every key once.** -/
theorem nodup_keys_of_read (h : read tree env given = .ok contents) :
    (Dictionary.keys contents.entries).Nodup := by
  have hgiven {path : Path} (h : read tree env (some path) = .ok contents) :
      (Dictionary.keys contents.entries).Nodup := by
    simp only [read, bind, Except.bind] at h
    split at h
    · cases h
    · split at h
      · cases h
        exact List.nodup_nil
      · split at h
        · exact nodup_keys_of_ofBytes h
        · cases h
          exact List.nodup_nil
  cases given with
  | some path => exact hgiven h
  | none =>
    cases hpath : Config.path env with
    | error e =>
      simp only [read, bind, Except.bind, hpath] at h
      cases h
    | ok path =>
      have hsame : read tree env none = read tree env (some path) := by
        simp only [read, bind, Except.bind, hpath]
      exact hgiven (hsame ▸ h)

/-- **Options from a file** are settled by what overrides and the file give. -/
theorem load_read_eq_ok_iff {options : Options} (h : read tree env given = .ok contents)
    (hoverrides : (Dictionary.keys overrides).Nodup) :
    Options.load overrides contents.entries = .ok options ↔
      ∀ key, Options.Settles false (Options.effective? overrides contents.entries key)
        (options.get key) :=
  Options.load_eq_ok_iff hoverrides (nodup_keys_of_read h)

end Corpus.Config
