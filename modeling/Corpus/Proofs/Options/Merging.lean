import Corpus.Proofs.Dictionary.History
import Corpus.Proofs.Options.Truth

/-!
# Options in effect

Which values decide about the options when overrides are merged with a configuration.

* A mapping gives a key what it holds for it, unless that is a null. Merging follows the overrides where
  they give something and the configuration elsewhere (`given?_merge`), by what one write does.
* Reading succeeds when every given value has a meaning, and then each option is settled by the value of
  its own name (`ofEntries_eq_ok_iff`). So neither other names nor the order of the entries count.
-/

namespace Corpus

/-! ### Names of options -/

namespace OptionKey

theorem ofName?_eq_some_iff {text : RawText} {key : OptionKey} :
    ofName? text = some key ↔ text = key.name := by
  constructor
  · intro h
    have hname := List.find?_some h
    exact (of_decide_eq_true hname).symm
  · rintro rfl
    cases key <;> decide

theorem name_ne {key other : OptionKey} (h : key ≠ other) : key.name ≠ other.name := by
  intro hname
  have hkey : ofName? key.name = some key := ofName?_eq_some_iff.mpr rfl
  have hother : ofName? key.name = some other := ofName?_eq_some_iff.mpr hname
  exact h (Option.some.inj (hkey.symm.trans hother))

end OptionKey

namespace Options

variable {options other : Options} {key : OptionKey} {state : Bool} {e : Error}

@[simp] theorem get_set_self : (options.set key state).get key = state := by
  cases key <;> rfl

theorem get_set_of_ne {changed : OptionKey} (h : changed ≠ key) :
    (options.set changed state).get key = options.get key := by
  cases changed with
  | joinCategoryToPos =>
    cases key with
    | joinCategoryToPos => exact absurd rfl h
    | addPosAsAttribute => rfl
  | addPosAsAttribute =>
    cases key with
    | joinCategoryToPos => rfl
    | addPosAsAttribute => exact absurd rfl h

/-- Options are their states. -/
theorem eq_of_get (h : ∀ key, options.get key = other.get key) : options = other := by
  obtain ⟨join, add⟩ := options
  obtain ⟨join', add'⟩ := other
  obtain rfl : join = join' := h .joinCategoryToPos
  obtain rfl : add = add' := h .addPosAsAttribute
  rfl

/-! ### Given values -/

/-- **What a value gives**: itself, unless it is a null. -/
def present? : Json → Option Json
  | .null => none
  | value => some value

/-- **What a mapping gives** for a name. -/
def given? (name : RawText) (d : Dictionary Json RawText) : Option Json :=
  (Dictionary.get? name d).bind present?

/-- **The value in effect** for an option. -/
def effective? (overrides config : Dictionary Json RawText) (key : OptionKey) : Option Json :=
  (given? key.name overrides).or (given? key.name config)

variable {name written : RawText} {value found : Json} {entries rest overrides config : Dictionary Json RawText}

theorem eq_of_present? (h : present? value = some found) : value = found := by
  cases value with
  | null => cases h
  | _ => exact Option.some.inj h

theorem given?_cons :
    given? name ((written, value) :: rest) =
      if written = name then present? value else given? name rest := by
  rw [given?, Dictionary.get?]
  split <;> rfl

theorem given?_eq_none_of_not_mem (h : name ∉ Dictionary.keys entries) :
    given? name entries = none := by
  rw [given?, Dictionary.get?_eq_none_of_not_mem h]
  rfl

theorem given?_insert :
    given? name (Dictionary.insert written value entries) =
      if written = name then present? value else given? name entries := by
  rw [given?, Dictionary.get?_insert]
  split <;> rfl

/-- One override writes what it gives. -/
theorem merge_cons :
    merge ((written, value) :: rest) config =
      merge rest (match present? value with
        | none => config
        | some value => Dictionary.insert written value config) := by
  cases value <;> rfl

/-- **Overrides win**, and the configuration counts where they give nothing. -/
theorem given?_merge (hkeys : (Dictionary.keys overrides).Nodup) (name : RawText) :
    given? name (merge overrides config) = (given? name overrides).or (given? name config) := by
  induction overrides generalizing config with
  | nil => rfl
  | cons entry rest ih =>
    obtain ⟨written, value⟩ := entry
    obtain ⟨hnew, hkeys⟩ := List.nodup_cons.mp hkeys
    rw [merge_cons, ih hkeys, given?_cons]
    cases hvalue : present? value with
    | none =>
      by_cases hname : written = name
      · subst hname
        rw [given?_eq_none_of_not_mem hnew, if_pos rfl]
      · rw [if_neg hname]
    | some found =>
      obtain rfl := eq_of_present? hvalue
      rw [given?_insert, hvalue]
      by_cases hname : written = name
      · -- no later override has this name
        subst hname
        rw [given?_eq_none_of_not_mem hnew, if_pos rfl, if_pos rfl]
        rfl
      · rw [if_neg hname, if_neg hname]

theorem nodup_keys_merge (h : (Dictionary.keys config).Nodup) :
    (Dictionary.keys (merge overrides config)).Nodup := by
  induction overrides generalizing config with
  | nil => exact h
  | cons entry rest ih =>
    obtain ⟨written, value⟩ := entry
    rw [merge_cons]
    cases present? value with
    | none => exact ih h
    | some value => exact ih (Dictionary.nodup_keys_insert h)

/-! ### Reading -/

/-- **How an option is settled**: by the meaning of a given value, and else as it was. -/
inductive Settles (before : Bool) : Option Json → Bool → Prop
  | absent : Settles before none before
  | given {value : Json} {state : Bool} (h : value.Means state) : Settles before (some value) state

theorem settles_none_iff {before : Bool} : Settles before none state ↔ state = before :=
  ⟨fun h => by cases h; rfl, fun h => h ▸ .absent⟩

theorem settles_some_iff {before : Bool} : Settles before (some value) state ↔ value.Means state :=
  ⟨fun h => by cases h; assumption, .given⟩

/-- An entry counts when it names an option and gives something. -/
theorem ofEntries_cons :
    ofEntries options ((written, value) :: rest) =
      match OptionKey.ofName? written, present? value with
      | some key, some value =>
        match value.truth with
        | .error e => .error e
        | .ok state => ofEntries (options.set key state) rest
      | _, _ => ofEntries options rest := by
  cases hname : OptionKey.ofName? written with
  | none => simp only [ofEntries, hname]
  | some key =>
    cases htruth : value.truth with
    | error e => cases value <;> simp only [ofEntries, hname, present?, htruth]
    | ok state => cases value <;> simp only [ofEntries, hname, present?, htruth]

/-- **Options read from entries** with distinct names. Each is settled by what is given for its own
name. -/
theorem ofEntries_eq_ok_iff (hkeys : (Dictionary.keys entries).Nodup) :
    ofEntries options entries = .ok other ↔
      ∀ key, Settles (options.get key) (given? key.name entries) (other.get key) := by
  induction entries generalizing options with
  | nil =>
    constructor
    · intro h key
      exact Except.ok.inj h ▸ .absent
    · intro h
      exact congrArg Except.ok (eq_of_get fun key => (settles_none_iff.mp (h key)).symm)
  | cons entry rest ih =>
    obtain ⟨written, value⟩ := entry
    obtain ⟨hnew, hrest⟩ := List.nodup_cons.mp hkeys
    rw [ofEntries_cons]
    split
    · -- the entry gives a value for an option, which no later entry names
      rename_i changed found hname hvalue
      obtain rfl := eq_of_present? hvalue
      obtain rfl := OptionKey.ofName?_eq_some_iff.mp hname
      have hother (key : OptionKey) (hkey : changed ≠ key) :
          given? key.name ((changed.name, value) :: rest) = given? key.name rest := by
        rw [given?_cons, if_neg (OptionKey.name_ne hkey)]
      have hself : given? changed.name ((changed.name, value) :: rest) = some value := by
        rw [given?_cons, if_pos rfl, hvalue]
      cases htruth : value.truth with
      | error e =>
        refine iff_of_false nofun fun h => ?_
        have hmeans := h changed
        rw [hself, settles_some_iff] at hmeans
        exact (Json.refusal_of_truth htruth).1 _ hmeans
      | ok state =>
        simp only
        rw [ih hrest]
        refine forall_congr' fun key => ?_
        by_cases hkey : changed = key
        · subst hkey
          rw [get_set_self, given?_eq_none_of_not_mem hnew, settles_none_iff, hself, settles_some_iff,
            ← Json.truth_eq_ok_iff, htruth, Except.ok.injEq, eq_comm]
        · rw [get_set_of_ne hkey, hother key hkey]
    · rename_i hvoid
      rw [ih hrest]
      refine forall_congr' fun key => ?_
      rw [given?_cons]
      by_cases hname : written = key.name
      · have hvalue : present? value = none := by
          by_contra hgives
          obtain ⟨found, hfound⟩ := Option.ne_none_iff_exists'.mp hgives
          exact hvoid key found (OptionKey.ofName?_eq_some_iff.mpr hname) hfound
        rw [if_pos hname, hvalue, given?_eq_none_of_not_mem (hname ▸ hnew)]
      · rw [if_neg hname]

section Loading

variable (hoverrides : (Dictionary.keys overrides).Nodup) (hconfig : (Dictionary.keys config).Nodup)

include hoverrides hconfig

/-- Loading succeeds with the options that the values in effect settle. -/
theorem load_eq_ok_iff :
    load overrides config = .ok options ↔
      ∀ key, Settles false (effective? overrides config key) (options.get key) := by
  rw [load, ofEntries_eq_ok_iff (nodup_keys_merge hconfig)]
  refine forall_congr' fun key => ?_
  have hoff : ({} : Options).get key = false := by cases key <;> rfl
  rw [given?_merge hoverrides, hoff, effective?]

end Loading

end Options

end Corpus
