import Corpus.Proofs.Text.Pieces
import Corpus.Text.Raw
import Mathlib.Data.List.Basic

/-!
# Raw text and texts

* Raw text is a text when it comes from one (`toText_eq_ok_iff`).
* Any other raw text holds a lone surrogate (`not_holdsSurrogate_iff`), and is refused at the first one
  (`toText_eq_error_iff`).
* What is asked of texts is asked of raw text that is one (`Satisfies`).
* Texts are divided as raw texts like texts (`splitOn_ofText`).
-/

namespace Corpus.RawText

variable {raw : RawText} {text : Text} {position : Nat} {fault : EncodingFault}

theorem ofText_injective : Function.Injective ofText :=
  List.map_injective_iff.mpr fun _ _ => RawChar.char.inj

@[simp] theorem ofText_eq_nil_iff : ofText text = [] ↔ text = [] := List.map_eq_nil_iff

/-- **A lone surrogate is held.** -/
def HoldsSurrogate (raw : RawText) : Prop := ∃ n, .surrogate n ∈ raw

/-- **The first lone surrogate** is the one that a fault tells, with its place and the run that follows. -/
def HasFirstSurrogate (raw : RawText) (fault : EncodingFault) : Prop :=
  ∃ before rest, raw = ofText before ++ .surrogate fault.first :: rest ∧
    fault.position = before.length ∧ fault.run = surrogateRun rest

/-! ### Encoding -/

theorem toTextFrom_ofText (position : Nat) (text : Text) :
    toTextFrom position (ofText text) = .ok text := by
  induction text generalizing position with
  | nil => rfl
  | cons c text ih =>
    have hrest : toTextFrom (position + 1) (ofText text) = .ok text := ih _
    change (toTextFrom (position + 1) (ofText text)).map (c :: ·) = _
    rw [hrest]
    rfl

theorem toTextFrom_eq_error_iff :
    toTextFrom position raw = .error fault ↔ ∃ before rest,
      raw = ofText before ++ .surrogate fault.first :: rest ∧
        fault.position = position + before.length ∧ fault.run = surrogateRun rest := by
  induction raw generalizing position with
  | nil => simp [toTextFrom]
  | cons c raw ih =>
    cases c with
    | char c =>
      -- A character passes a fault on, which is then one place further from the start.
      have hmap : toTextFrom position (.char c :: raw) = .error fault ↔
          toTextFrom (position + 1) raw = .error fault := by
        rw [toTextFrom]
        cases toTextFrom (position + 1) raw <;> simp [Except.map]
      rw [hmap, ih]
      constructor
      · rintro ⟨before, rest, rfl, hposition, hrun⟩
        exact ⟨c :: before, rest, rfl, by rw [hposition, List.length_cons]; omega, hrun⟩
      · rintro ⟨before, rest, hraw, hposition, hrun⟩
        cases before with
        | nil => cases (List.cons.inj hraw).1
        | cons d before =>
          refine ⟨before, rest, (List.cons.inj hraw).2, ?_, hrun⟩
          rw [hposition, List.length_cons]
          omega
    | surrogate n =>
      constructor
      · intro h
        obtain rfl := Except.error.inj h
        exact ⟨[], raw, rfl, rfl, rfl⟩
      · rintro ⟨before, rest, hraw, hposition, hrun⟩
        cases before with
        | nil =>
          obtain ⟨first, place, run⟩ := fault
          obtain ⟨hfirst, rfl⟩ := List.cons.inj hraw
          obtain rfl : n = first := RawChar.surrogate.inj hfirst
          obtain rfl : place = position := hposition
          obtain rfl : run = _ := hrun
          rfl
        | cons d before => cases (List.cons.inj hraw).1

@[simp] theorem toText_ofText (text : Text) : (ofText text).toText = .ok text := toTextFrom_ofText 0 text

/-- **The first lone surrogate** is what raw text is refused for. -/
theorem toText_eq_error_iff :
    raw.toText = .error fault ↔ raw.HasFirstSurrogate fault := by
  rw [toText, toTextFrom_eq_error_iff, HasFirstSurrogate]
  simp only [Nat.zero_add]

theorem eq_ofText_of_toTextFrom (h : toTextFrom position raw = .ok text) : raw = ofText text := by
  induction raw generalizing position text with
  | nil => exact Except.ok.inj h ▸ rfl
  | cons c raw ih =>
    cases c with
    | surrogate n => cases h
    | char c =>
      rw [toTextFrom] at h
      cases hrest : toTextFrom (position + 1) raw with
      | error fault =>
        rw [hrest] at h
        cases h
      | ok rest =>
        rw [hrest] at h
        obtain rfl := Except.ok.inj h
        rw [ih hrest]
        rfl

/-- **Raw text is a text** when it comes from one. -/
theorem toText_eq_ok_iff : raw.toText = .ok text ↔ raw = ofText text :=
  ⟨eq_ofText_of_toTextFrom, fun h => h ▸ toText_ofText text⟩

/-- A text holds no lone surrogate. -/
theorem not_holdsSurrogate_ofText (text : Text) : ¬ (ofText text).HoldsSurrogate := by
  rintro ⟨n, hn⟩
  obtain ⟨c, -, hc⟩ := List.mem_map.mp hn
  cases hc

/-- **Without lone surrogates** raw text is a text. -/
theorem not_holdsSurrogate_iff : ¬ raw.HoldsSurrogate ↔ ∃ text : Text, raw = text := by
  constructor
  · intro hnone
    cases htext : raw.toText with
    | ok text => exact ⟨text, toText_eq_ok_iff.mp htext⟩
    | error fault =>
      obtain ⟨before, rest, hraw, -⟩ := toText_eq_error_iff.mp htext
      exact absurd ⟨fault.first, hraw ▸ List.mem_append_cons_self⟩ hnone
  · rintro ⟨text, rfl⟩
    exact not_holdsSurrogate_ofText text

/-- Raw text that holds a lone surrogate has a first one. -/
theorem HoldsSurrogate.exists_first (h : raw.HoldsSurrogate) : ∃ fault, raw.HasFirstSurrogate fault := by
  cases htext : raw.toText with
  | ok text =>
    obtain rfl := toText_eq_ok_iff.mp htext
    exact absurd h (not_holdsSurrogate_ofText text)
  | error fault => exact ⟨fault, toText_eq_error_iff.mp htext⟩

/-- **A text of a kind**, among raw texts. -/
def Satisfies (p : Text → Prop) (raw : RawText) : Prop := ∃ text : Text, raw = text ∧ p text

@[simp] theorem satisfies_ofText {p : Text → Prop} : (ofText text).Satisfies p ↔ p text := by
  constructor
  · rintro ⟨other, hother, hp⟩
    rwa [ofText_injective hother]
  · exact fun hp => ⟨text, rfl, hp⟩

theorem satisfies_iff {p : Text → Prop} :
    raw.Satisfies p ↔ ∃ text, raw.toText = .ok text ∧ p text := by
  simp only [Satisfies, toText_eq_ok_iff]

instance (p : Text → Prop) [DecidablePred p] (raw : RawText) : Decidable (raw.Satisfies p) :=
  match h : raw.toText with
  | .ok text => decidable_of_iff (p text) (by rw [toText_eq_ok_iff.mp h, satisfies_ofText])
  | .error _ => isFalse (by simp [satisfies_iff, h])

/-! ### Dividing -/

theorem splitOn_ofText (sep : Char) (text : Text) :
    List.splitOn (.char sep) (ofText text) = (List.splitOn sep text).map ofText := by
  induction text with
  | nil => rfl
  | cons c text ih =>
    obtain ⟨first, rest, hsplit⟩ := List.exists_cons_of_ne_nil (List.splitOn_ne_nil sep text)
    change List.splitOn (.char sep) (.char c :: ofText text) = _
    rw [List.splitOn_cons_eq_if_modifyHead, List.splitOn_cons_eq_if_modifyHead, ih, hsplit]
    by_cases hc : c = sep
    · simp [hc, ofText]
    · simp [hc, ofText]

end Corpus.RawText
