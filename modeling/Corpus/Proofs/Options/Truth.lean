import Corpus.Options.Reading
import Corpus.Proofs.Text.Raw

/-!
# What a value means

* A Boolean or an integer means its truth, any other value what its text says (`Json.Means`). No text
  says both, and raw text that is no text says nothing.
* Truth is meaning (`Json.truth_eq_ok_iff`), and a value that means nothing is refused with its text.
-/

namespace Corpus

/-- The texts of a truth value. -/
def truthWords (state : Bool) : List Text := if state then trueWords else falseWords

theorem truthOfText?_eq_some_iff {text : Text} {state : Bool} :
    truthOfText? text = some state ↔ text.stripped.lower ∈ truthWords state := by
  -- no text says both
  have hdisjoint : ∀ word ∈ trueWords, word ∉ falseWords := by decide
  rw [truthOfText?]
  by_cases htrue : text.stripped.lower ∈ trueWords
  · have hfalse := hdisjoint _ htrue
    cases state <;> simp [truthWords, htrue, hfalse]
  · by_cases hfalse : text.stripped.lower ∈ falseWords <;>
      cases state <;> simp [truthWords, htrue, hfalse]

/-- Raw text says what the text that it is says. -/
theorem truthOfRaw?_eq_some_iff {raw : RawText} {state : Bool} :
    truthOfRaw? raw = some state ↔
      ∃ text : Text, raw = text ∧ text.stripped.lower ∈ truthWords state := by
  simp only [← RawText.toText_eq_ok_iff, ← truthOfText?_eq_some_iff]
  rw [truthOfRaw?]
  cases raw.toText <;> simp

namespace Json

/-- **A value that is judged by its text**: neither a Boolean nor an integer. -/
def IsWorded : Json → Prop
  | bool _ => False
  | integer _ => False
  | _ => True

/-- **What a value means.** Booleans and integers mean their truth, any other value what its text says
without the blanks around it, in any case of letters. -/
inductive Means : Json → Bool → Prop
  | bool (state : Bool) : Means (.bool state) state
  | integer (n : Int) : Means (.integer n) (decide (n ≠ 0))
  | word {value : Json} {shown : Text} {state : Bool} (hworded : value.IsWorded)
      (hshown : value.shown = .ok (shown : RawText)) (hword : shown.stripped.lower ∈ truthWords state) :
      Means value state

/-- **The error about a value** that means nothing: its text, or why it has none. -/
def refusal (value : Json) : Error :=
  match value.shown with
  | .ok shown => .notBoolean shown
  | .error fault => .numeral fault

variable {value : Json} {state : Bool} {e : Error}

theorem truth_of_isWorded (h : value.IsWorded) :
    value.truth =
      match value.shown with
      | .error fault => .error (.numeral fault)
      | .ok shown =>
        match truthOfRaw? shown with
        | some truth => .ok truth
        | none => .error (.notBoolean shown) := by
  cases value with
  | bool => exact h.elim
  | integer => exact h.elim
  | _ => rfl

/-- **Truth is meaning.** -/
theorem truth_eq_ok_iff : value.truth = .ok state ↔ value.Means state := by
  constructor
  · intro h
    by_cases hworded : value.IsWorded
    · rw [truth_of_isWorded hworded] at h
      split at h
      · cases h
      · rename_i shown hshown
        split at h
        · rename_i found hfound
          obtain rfl := Except.ok.inj h
          obtain ⟨text, rfl, hword⟩ := truthOfRaw?_eq_some_iff.mp hfound
          exact .word hworded hshown hword
        · cases h
    · cases value with
      | bool b => exact Except.ok.inj h ▸ .bool b
      | integer n => exact Except.ok.inj h ▸ .integer n
      | _ => exact absurd trivial hworded
  · intro h
    cases h with
    | bool => rfl
    | integer => rfl
    | word hworded hshown hword =>
      rw [truth_of_isWorded hworded, hshown]
      simp only [truthOfRaw?_eq_some_iff.mpr ⟨_, rfl, hword⟩]

/-- A value that is refused means nothing, and the error tells its text. -/
theorem refusal_of_truth (h : value.truth = .error e) :
    (∀ state, ¬ value.Means state) ∧ e = value.refusal := by
  refine ⟨fun state hmeans => ?_, ?_⟩
  · cases h.symm.trans (truth_eq_ok_iff.mpr hmeans)
  · by_cases hworded : value.IsWorded
    · rw [truth_of_isWorded hworded] at h
      rw [refusal]
      split at h
      · rename_i fault hshown
        rw [hshown]
        exact (Except.error.inj h).symm
      · rename_i shown hshown
        split at h
        · cases h
        · rw [hshown]
          exact (Except.error.inj h).symm
    · cases value with
      | bool => cases h
      | integer => cases h
      | _ => exact absurd trivial hworded

end Json

end Corpus
