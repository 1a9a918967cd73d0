import Corpus.Number.Numeral
import Mathlib.Algebra.Group.Nat.Defs

/-!
# Integer numerals, read and written

* `IsDigits` and `IsNumeral` say what a numeral is, and `isNatural` and `isInteger` decide it.
* The numeral of an integer is read as that integer.
* The value of a numeral has no more digits than the numeral, so that a value that was read can be
  written.
-/

namespace Corpus.Numeral

/-! ### Grammar -/

/-- **Digits.** At least one character, and only decimal digits. -/
def IsDigits (text : Text) : Prop := text ≠ [] ∧ ∀ c ∈ text, c.isDigit = true

/-- **Numeral.** Digits, with a minus sign before them or without. -/
def IsNumeral (text : Text) : Prop :=
  ∃ digits, IsDigits digits ∧ (text = digits ∨ text = '-' :: digits)

theorem isNatural_iff {text : Text} : isNatural text = true ↔ IsDigits text := by
  simp [isNatural, IsDigits]

theorem isDigit_of_mem_ofNat {n : Nat} {c : Char} (h : c ∈ ofNat n) : c.isDigit = true :=
  Nat.isDigit_of_mem_toDigits (by decide) (by decide) h

theorem isDigits_ofNat (n : Nat) : IsDigits (ofNat n) :=
  ⟨Nat.toDigits_ne_nil, fun _ => isDigit_of_mem_ofNat⟩

/-- Digits do not start with a minus sign. -/
theorem head?_ne_hyphen {text : Text} (h : isNatural text = true) : text.head? ≠ some '-' := by
  intro hhead
  obtain ⟨-, hdigits⟩ := isNatural_iff.mp h
  have hhyphen := hdigits '-' (List.mem_of_mem_head? hhead)
  exact absurd hhyphen (by decide)

/-- A text without a minus sign is its digits. -/
theorem digits_eq_self {text : Text} (h : text.head? ≠ some '-') : digits text = text := by
  unfold digits
  split
  · exact absurd rfl h
  · rfl

/-- The value of a text without a minus sign. -/
theorem value_eq_ofDigitChars {text : Text} (h : text.head? ≠ some '-') :
    value text = (Nat.ofDigitChars 10 text 0 : Int) := by
  unfold value
  split
  · exact absurd rfl h
  · rfl

theorem IsDigits.digits_eq {text : Text} (h : IsDigits text) : digits text = text :=
  digits_eq_self (head?_ne_hyphen (isNatural_iff.mpr h))

theorem IsDigits.value_eq {text : Text} (h : IsDigits text) :
    value text = (Nat.ofDigitChars 10 text 0 : Int) :=
  value_eq_ofDigitChars (head?_ne_hyphen (isNatural_iff.mpr h))

/-- The magnitude of a value is the value of the digits. -/
theorem natAbs_value (text : Text) :
    (value text).natAbs = Nat.ofDigitChars 10 (digits text) 0 := by
  unfold value digits
  split
  · rw [Int.natAbs_neg, Int.natAbs_natCast]
  · rw [Int.natAbs_natCast]

/-- Leading zeros do not change a value. -/
theorem ofDigitChars_zeros_append (count : Nat) (text : Text) :
    Nat.ofDigitChars 10 (List.replicate count '0' ++ text) 0 = Nat.ofDigitChars 10 text 0 := by
  induction count with
  | zero => rfl
  | succ count ih =>
    rw [List.replicate_succ, List.cons_append, Nat.ofDigitChars_cons]
    exact ih

theorem IsDigits.zeros_append {text : Text} (h : IsDigits text) (count : Nat) :
    IsDigits (List.replicate count '0' ++ text) := by
  refine ⟨List.append_ne_nil_of_right_ne_nil _ h.1, List.forall_mem_append.mpr ⟨?_, h.2⟩⟩
  intro c hc
  rw [List.eq_of_mem_replicate hc]
  rfl

/-- **The class of integer numerals.** -/
theorem isInteger_iff {text : Text} : isInteger text = true ↔ IsNumeral text := by
  constructor
  · intro h
    have hdigits := isNatural_iff.mp h
    unfold digits at hdigits
    split at hdigits
    · exact ⟨_, hdigits, .inr rfl⟩
    · exact ⟨_, hdigits, .inl rfl⟩
  · rintro ⟨run, hrun, rfl | rfl⟩
    · rw [isInteger, hrun.digits_eq]
      exact isNatural_iff.mpr hrun
    · exact isNatural_iff.mpr hrun

/-- A numeral of a positive value has no minus sign. -/
theorem IsNumeral.isDigits {text : Text} (h : IsNumeral text) (hpos : 0 < value text) :
    IsDigits text := by
  obtain ⟨run, hrun, rfl | rfl⟩ := h
  · exact hrun
  · simp only [value] at hpos
    omega

instance (text : Text) : Decidable (IsNumeral text) := decidable_of_iff _ isInteger_iff

/-! ### Reading what was written -/

/-- The numeral of an integer has the digits of its magnitude. -/
theorem digits_ofInt (n : Int) : digits (ofInt n) = ofNat n.natAbs := by
  cases n with
  | ofNat n => exact (isDigits_ofNat n).digits_eq
  | negSucc n => rfl

theorem isInteger_ofInt (n : Int) : isInteger (ofInt n) = true := by
  rw [isInteger, digits_ofInt]
  exact isNatural_iff.mpr (isDigits_ofNat _)

theorem value_ofInt (n : Int) : value (ofInt n) = n := by
  cases n with
  | ofNat n =>
    rw [ofInt, (isDigits_ofNat n).value_eq, ofNat, Nat.ofDigitChars_ten_toDigits]
    rfl
  | negSucc n =>
    simp only [ofInt, value, ofNat, Nat.ofDigitChars_ten_toDigits]
    omega

theorem ofInt_ne_nil (n : Int) : ofInt n ≠ [] := by
  cases n with
  | ofNat n => exact Nat.toDigits_ne_nil
  | negSucc n => exact List.cons_ne_nil _ _

/-- **Reading what was written.** -/
theorem read_ofInt {n : Int} (h : (ofNat n.natAbs).length ≤ digitLimit) :
    read (ofInt n) = .ok n := by
  rw [read, digits_ofInt, if_pos h, value_ofInt]

/-- Only the numeral is written. -/
theorem eq_ofInt_of_write {n : Int} {text : Text} (h : write n = .ok text) : text = ofInt n := by
  rw [write] at h
  split at h
  · exact (Except.ok.inj h).symm
  · cases h

/-- An integer numeral holds digits and minus signs only. -/
theorem isDigit_or_eq_of_mem_ofInt {n : Int} {c : Char} (h : c ∈ ofInt n) :
    c.isDigit = true ∨ c = '-' := by
  cases n with
  | ofNat n => exact .inl (isDigit_of_mem_ofNat h)
  | negSucc n =>
    rcases List.mem_cons.mp h with rfl | h
    · exact .inr rfl
    · exact .inl (isDigit_of_mem_ofNat h)

/-! ### The number of digits -/

/-- The digits of a numeral are all the digits in it. -/
theorem length_digits_eq_countP {text : Text} (h : IsNumeral text) :
    (digits text).length = text.countP Char.isDigit := by
  obtain ⟨run, hrun, htext⟩ := h
  have hcount : run.countP Char.isDigit = run.length := List.countP_eq_length.mpr hrun.2
  rcases htext with rfl | rfl
  · rw [hrun.digits_eq, hcount]
  · rw [List.countP_cons_of_neg (by decide), hcount]
    rfl

/-- More digits do not make a value less. -/
theorem le_ofDigitChars (text : Text) (start : Nat) : start ≤ Nat.ofDigitChars 10 text start := by
  induction text generalizing start with
  | nil => exact Nat.le_refl start
  | cons c text ih =>
    rw [Nat.ofDigitChars_cons]
    exact Nat.le_trans (by omega) (ih _)

/-- A numeral of digits has a value below the next power of ten. -/
theorem ofDigitChars_lt {text : Text} (h : ∀ c ∈ text, c.isDigit = true) (start : Nat) :
    Nat.ofDigitChars 10 text start < (start + 1) * 10 ^ text.length := by
  induction text generalizing start with
  | nil => simp
  | cons c text ih =>
    have hc : c.toNat ≤ 57 := (Char.isDigit_iff_toNat.mp (h c (List.mem_cons_self ..))).2
    have hrest := ih (fun d hd => h d (List.mem_cons_of_mem _ hd)) (10 * start + (c.toNat - 48))
    have hstep : 10 * start + (c.toNat - 48) + 1 ≤ (start + 1) * 10 := by omega
    calc Nat.ofDigitChars 10 (c :: text) start
        = Nat.ofDigitChars 10 text (10 * start + (c.toNat - 48)) := Nat.ofDigitChars_cons
      _ < (10 * start + (c.toNat - 48) + 1) * 10 ^ text.length := hrest
      _ ≤ (start + 1) * 10 * 10 ^ text.length := Nat.mul_le_mul_right _ hstep
      _ = (start + 1) * 10 ^ (c :: text).length := by
        rw [List.length_cons, Nat.pow_succ, Nat.mul_assoc, Nat.mul_comm 10]

/-- A number has at most `k` digits when it is below the `k`-th power of ten. -/
theorem length_ofNat_le_iff {n k : Nat} (h : 0 < k) : (ofNat n).length ≤ k ↔ n < 10 ^ k :=
  Nat.length_toDigits_le_iff (by decide) h

theorem lt_pow_length_ofNat (n : Nat) : n < 10 ^ (ofNat n).length :=
  (length_ofNat_le_iff Nat.length_toDigits_pos).mp (Nat.le_refl _)

/-- A value has no more digits than its numeral. -/
theorem length_ofNat_natAbs_value_le {text : Text} (h : isInteger text = true) :
    (ofNat (value text).natAbs).length ≤ (digits text).length := by
  obtain ⟨hne, hdigits⟩ := isNatural_iff.mp h
  rw [length_ofNat_le_iff (List.length_pos_iff.mpr hne), natAbs_value]
  simpa using ofDigitChars_lt hdigits 0

/-- A smaller number has no more digits. -/
theorem length_ofNat_le {m n : Nat} (h : m ≤ n) : (ofNat m).length ≤ (ofNat n).length :=
  (length_ofNat_le_iff Nat.length_toDigits_pos).mpr (Nat.lt_of_le_of_lt h (lt_pow_length_ofNat n))

/-- The next number has at most one more digit. -/
theorem length_ofNat_succ_le (n : Nat) : (ofNat (n + 1)).length ≤ (ofNat n).length + 1 := by
  rw [length_ofNat_le_iff (Nat.succ_pos _), Nat.pow_succ]
  have hn := lt_pow_length_ofNat n
  omega

end Corpus.Numeral
