import Corpus.Proofs.Json.Tokens

/-!
# Reading numbers

A number is read in its parts: whole digits, then perhaps a fraction, then perhaps an exponent.

* A part that is there is taken whole. A part may be missing, which only counts where none can be found
  (`Finds`).
* The value, or the refusal of an integer for its length, is that of the parts (`numberOfParts`).
* So a number is read with its value up to a place where no number goes on (`EndsNumber`), and an
  integer is refused for its length only where it ends there.
-/

namespace Corpus.Json

variable {text rest digits : Text} {limit : Option Nat} {negative : Bool} {value : Json}

/-! ### Digits -/

theorem digitRun_append (hdigits : ∀ c ∈ digits, c.isDigit = true) (hrest : NoDigit rest) :
    digitRun (digits ++ rest) = (digits, rest) := by
  rw [digitRun, List.span_eq_takeWhile_dropWhile, List.takeWhile_append_of_pos hdigits,
    List.dropWhile_append_of_pos hdigits]
  cases rest with
  | nil => simp
  | cons c rest =>
    have hc : ¬ c.isDigit = true := by simp [hrest c rfl]
    rw [List.takeWhile_cons_of_neg hc, List.dropWhile_cons_of_neg hc, List.append_nil]

/-- A run of digits is all the digits at the front. -/
theorem exists_digitRun (text : Text) :
    ∃ digits rest, digitRun text = (digits, rest) ∧ text = digits ++ rest ∧
      (∀ c ∈ digits, c.isDigit = true) ∧ NoDigit rest := by
  refine ⟨text.takeWhile Char.isDigit, text.dropWhile Char.isDigit,
    List.span_eq_takeWhile_dropWhile _ _, List.takeWhile_append_dropWhile.symm,
    fun _ => List.mem_takeWhile_imp, fun c hc => ?_⟩
  have hnot := List.head?_dropWhile_not Char.isDigit text
  rw [Option.mem_def.mp hc] at hnot
  simpa using hnot

/-- Digits are none of a text that starts with no digit. -/
theorem NoDigit.not_isPrefix (h : NoDigit rest) (hdigits : Numeral.IsDigits digits) :
    ¬ digits <+: rest := by
  rintro ⟨tail, rfl⟩
  obtain ⟨d, digits, rfl⟩ := List.exists_cons_of_ne_nil hdigits.1
  exact Bool.false_ne_true ((h d rfl).symm.trans (hdigits.2 d List.mem_cons_self))

/-- Digits start with a digit. -/
theorem append_ne_of_isDigits {c : Char} {tail : Text} (hdigits : Numeral.IsDigits digits)
    (hc : c.isDigit = false) : digits ++ rest ≠ c :: tail := by
  obtain ⟨d, digits, rfl⟩ := List.exists_cons_of_ne_nil hdigits.1
  intro h
  obtain rfl := (List.cons.inj h).1
  exact Bool.false_ne_true (hc.symm.trans (hdigits.2 d List.mem_cons_self))

/-- **Whole digits** are read up to where they end. -/
theorem integerPart?_append (h : IsWhole digits) (hrest : NoDigit rest) :
    integerPart? (digits ++ rest) = some (digits, rest) := by
  obtain ⟨⟨hne, hdigits⟩, hzero⟩ := h
  obtain ⟨d, tail, rfl⟩ := List.exists_cons_of_ne_nil hne
  by_cases hd : d = '0'
  · subst hd
    obtain rfl := (List.cons.inj (hzero rfl)).2
    rfl
  · rw [List.cons_append, integerPart?, ← List.cons_append, digitRun_append hdigits hrest]
    · rfl
    · exact fun _ h => hd (List.cons.inj h).1

/-- What is read as whole digits. Only a zero may have a digit behind it. -/
theorem exists_whole {whole : Text} (h : integerPart? text = some (whole, rest)) :
    text = whole ++ rest ∧ IsWhole whole ∧ (1 < whole.length → NoDigit rest) := by
  unfold integerPart? at h
  split at h
  · cases h
    exact ⟨rfl, ⟨⟨List.cons_ne_nil _ _, List.forall_mem_singleton.mpr rfl⟩, fun _ => rfl⟩,
      fun h => absurd h (by decide)⟩
  · rename_i hzero
    obtain ⟨digits, tail, hrun, rfl, hdigits, htail⟩ := exists_digitRun text
    simp only [hrun] at h
    split at h
    · cases h
    · rename_i hne
      cases h
      have hne : whole ≠ [] := by simpa using hne
      refine ⟨rfl, ⟨⟨hne, hdigits⟩, fun hhead => ?_⟩, fun _ => htail⟩
      obtain ⟨d, tail, rfl⟩ := List.exists_cons_of_ne_nil hne
      obtain rfl := Option.some.inj hhead
      exact absurd rfl (hzero _)

/-! ### Fractions -/

/-- **What a reader of a part** that may be missing has to find: the part up to where it ends, or that
there is none. -/
def Finds {α : Type} (Part : Text → Option α → Prop) (Missing : Text → Prop) (text : Text)
    (answer : Option α × Text) : Prop :=
  ∃ part, text = part ++ answer.2 ∧ Part part answer.1 ∧ (answer.1 = none → Missing answer.2) ∧
    (answer.1 ≠ none → NoDigit answer.2)

theorem finds_none {α : Type} {Part : Text → Option α → Prop} {Missing : Text → Prop}
    (hpart : Part [] none) (h : Missing text) : Finds Part Missing text (none, text) :=
  ⟨[], rfl, hpart, fun _ => h, fun h => absurd rfl h⟩

/-- **Fractions** are found. -/
theorem finds_fractionPart (text : Text) : Finds Fraction NoFraction text (fractionPart text) := by
  unfold fractionPart
  split
  · rename_i tail
    obtain ⟨digits, rest, hrun, rfl, hdigits, hrest⟩ := exists_digitRun tail
    simp only [hrun]
    split
    · rename_i hempty
      obtain rfl : digits = [] := by simpa using hempty
      exact finds_none .none fun found hfound hprefix =>
        hrest.not_isPrefix hfound (List.cons_prefix_cons.mp hprefix).2
    · rename_i hne
      exact ⟨_, rfl, .point ⟨by simpa using hne, hdigits⟩, nofun, fun _ => hrest⟩
  · rename_i hpoint
    refine finds_none .none fun digits _ hprefix => ?_
    obtain ⟨tail, htail⟩ := hprefix
    exact hpoint _ htail.symm

/-- **A fraction** is read up to where it ends. -/
theorem fractionPart_append {fraction : Text} {found : Option Text} (h : Fraction fraction found)
    (hrest : NoDigit rest) (hnone : NoFraction rest) :
    fractionPart (fraction ++ rest) = (found, rest) := by
  cases h with
  | none =>
    obtain ⟨fraction, htext, hfraction, -⟩ := finds_fractionPart rest
    cases hfound : fractionPart rest with
    | mk found tail =>
      rw [hfound] at htext hfraction
      cases hfraction with
      | none => exact hfound.trans (congrArg _ htext.symm)
      | point hdigits => exact absurd ⟨tail, htext.symm⟩ (hnone _ hdigits)
  | point h =>
    rw [List.cons_append, fractionPart, digitRun_append h.2 hrest]
    simp [h.1]

/-! ### Exponents -/

/-- A text starts with no exponent when no digit follows the letter, nor a sign after the letter. -/
theorem noExponent_of_forall
    (h : ∀ e tail, text = e :: tail → e = 'e' ∨ e = 'E' →
      NoDigit tail ∧ ∀ sign unsigned, tail = sign :: unsigned → sign = '+' ∨ sign = '-' →
        NoDigit unsigned) : NoExponent text := by
  rintro exponent power hexponent ⟨rest, rfl⟩
  cases hexponent with
  | plain he hdigits => exact (h _ _ rfl he).1.not_isPrefix hdigits (List.prefix_append _ _)
  | plus he hdigits =>
    exact ((h _ _ rfl he).2 _ _ rfl (.inl rfl)).not_isPrefix hdigits (List.prefix_append _ _)
  | minus he hdigits =>
    exact ((h _ _ rfl he).2 _ _ rfl (.inr rfl)).not_isPrefix hdigits (List.prefix_append _ _)

/-- The reader of the digits after the letter and the sign. -/
theorem finds_signed {e : Char} {unsigned : Text} (sign : Text) (value : Nat → Int)
    (hnone : NoDigit unsigned → NoExponent (e :: (sign ++ unsigned)))
    (hsome : ∀ digits, Numeral.IsDigits digits →
      Exponent (e :: (sign ++ digits)) (some (value (Nat.ofDigitChars 10 digits 0)))) :
    Finds Exponent NoExponent (e :: (sign ++ unsigned))
      (if (digitRun unsigned).1.isEmpty then (none, e :: (sign ++ unsigned))
        else (some (value (Nat.ofDigitChars 10 (digitRun unsigned).1 0)), (digitRun unsigned).2)) := by
  obtain ⟨digits, rest, hrun, rfl, hdigits, hrest⟩ := exists_digitRun unsigned
  rw [hrun]
  split
  · rename_i hempty
    obtain rfl : digits = [] := by simpa using hempty
    exact finds_none .none (hnone hrest)
  · rename_i hne
    exact ⟨e :: (sign ++ digits), by simp, hsome digits ⟨by simpa using hne, hdigits⟩, nofun,
      fun _ => hrest⟩

/-- **Exponents** are found. -/
theorem finds_exponentPart (text : Text) : Finds Exponent NoExponent text (exponentPart text) := by
  unfold exponentPart
  split
  · rename_i e tail
    simp only
    split
    · rename_i he
      split
      · rename_i unsigned
        refine finds_signed ['-'] (fun n => -(n : Int)) (fun hdigit => ?_)
          fun digits => .minus he
        refine noExponent_of_forall fun _ tail htail _ => ?_
        obtain rfl := (List.cons.inj htail).2
        exact ⟨by rintro _ ⟨⟩; rfl, fun _ _ hsign _ => (List.cons.inj hsign).2 ▸ hdigit⟩
      · rename_i unsigned
        refine finds_signed ['+'] (fun n => (n : Int)) (fun hdigit => ?_)
          fun digits => .plus he
        refine noExponent_of_forall fun _ tail htail _ => ?_
        obtain rfl := (List.cons.inj htail).2
        exact ⟨by rintro _ ⟨⟩; rfl, fun _ _ hsign _ => (List.cons.inj hsign).2 ▸ hdigit⟩
      · rename_i hminus hplus
        refine finds_signed [] (fun n => (n : Int)) (fun hdigit => ?_) fun digits => .plain he
        refine noExponent_of_forall fun _ _ htail _ => ?_
        obtain rfl := (List.cons.inj htail).2
        refine ⟨hdigit, fun sign unsigned hsign hsigned => ?_⟩
        rcases hsigned with rfl | rfl
        · exact absurd hsign (hplus _)
        · exact absurd hsign (hminus _)
    · rename_i he
      exact finds_none .none (noExponent_of_forall fun _ _ htail hletter =>
        absurd ((List.cons.inj htail).1 ▸ hletter) he)
  · exact finds_none .none (noExponent_of_forall nofun)

/-- **An exponent** is read up to where it ends. -/
theorem exponentPart_append {exponent : Text} {found : Option Int} (h : Exponent exponent found)
    (hrest : NoDigit rest) (hnone : found = none → NoExponent rest) :
    exponentPart (exponent ++ rest) = (found, rest) := by
  have hunsigned {digits : Text} (hdigits : Numeral.IsDigits digits) :
      digitRun (digits ++ rest) = (digits, rest) ∧ digits.isEmpty = false :=
    ⟨digitRun_append hdigits.2 hrest, by simpa using hdigits.1⟩
  cases h with
  | none =>
    obtain ⟨exponent, htext, hexponent, -⟩ := finds_exponentPart rest
    cases hfound : exponentPart rest with
    | mk found tail =>
      rw [hfound] at htext hexponent
      cases found with
      | none =>
        cases hexponent
        exact hfound.trans (congrArg _ htext.symm)
      | some power => exact absurd ⟨tail, htext.symm⟩ (hnone rfl exponent power hexponent)
  | plain he hdigits =>
    obtain ⟨hrun, hne⟩ := hunsigned hdigits
    rw [List.cons_append, exponentPart]
    · simp [he, hrun, hne]
    · exact fun _ => append_ne_of_isDigits hdigits rfl
    · exact fun _ => append_ne_of_isDigits hdigits rfl
  | plus he hdigits =>
    obtain ⟨hrun, hne⟩ := hunsigned hdigits
    simp [exponentPart, he, hrun, hne]
  | minus he hdigits =>
    obtain ⟨hrun, hne⟩ := hunsigned hdigits
    simp [exponentPart, he, hrun, hne]

/-- An exponent is nothing or starts with its letter. -/
theorem Exponent.eq_nil_or {exponent : Text} {found : Option Int} (h : Exponent exponent found) :
    exponent = [] ∨ ∃ e tail, (e = 'e' ∨ e = 'E') ∧ exponent = e :: tail := by
  cases h with
  | none => exact .inl rfl
  | plain he => exact .inr ⟨_, _, he, rfl⟩
  | plus he => exact .inr ⟨_, _, he, rfl⟩
  | minus he => exact .inr ⟨_, _, he, rfl⟩

theorem Exponent.noDigit_append {exponent : Text} {found : Option Int} (h : Exponent exponent found)
    (hrest : NoDigit rest) : NoDigit (exponent ++ rest) := by
  rcases h.eq_nil_or with rfl | ⟨e, tail, rfl | rfl, rfl⟩
  · exact hrest
  · exact fun c hc => Option.some.inj hc ▸ rfl
  · exact fun c hc => Option.some.inj hc ▸ rfl

theorem Exponent.noFraction_append {exponent : Text} {found : Option Int}
    (h : Exponent exponent found) (hrest : NoFraction rest) : NoFraction (exponent ++ rest) := by
  rcases h.eq_nil_or with rfl | ⟨e, tail, rfl | rfl, rfl⟩
  · exact hrest
  · exact fun _ _ hprefix => absurd (List.cons_prefix_cons.mp hprefix).1 (by decide)
  · exact fun _ _ hprefix => absurd (List.cons_prefix_cons.mp hprefix).1 (by decide)

theorem Fraction.noDigit_append {fraction : Text} {found : Option Text} (h : Fraction fraction found)
    (hrest : NoDigit rest) : NoDigit (fraction ++ rest) := by
  cases h with
  | none => exact hrest
  | point => exact fun c hc => Option.some.inj hc ▸ rfl

/-! ### Numbers -/

/-- The value of the parts of a number, or the length of an integer that is too long. -/
def numberOfParts (limit : Option Nat) (negative : Bool) (whole : Text) :
    Option Text → Option Int → Except Fault Json
  | none, none =>
    if limit.any fun n => n < whole.length then .error (.tooLong whole.length)
    else
      .ok (.integer (if negative then -(Nat.ofDigitChars 10 whole 0 : Nat)
        else (Nat.ofDigitChars 10 whole 0 : Nat)))
  | digits, power =>
    .ok (.number (.ofDecimal negative (Nat.ofDigitChars 10 (whole ++ digits.getD []) 0)
      (power.getD 0 - (digits.getD []).length)))

theorem readNumber_eq {whole afterWhole afterFraction : Text} {digits : Option Text}
    {power : Option Int} (hwhole : integerPart? text = some (whole, afterWhole))
    (hfraction : fractionPart afterWhole = (digits, afterFraction))
    (hexponent : exponentPart afterFraction = (power, rest)) :
    readNumber limit negative text =
      (numberOfParts limit negative whole digits power).map fun value => (value, rest) := by
  simp only [readNumber, hwhole, hfraction, hexponent]
  cases digits <;> cases power
  · cases hlong : limit.any fun n => decide (n < whole.length) <;>
      simp [numberOfParts, hlong, Except.map]
  · rfl
  · rfl
  · rfl

/-- **The parts of a number** are read up to where it ends. -/
theorem readNumber_append {whole fraction exponent : Text} {digits : Option Text}
    {power : Option Int} (hwhole : IsWhole whole) (hfraction : Fraction fraction digits)
    (hexponent : Exponent exponent power) (hrest : EndsNumber rest) :
    readNumber limit negative (whole ++ (fraction ++ (exponent ++ rest))) =
      (numberOfParts limit negative whole digits power).map fun value => (value, rest) :=
  have hdigit : NoDigit (exponent ++ rest) := hexponent.noDigit_append hrest.digit
  readNumber_eq (integerPart?_append hwhole (hfraction.noDigit_append hdigit))
    (fractionPart_append hfraction hdigit (hexponent.noFraction_append hrest.fraction))
    (exponentPart_append hexponent hrest.digit fun _ => hrest.exponent)

/-- **What is read as a number** has these parts, or there are no digits. -/
theorem exists_parts (h : readNumber limit negative text ≠ .error .malformed) :
    ∃ whole fraction exponent rest digits power, IsWhole whole ∧ Fraction fraction digits ∧
      Exponent exponent power ∧ text = whole ++ (fraction ++ (exponent ++ rest)) ∧
      (digits = none → power = none → 1 < whole.length → EndsNumber rest) ∧
      readNumber limit negative text =
        (numberOfParts limit negative whole digits power).map fun value => (value, rest) := by
  cases hwhole : integerPart? text with
  | none =>
    refine absurd ?_ h
    simp only [readNumber, hwhole]
  | some parts =>
    obtain ⟨whole, afterWhole⟩ := parts
    obtain ⟨rfl, hdigits, hend⟩ := exists_whole hwhole
    cases hfraction : fractionPart afterWhole with
    | mk digits afterFraction =>
      cases hexponent : exponentPart afterFraction with
      | mk power rest =>
        obtain ⟨fraction, hfractionText, hfractionPart, hnoFraction, -⟩ := finds_fractionPart afterWhole
        obtain ⟨exponent, hexponentText, hexponentPart, hnoExponent, -⟩ :=
          finds_exponentPart afterFraction
        rw [hfraction] at hfractionText hfractionPart hnoFraction
        rw [hexponent] at hexponentText hexponentPart hnoExponent
        refine ⟨whole, fraction, exponent, rest, digits, power, hdigits, hfractionPart, hexponentPart,
          by rw [hfractionText, hexponentText], ?_, readNumber_eq hwhole hfraction hexponent⟩
        rintro rfl rfl hlength
        cases hfractionPart
        cases hexponentPart
        obtain rfl : afterWhole = afterFraction := hfractionText
        obtain rfl : afterWhole = rest := hexponentText
        exact ⟨hend hlength, hnoFraction rfl, hnoExponent rfl⟩

theorem numberOfParts_of_decimal {whole : Text} {digits : Option Text} {power : Option Int}
    (h : digits ≠ none ∨ power ≠ none) :
    numberOfParts limit negative whole digits power =
      .ok (.number (.ofDecimal negative (Nat.ofDigitChars 10 (whole ++ digits.getD []) 0)
        (power.getD 0 - (digits.getD []).length))) := by
  cases digits with
  | some digits => rfl
  | none =>
    cases power with
    | some power => rfl
    | none => exact absurd h (by simp)

/-- The limit is kept when no length is above it. -/
theorem any_lt_eq_false_iff {length : Nat} :
    (limit.any fun n => decide (n < length)) = false ↔ ∀ n ∈ limit, length ≤ n := by
  cases limit <;> simp

/-- **Numbers** are read with their values. -/
theorem readNumber_append_number (h : Number limit negative text value) (hrest : EndsNumber rest) :
    readNumber limit negative (text ++ rest) = .ok (value, rest) := by
  cases h with
  | integer hwhole hlimit =>
    have hread : readNumber limit negative _ = _ := readNumber_append hwhole .none .none hrest
    rw [numberOfParts, any_lt_eq_false_iff.mpr hlimit] at hread
    exact hread
  | decimal hwhole hfraction hexponent hdecimal =>
    rw [List.append_assoc, List.append_assoc,
      readNumber_append hwhole hfraction hexponent hrest, numberOfParts_of_decimal hdecimal]
    rfl

/-- **What is read as a number** is one. -/
theorem exists_number (h : readNumber limit negative text = .ok (value, rest)) :
    ∃ body, text = body ++ rest ∧ Number limit negative body value := by
  obtain ⟨whole, fraction, exponent, tail, digits, power, hwhole, hfraction, hexponent, rfl, -, hread⟩ :=
    exists_parts (by rw [h]; nofun)
  obtain ⟨found, hfound, hparts⟩ := map_eq_ok_iff.mp (hread.symm.trans h)
  cases hparts
  refine ⟨whole ++ (fraction ++ exponent), by simp, ?_⟩
  by_cases hdecimal : digits ≠ none ∨ power ≠ none
  · rw [numberOfParts_of_decimal hdecimal] at hfound
    obtain rfl := Except.ok.inj hfound
    exact .decimal hwhole hfraction hexponent hdecimal
  · obtain ⟨hdigits, hpower⟩ := not_or.mp hdecimal
    obtain rfl := Decidable.not_not.mp hdigits
    obtain rfl := Decidable.not_not.mp hpower
    cases hfraction
    cases hexponent
    rw [numberOfParts] at hfound
    split at hfound
    · cases hfound
    · rename_i hlong
      obtain rfl := Except.ok.inj hfound
      rw [List.append_nil, List.append_nil]
      exact .integer hwhole (any_lt_eq_false_iff.mp (Bool.not_eq_true _ ▸ hlong))

/-- **An integer that is too long** is refused for its length. -/
theorem readNumber_append_tooLong {n : Nat} (hwhole : IsWhole digits) (hlong : n < digits.length)
    (hrest : EndsNumber rest) :
    readNumber (some n) negative (digits ++ rest) = .error (.tooLong digits.length) := by
  have hread : readNumber (some n) negative _ = _ := readNumber_append hwhole .none .none hrest
  rw [numberOfParts, if_pos (by simpa using hlong)] at hread
  exact hread

/-- **A number is refused** for its form, or for the length of an integer. -/
theorem exists_long {n : Nat} {fault : Fault} (hn : 0 < n) (hfault : fault ≠ .malformed)
    (h : readNumber (some n) negative text = .error fault) :
    ∃ digits rest, text = digits ++ rest ∧ IsWhole digits ∧ n < digits.length ∧ EndsNumber rest ∧
      fault = .tooLong digits.length := by
  obtain ⟨whole, fraction, exponent, tail, digits, power, hwhole, hfraction, hexponent, rfl, hend,
    hread⟩ := exists_parts fun hmalformed => hfault (Except.error.inj (h.symm.trans hmalformed))
  have hfound := map_eq_error_iff.mp (hread.symm.trans h)
  by_cases hdecimal : digits ≠ none ∨ power ≠ none
  · rw [numberOfParts_of_decimal hdecimal] at hfound
    cases hfound
  · obtain ⟨hdigits, hpower⟩ := not_or.mp hdecimal
    obtain rfl := Decidable.not_not.mp hdigits
    obtain rfl := Decidable.not_not.mp hpower
    cases hfraction
    cases hexponent
    rw [numberOfParts] at hfound
    split at hfound
    · rename_i hlong
      cases hfound
      have hlong : n < whole.length := by simpa using hlong
      exact ⟨whole, tail, rfl, hwhole, hlong, hend rfl rfl (by omega), rfl⟩
    · cases hfound

end Corpus.Json
