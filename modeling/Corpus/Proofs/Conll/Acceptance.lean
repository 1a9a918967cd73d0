import Corpus.Proofs.Conll.RawReading
import Mathlib.Data.Nat.Find

/-!
# The records that are read

A record is read exactly when its k-th token line is a good line for k, for every k, and its words have an
encoding. Otherwise the first bad line is blamed, and where there is none, the first word without an
encoding.

* A line is good for k when it has eight fields, its id is a numeral of the value k, and its head is
  open or a numeral.
* The same is said by four checks in an order. The first one that a bad line fails gives the reason.
* Records are raw here. A text is refused as raw text as it is refused itself (`read_eq_error_iff`), and
  all words of a text have an encoding.
* Numerals beyond the digit limit are refused for their length and are left out here.
-/

namespace Corpus

/-- A digit among raw characters. -/
def RawChar.isDigit : RawChar → Bool
  | char c => c.isDigit
  | surrogate _ => false

namespace Conll

/-! ### Good lines -/

/-- **Good line.** A token line that may be the `k`-th one of a record. -/
structure IsGood (k : Nat) (line : RawText) : Prop where
  fieldCount : 8 ≤ (rawFields line).length
  id : (rawColumn 0 line).Satisfies fun text => Numeral.IsNumeral text ∧ Numeral.value text = k
  head : rawColumn 6 line = [] ∨ rawColumn 6 line = [.char '_'] ∨
    (rawColumn 6 line).Satisfies Numeral.IsNumeral

instance (k : Nat) (line : RawText) : Decidable (IsGood k line) :=
  decidable_of_iff
    (8 ≤ (rawFields line).length ∧
      ((rawColumn 0 line).Satisfies fun text => Numeral.IsNumeral text ∧ Numeral.value text = k) ∧
      (rawColumn 6 line = [] ∨ rawColumn 6 line = [.char '_'] ∨
        (rawColumn 6 line).Satisfies Numeral.IsNumeral))
    ⟨fun h => ⟨h.1, h.2.1, h.2.2⟩, fun h => ⟨h.fieldCount, h.id, h.head⟩⟩

/-- The id and the head of a line have no more digits than a numeral that is read may have. -/
def KeepsDigitLimit (line : RawText) : Prop :=
  (rawColumn 0 line).countP RawChar.isDigit ≤ Numeral.digitLimit ∧
    (rawColumn 6 line).countP RawChar.isDigit ≤ Numeral.digitLimit

instance (line : RawText) : Decidable (KeepsDigitLimit line) :=
  inferInstanceAs (Decidable (_ ∧ _))

/-! ### Checks -/

/-- **Checks** that a token line has to pass. -/
inductive Check where
  | fieldCount
  | idSyntax
  | idValue
  | headSyntax
  deriving DecidableEq

namespace Check

/-- The order of the checks. -/
def order : List Check := [fieldCount, idSyntax, idValue, headSyntax]

/-- What a check asks of the `k`-th token line. An empty id counts as 0. -/
def Passes (k : Nat) (line : RawText) : Check → Prop
  | fieldCount => 8 ≤ (rawFields line).length
  | idSyntax => rawColumn 0 line = [] ∨ (rawColumn 0 line).Satisfies Numeral.IsNumeral
  | idValue => (rawColumn 0 line).Satisfies fun text => numberIn text = k
  | headSyntax => rawColumn 6 line = [] ∨ rawColumn 6 line = [.char '_'] ∨
    (rawColumn 6 line).Satisfies Numeral.IsNumeral

instance (k : Nat) (line : RawText) (check : Check) : Decidable (check.Passes k line) :=
  match check with
  | fieldCount => inferInstanceAs (Decidable (8 ≤ (rawFields line).length))
  | idSyntax =>
    inferInstanceAs (Decidable
      (rawColumn 0 line = [] ∨ (rawColumn 0 line).Satisfies Numeral.IsNumeral))
  | idValue => inferInstanceAs (Decidable ((rawColumn 0 line).Satisfies fun text => numberIn text = k))
  | headSyntax =>
    inferInstanceAs (Decidable
      (rawColumn 6 line = [] ∨ rawColumn 6 line = [.char '_'] ∨
        (rawColumn 6 line).Satisfies Numeral.IsNumeral))

/-- The reason that a failed check gives. -/
def reason (k : Nat) (line : RawText) : Check → Reason
  | fieldCount => .tooFewFields
  | idSyntax => .notInteger .tokenId (rawColumn 0 line)
  | idValue => .unexpectedId k (rawColumn 0 line)
  | headSyntax => .notInteger .head (rawColumn 6 line)

end Check

/-- The first check that the `k`-th token line fails. -/
def failedCheck? (k : Nat) (line : RawText) : Option Check :=
  Check.order.find? fun check => ¬ check.Passes k line

/-- A line passes all checks when no check is the first to fail. -/
theorem failedCheck?_eq_none_iff {k : Nat} {line : RawText} :
    failedCheck? k line = none ↔ ∀ check ∈ Check.order, check.Passes k line := by
  simp only [failedCheck?, List.find?_eq_none, decide_eq_true_eq, Decidable.not_not]

/-- A numeral is not empty. -/
theorem ne_nil_of_isNumeral {text : Text} (h : Numeral.IsNumeral text) : text ≠ [] := by
  rintro rfl
  obtain ⟨run, hrun, hid⟩ := h
  rcases hid with rfl | hid
  · exact hrun.1 rfl
  · cases hid

/-- **Good lines pass the checks.** -/
theorem isGood_iff_failedCheck?_eq_none {k : Nat} {line : RawText} (hk : 0 < k) :
    IsGood k line ↔ failedCheck? k line = none := by
  simp only [failedCheck?_eq_none_iff, Check.order, List.mem_cons, List.not_mem_nil, or_false,
    forall_eq_or_imp, forall_eq, Check.Passes]
  constructor
  · intro h
    obtain ⟨text, hid, hnumeral, hvalue⟩ := h.id
    have hnumber : numberIn text = k := by
      rw [numberIn, if_neg (ne_nil_of_isNumeral hnumeral), hvalue]
    exact ⟨h.fieldCount, .inr ⟨text, hid, hnumeral⟩, ⟨text, hid, hnumber⟩, h.head⟩
  · rintro ⟨hcount, hid, ⟨text, htext, hvalue⟩, hhead⟩
    -- An empty id would count as 0, which is never expected.
    have hne : text ≠ [] := by
      rintro rfl
      rw [numberIn, if_pos rfl] at hvalue
      omega
    rw [htext, RawText.satisfies_ofText, RawText.ofText_eq_nil_iff] at hid
    rw [numberIn, if_neg hne] at hvalue
    exact ⟨hcount, ⟨text, htext, hid.resolve_left hne, hvalue⟩, hhead⟩

/-! ### Judging a line -/

/-- Texts have the digits that they have as raw text. -/
theorem countP_ofText (text : Text) :
    (RawText.ofText text).countP RawChar.isDigit = text.countP Char.isDigit := by
  rw [RawText.ofText, List.countP_map]
  rfl

/-- Within the digit limit an empty field or a numeral is read. -/
theorem satisfies_isReadable_iff {value : RawText}
    (h : value.countP RawChar.isDigit ≤ Numeral.digitLimit) :
    value.Satisfies IsReadable ↔ value = [] ∨ value.Satisfies Numeral.IsNumeral := by
  constructor
  · rintro ⟨text, rfl, rfl | ⟨hnumeral, -⟩⟩
    · exact .inl rfl
    · exact .inr ⟨text, rfl, hnumeral⟩
  · rintro (rfl | ⟨text, rfl, hnumeral⟩)
    · exact ⟨[], rfl, .inl rfl⟩
    · rw [countP_ofText, ← Numeral.length_digits_eq_countP hnumeral] at h
      exact ⟨text, rfl, .inr ⟨hnumeral, h⟩⟩

/-- A readable field is read as some number. -/
theorem exists_readRawNumber {field : NumberField} {value : RawText} (h : value.Satisfies IsReadable) :
    ∃ text : Text, value = text ∧ readRawNumber field value = .ok (numberIn text) := by
  obtain ⟨text, htext, hreadable⟩ := h
  exact ⟨text, htext, readRawNumber_eq_ok_iff.mpr ⟨text, htext, hreadable, rfl⟩⟩

/-- A field without its underscore has no more digits. -/
theorem countP_rawCleared_le (field : RawText) :
    (rawCleared field).countP RawChar.isDigit ≤ field.countP RawChar.isDigit := by
  rw [rawCleared]
  split
  · exact Nat.zero_le _
  · exact Nat.le_refl _

/-- **Judging a line.** Within the digit limit a token line is refused for the first check that it
fails, and its word is left when it fails none. -/
theorem rawWord_eq {k : Nat} {line : RawText} (hlimit : KeepsDigitLimit line) :
    rawWord k (rawFields line) =
      match failedCheck? k line with
      | some check => .error (.malformed (check.reason k line))
      | none => .ok (rawColumn 1 line) := by
  have hreadId := satisfies_isReadable_iff hlimit.1
  have hreadHead := satisfies_isReadable_iff (Nat.le_trans (countP_rawCleared_le _) hlimit.2)
  -- The checks in their order: where one fails, all before it are known to pass.
  by_cases hcount : Check.fieldCount.Passes k line
  case neg =>
    have hfailed : failedCheck? k line = some .fieldCount := by
      simp [failedCheck?, Check.order, hcount]
    rw [hfailed]
    exact rawWord_of_length_lt (Nat.not_le.mp hcount)
  rw [rawWord_of_le_length hcount]
  by_cases hid : Check.idSyntax.Passes k line
  case neg =>
    have hfailed : failedCheck? k line = some .idSyntax := by
      simp [failedCheck?, Check.order, hcount, hid]
    obtain ⟨hempty, hnumeral⟩ := not_or.mp hid
    rw [hfailed, readRawNumber_eq_error hempty hnumeral]
    rfl
  obtain ⟨text, htext, hread⟩ := exists_readRawNumber (hreadId.mpr hid)
  rw [hread]
  by_cases hvalue : Check.idValue.Passes k line
  case neg =>
    have hfailed : failedCheck? k line = some .idValue := by
      simp [failedCheck?, Check.order, hcount, hid, hvalue]
    rw [hfailed]
    exact if_pos fun heq => hvalue ⟨text, htext, heq⟩
  have hnumber : numberIn text = k := by
    have hpasses : (rawColumn 0 line).Satisfies fun text => numberIn text = k := hvalue
    rwa [htext, RawText.satisfies_ofText] at hpasses
  simp only [hnumber, ne_eq, not_true_eq_false, if_false]
  by_cases hhead : Check.headSyntax.Passes k line
  case neg =>
    have hfailed : failedCheck? k line = some .headSyntax := by
      simp [failedCheck?, Check.order, hcount, hid, hvalue, hhead]
    obtain ⟨hempty, hopen, hnumeral⟩ := not_or.mp hhead |>.imp_right not_or.mp
    have hcleared : rawCleared (rawColumn 6 line) = rawColumn 6 line := if_neg hopen
    rw [hfailed, hcleared, readRawNumber_eq_error hempty hnumeral]
    rfl
  have hpasses : failedCheck? k line = none := by
    simp [failedCheck?, Check.order, hcount, hid, hvalue, hhead]
  have hreadable : (rawCleared (rawColumn 6 line)).Satisfies IsReadable := by
    rw [hreadHead, rawCleared]
    split
    · exact .inl rfl
    · rename_i hopen
      exact hhead.imp_right fun h => h.resolve_left hopen
  obtain ⟨head, -, hreadHead⟩ := exists_readRawNumber hreadable
  rw [hpasses, hreadHead]

/-- Of a good line its word is left. -/
theorem rawWord_of_isGood {k : Nat} {line : RawText} (hk : 0 < k) (hlimit : KeepsDigitLimit line)
    (h : IsGood k line) : rawWord k (rawFields line) = .ok (rawColumn 1 line) := by
  rw [rawWord_eq hlimit, (isGood_iff_failedCheck?_eq_none hk).mp h]

/-- A bad line is refused for the first check that it fails. -/
theorem rawWord_of_not_isGood {k : Nat} {line : RawText} (hk : 0 < k) (hlimit : KeepsDigitLimit line)
    (h : ¬ IsGood k line) :
    ∃ check, failedCheck? k line = some check ∧
      rawWord k (rawFields line) = .error (.malformed (check.reason k line)) := by
  rw [isGood_iff_failedCheck?_eq_none hk] at h
  obtain ⟨check, hcheck⟩ := Option.ne_none_iff_exists'.mp h
  refine ⟨check, hcheck, ?_⟩
  rw [rawWord_eq hlimit, hcheck]

/-! ### Judging a record -/

section Lines

variable (expected : Nat) {lines : List (RawText × Nat)}

/-- The words of lines are those of the token lines, when each of these is good for its id. -/
theorem rawWords_of_isGood (hk : 0 < expected)
    (hlimit : ∀ entry ∈ rawTokenLinesOf lines, KeepsDigitLimit entry.1)
    (hgood : ∀ j entry, (rawTokenLinesOf lines)[j]? = some entry → IsGood (expected + j) entry.1) :
    rawWords expected lines = .ok ((rawTokenLinesOf lines).map fun entry => rawColumn 1 entry.1) := by
  induction lines generalizing expected with
  | nil => rfl
  | cons entry lines ih =>
    obtain ⟨line, number⟩ := entry
    by_cases hline : IsRawTokenLine line
    · rw [rawTokenLinesOf_cons hline] at hlimit hgood
      have hword := rawWord_of_isGood hk (hlimit _ (List.mem_cons_self ..)) (hgood 0 _ rfl)
      have hwords := ih (expected + 1) (Nat.succ_pos expected)
        (fun other hother => hlimit other (List.mem_cons_of_mem _ hother))
        (fun j other hother => by
          have h := hgood (j + 1) other (by simpa using hother)
          rwa [Nat.succ_add_eq_add_succ])
      rw [rawWords_cons hline, hword, hwords, rawTokenLinesOf_cons hline]
      rfl
    · rw [rawTokenLinesOf_cons_of_not hline] at hlimit hgood ⊢
      rw [rawWords_cons_of_not hline]
      exact ih expected hk hlimit hgood

/-- Lines are refused for the first token line that is bad for its id. The induction is on the
lines; a good line moves the bad one a place to the front and the expected id by one. -/
theorem rawWords_of_not_isGood (hk : 0 < expected)
    (hlimit : ∀ entry ∈ rawTokenLinesOf lines, KeepsDigitLimit entry.1) {k number : Nat}
    {line : RawText} (hbad : (rawTokenLinesOf lines)[k]? = some (line, number))
    (hnot : ¬ IsGood (expected + k) line)
    (hgood : ∀ j < k, ∀ entry, (rawTokenLinesOf lines)[j]? = some entry →
      IsGood (expected + j) entry.1) :
    ∃ check, failedCheck? (expected + k) line = some check ∧
      rawWords expected lines =
        .error (.malformed {
          reason := check.reason (expected + k) line
          line
          lineNumber := some (number : Int) }) := by
  induction lines generalizing expected k with
  | nil => simp [rawTokenLinesOf] at hbad
  | cons entry lines ih =>
    obtain ⟨first, position⟩ := entry
    by_cases hline : IsRawTokenLine first
    · rw [rawTokenLinesOf_cons hline] at hlimit hbad hgood
      have hfirst := hlimit _ (List.mem_cons_self ..)
      cases k with
      | zero =>
        obtain ⟨rfl, rfl⟩ : first = line ∧ position = number := by simpa using hbad
        obtain ⟨check, hcheck, hword⟩ := rawWord_of_not_isGood hk hfirst hnot
        refine ⟨check, hcheck, ?_⟩
        rw [rawWords_cons hline, hword]
        rfl
      | succ k =>
        have hword := rawWord_of_isGood hk hfirst (hgood 0 (Nat.succ_pos k) _ rfl)
        have hshift (j : Nat) : expected + (j + 1) = expected + 1 + j := by omega
        rw [hshift k] at hnot
        obtain ⟨check, hcheck, hwords⟩ := ih (expected + 1) (Nat.succ_pos expected)
          (fun other hother => hlimit other (List.mem_cons_of_mem _ hother))
          (by simpa using hbad) hnot
          (fun j hj other hother => by
            rw [← hshift j]
            exact hgood (j + 1) (Nat.succ_lt_succ hj) other (by simpa using hother))
        refine ⟨check, by rwa [hshift k], ?_⟩
        rw [rawWords_cons hline, hword, hwords, hshift k]
        rfl
    · rw [rawTokenLinesOf_cons_of_not hline] at hlimit hbad hgood
      rw [rawWords_cons_of_not hline]
      exact ih expected hk hlimit hbad hnot hgood

end Lines

/-! ### Encoding words -/

section Words

variable {words : List RawText}

theorem encodedWords_of_forall (h : ∀ word ∈ words, ¬ word.HoldsSurrogate) :
    ∃ texts, encodedWords words = .ok texts := by
  induction words with
  | nil => exact ⟨[], rfl⟩
  | cons word words ih =>
    obtain ⟨hword, hwords⟩ := List.forall_mem_cons.mp h
    obtain ⟨text, rfl⟩ := RawText.not_holdsSurrogate_iff.mp hword
    obtain ⟨texts, htexts⟩ := ih hwords
    exact ⟨text :: texts, by rw [encodedWords, RawText.toText_ofText, htexts]; rfl⟩

/-- **The first word without an encoding** is what words are refused for. -/
theorem encodedWords_of_first {k : Nat} {word : RawText} {fault : EncodingFault}
    (hword : words[k]? = some word) (hfault : word.HasFirstSurrogate fault)
    (hbefore : ∀ j < k, ∀ other, words[j]? = some other → ¬ other.HoldsSurrogate) :
    encodedWords words = .error (.unencodable fault) := by
  induction words generalizing k with
  | nil => cases hword
  | cons first words ih =>
    cases k with
    | zero =>
      obtain rfl := Option.some.inj hword
      rw [encodedWords, RawText.toText_eq_error_iff.mpr hfault]
    | succ k =>
      obtain ⟨text, rfl⟩ := RawText.not_holdsSurrogate_iff.mp (hbefore 0 (Nat.succ_pos k) _ rfl)
      have hrest := ih hword fun j hj => hbefore (j + 1) (Nat.succ_lt_succ hj)
      rw [encodedWords, RawText.toText_ofText, hrest]
      rfl

end Words

/-! ### The first fault -/

/-- What holds somewhere holds somewhere first. -/
theorem exists_first {p : Nat → Prop} (h : ∃ k, p k) : ∃ k, p k ∧ ∀ j < k, ¬ p j := by
  classical
  exact ⟨Nat.find h, Nat.find_spec h, fun j => Nat.find_min h⟩

section Record

variable {record : RawText}

/-- **Malformed record.** Some token line is not good for its place. -/
def IsMalformed (record : RawText) : Prop :=
  ∃ k entry, (rawTokenLines record)[k]? = some entry ∧ ¬ IsGood (k + 1) entry.1

/-- **The first bad line.** The token line with the index `k` is bad for its id and all before it
are good for theirs. -/
structure IsFirstBad (record : RawText) (k : Nat) (line : RawText) (number : Nat) : Prop where
  tokenLine : (rawTokenLines record)[k]? = some (line, number)
  bad : ¬ IsGood (k + 1) line
  good : ∀ j < k, ∀ entry, (rawTokenLines record)[j]? = some entry → IsGood (j + 1) entry.1

/-- **The first word without an encoding**, and its first lone surrogate. -/
structure IsFirstUnencodable (record : RawText) (k : Nat) (fault : EncodingFault) : Prop where
  word : ∃ entry, (rawTokenLines record)[k]? = some entry ∧
    (rawColumn 1 entry.1).HasFirstSurrogate fault
  before : ∀ j < k, ∀ entry, (rawTokenLines record)[j]? = some entry →
    ¬ (rawColumn 1 entry.1).HoldsSurrogate

/-- A malformed record has a first bad line. -/
theorem IsMalformed.exists_isFirstBad (h : IsMalformed record) :
    ∃ k line number, IsFirstBad record k line number := by
  obtain ⟨k, ⟨⟨line, number⟩, hentry, hbad⟩, hfirst⟩ := exists_first h
  exact ⟨k, line, number, hentry, hbad, fun j hj entry hentry =>
    Decidable.not_not.mp fun hbad => hfirst j hj ⟨entry, hentry, hbad⟩⟩

/-- A word without an encoding is not before the first one. -/
theorem exists_isFirstUnencodable
    (h : ∃ entry ∈ rawTokenLines record, (rawColumn 1 entry.1).HoldsSurrogate) :
    ∃ k fault, IsFirstUnencodable record k fault := by
  obtain ⟨entry, hentry, hword⟩ := h
  obtain ⟨k, hk⟩ := List.getElem?_of_mem hentry
  obtain ⟨first, ⟨entry, hentry, hword⟩, hbefore⟩ := exists_first
    (p := fun k => ∃ entry, (rawTokenLines record)[k]? = some entry ∧
      (rawColumn 1 entry.1).HoldsSurrogate) ⟨k, entry, hk, hword⟩
  obtain ⟨fault, hfault⟩ := hword.exists_first
  exact ⟨first, fault, ⟨entry, hentry, hfault⟩, fun j hj other hother hholds =>
    hbefore j hj ⟨other, hother, hholds⟩⟩

variable (hlimit : ∀ entry ∈ rawTokenLines record, KeepsDigitLimit entry.1)

include hlimit

/-- **The first bad line** is blamed. -/
theorem readRaw_of_isFirstBad {k number : Nat} {line : RawText}
    (h : IsFirstBad record k line number) :
    ∃ check, failedCheck? (k + 1) line = some check ∧
      readRaw record =
        .error (.malformed {
          reason := check.reason (k + 1) line
          line
          lineNumber := some (number : Int) }) := by
  obtain ⟨check, hcheck, hwords⟩ := rawWords_of_not_isGood 1 Nat.one_pos hlimit h.tokenLine
    (by rw [Nat.add_comm]; exact h.bad)
    (fun j hj entry hentry => by rw [Nat.add_comm]; exact h.good j hj entry hentry)
  rw [Nat.add_comm] at hcheck hwords
  exact ⟨check, hcheck, by rw [readRaw, hwords]⟩

/-- What is not malformed is refused for its words only. -/
theorem readRaw_of_not_isMalformed (h : ¬ IsMalformed record) :
    readRaw record = encodedWords ((rawTokenLines record).map fun entry => rawColumn 1 entry.1) := by
  have hwords := rawWords_of_isGood 1 Nat.one_pos hlimit fun j entry hentry => by
    rw [Nat.add_comm]
    exact Decidable.not_not.mp fun hbad => h ⟨j, entry, hentry, hbad⟩
  rw [readRaw, hwords]
  rfl

/-- **The first word without an encoding** is blamed when no line is. -/
theorem readRaw_of_isFirstUnencodable (h : ¬ IsMalformed record) {k : Nat} {fault : EncodingFault}
    (hfirst : IsFirstUnencodable record k fault) : readRaw record = .error (.unencodable fault) := by
  rw [readRaw_of_not_isMalformed hlimit h]
  obtain ⟨⟨entry, hentry, hfault⟩, hbefore⟩ := hfirst
  refine encodedWords_of_first (by rw [List.getElem?_map, hentry]; rfl) hfault fun j hj word hword => ?_
  rw [List.getElem?_map, Option.map_eq_some_iff] at hword
  obtain ⟨other, hother, rfl⟩ := hword
  exact hbefore j hj other hother

end Record

/-- **Acceptance.** A record whose ids and heads keep to the digit limit is refused exactly when some
token line is bad for its id, or some word holds a lone surrogate. In the first case it is refused with the
first such line, the number of that line and the first check that the line fails; otherwise with the first
such word. A text is refused like this by its own reading, whatever the options; its words hold no lone
surrogates. -/
theorem readRaw_eq_error_iff_exists_bad (record : RawText)
    (hlimit : ∀ entry ∈ rawTokenLines record, KeepsDigitLimit entry.1) :
    ((∃ e, readRaw record = .error e) ↔
      IsMalformed record ∨ ∃ entry ∈ rawTokenLines record, (rawColumn 1 entry.1).HoldsSurrogate) ∧
    (∀ k line number, IsFirstBad record k line number →
      ∃ check, failedCheck? (k + 1) line = some check ∧
        readRaw record =
          .error (.malformed {
            reason := check.reason (k + 1) line
            line
            lineNumber := some (number : Int) })) ∧
    (¬ IsMalformed record → ∀ k fault, IsFirstUnencodable record k fault →
      readRaw record = .error (.unencodable fault)) ∧
    ∀ text : Text, record = text →
      (∀ entry ∈ rawTokenLines record, ¬ (rawColumn 1 entry.1).HoldsSurrogate) ∧
      ∀ options docid e, read options docid text = .error e ↔ readRaw record = .error e := by
  refine ⟨⟨?_, ?_⟩, fun k line number => readRaw_of_isFirstBad hlimit,
    fun h k fault => readRaw_of_isFirstUnencodable hlimit h, ?_⟩
  · rintro ⟨e, he⟩
    by_contra hnone
    obtain ⟨hgood, hwords⟩ := not_or.mp hnone
    rw [readRaw_of_not_isMalformed hlimit hgood] at he
    have hall : ∀ word ∈ (rawTokenLines record).map fun entry => rawColumn 1 entry.1,
        ¬ word.HoldsSurrogate :=
      List.forall_mem_map.mpr fun entry hentry hword => hwords ⟨entry, hentry, hword⟩
    obtain ⟨texts, htexts⟩ := encodedWords_of_forall hall
    cases he.symm.trans htexts
  · intro hbad
    by_cases hmalformed : IsMalformed record
    · obtain ⟨k, line, number, hfirst⟩ := hmalformed.exists_isFirstBad
      obtain ⟨check, -, hread⟩ := readRaw_of_isFirstBad hlimit hfirst
      exact ⟨_, hread⟩
    · obtain ⟨k, fault, hfirst⟩ := exists_isFirstUnencodable (hbad.resolve_left hmalformed)
      exact ⟨_, readRaw_of_isFirstUnencodable hlimit hmalformed hfirst⟩
  · rintro text rfl
    exact ⟨forall_word_ofText text, fun options docid e => read_eq_error_iff⟩

/-- A row whose id is not the next one and whose head is not a number. -/
def misnumberedRow : Text := "3\tb\t_\t_\t_\t_\tx\t_".toList

/-- A record with a comment, a range, an empty line and a good row before a misnumbered one. -/
def misnumbered : Text :=
  "# c\n1-2\tx\n\n01\ta\t_\tN\t_\t_\t-0\t_\n".toList ++ misnumberedRow

/-- The second row fails two checks and is blamed for its id. -/
theorem read_misnumbered :
    (∀ entry ∈ rawTokenLines misnumbered, KeepsDigitLimit entry.1) ∧
      IsFirstBad misnumbered 1 misnumberedRow 5 ∧
      read {} none misnumbered =
        .error (.malformed {
          reason := .unexpectedId 2 (['3'] : Text)
          line := misnumberedRow
          lineNumber := some 5 }) := by
  have hlimit : ∀ entry ∈ rawTokenLines misnumbered, KeepsDigitLimit entry.1 := by decide
  have hfirst : IsFirstBad misnumbered 1 misnumberedRow 5 := by
    refine ⟨by decide, by decide, fun j hj entry hentry => ?_⟩
    obtain rfl : j = 0 := by omega
    obtain rfl := Option.some.inj hentry
    decide
  obtain ⟨-, hblame, -, htext⟩ := readRaw_eq_error_iff_exists_bad misnumbered hlimit
  obtain ⟨check, hcheck, hread⟩ := hblame 1 misnumberedRow 5 hfirst
  have hid : failedCheck? 2 misnumberedRow = some .idValue := by decide
  obtain rfl : check = .idValue := Option.some.inj (hcheck.symm.trans hid)
  exact ⟨hlimit, hfirst, ((htext misnumbered rfl).2 {} none _).mpr hread⟩

/-- A row whose word is a surrogate by itself. -/
def loneRow : RawText :=
  RawText.ofText "1\t".toList ++ .surrogate 0 :: RawText.ofText "\t_\t_\t_\t_\t0\t_".toList

/-- **Good lines that are not read.** The only token line is good, but its word has no encoding. -/
theorem readRaw_loneRow :
    (∀ entry ∈ rawTokenLines loneRow, KeepsDigitLimit entry.1) ∧ ¬ IsMalformed loneRow ∧
      readRaw loneRow = .error (.unencodable { first := 0, position := 0 }) := by
  have hlines : rawTokenLines loneRow = [(loneRow, 1)] := by decide
  refine ⟨by decide, ?_, by decide⟩
  rintro ⟨k, entry, hentry, hbad⟩
  rw [hlines] at hentry
  obtain ⟨rfl, rfl⟩ : k = 0 ∧ entry = (loneRow, 1) := by
    cases k with
    | zero => exact ⟨rfl, (Option.some.inj hentry).symm⟩
    | succ k => cases hentry
  exact hbad (by decide)

end Conll

end Corpus
