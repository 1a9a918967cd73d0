import Corpus.Conll.RawReader
import Corpus.Proofs.Conll.Reading
import Corpus.Proofs.Text.Raw

/-!
# What a raw record is read as

* Token lines and columns are those of texts, said of raw lines. A check of a field holds when the field is
  a text that passes it.
* Lines that are no token lines are passed over, and a token line of eight fields is judged by its id and
  its head (`rawWord_of_le_length`).
* A text is read as raw text in step with its own reading (`rawWords_ofText`): line by line they stop alike.
  So one fails when the other does (`read_eq_error_iff`).
-/

namespace Corpus.Conll

variable {expected number : Nat} {line : RawText} {lines : List (RawText × Nat)}

/-! ### Token lines -/

/-- The `n`-th field of a raw line; empty when the line has fewer fields. -/
def rawColumn (n : Nat) (line : RawText) : RawText := (rawFields line)[n]?.getD []

/-- **Token line** among raw lines. -/
structure IsRawTokenLine (line : RawText) : Prop where
  nonempty : line ≠ []
  not_comment : ¬ [.char '#'] <+: rawColumn 0 line
  not_range : ¬ (rawColumn 0 line).Satisfies IsIdRange

theorem isRawRange_iff {field : RawText} : isRawRange field = true ↔ field.Satisfies IsIdRange := by
  rw [RawText.satisfies_iff, isRawRange]
  cases field.toText with
  | ok text => simp [isRange_iff]
  | error fault => simp

/-- The fields of a raw line are its first column and the rest. -/
theorem exists_rawFields_eq_cons (line : RawText) :
    ∃ rest, rawFields line = rawColumn 0 line :: rest := by
  obtain ⟨first, rest, hfields⟩ := List.exists_cons_of_ne_nil (List.splitOn_ne_nil (.char '\t') line)
  refine ⟨rest, ?_⟩
  rw [rawColumn, rawFields, hfields]
  rfl

/-- The token lines are the lines that are read as rows. -/
theorem rawRow?_eq_some_iff {fs : List RawText} :
    rawRow? line = some fs ↔ IsRawTokenLine line ∧ fs = rawFields line := by
  obtain ⟨rest, hfields⟩ := exists_rawFields_eq_cons line
  have hcomment : [.char '#'] <+: rawColumn 0 line ↔
      (rawColumn 0 line).head? = some (.char '#') := by
    cases rawColumn 0 line with
    | nil => simp
    | cons c text => simp [List.cons_prefix_cons, eq_comm]
  have htoken : IsRawTokenLine line ↔ line ≠ [] ∧
      (rawColumn 0 line).head? ≠ some (.char '#') ∧ isRawRange (rawColumn 0 line) ≠ true :=
    ⟨fun h => ⟨h.1, mt hcomment.mpr h.2, mt isRawRange_iff.mp h.3⟩,
      fun h => ⟨h.1, mt hcomment.mp h.2.1, mt isRawRange_iff.mpr h.2.2⟩⟩
  rw [htoken, rawRow?, hfields]
  by_cases hline : line = []
  · simp [hline]
  · by_cases hc : (rawColumn 0 line).head? = some (.char '#')
    · simp [hc]
    · by_cases hr : isRawRange (rawColumn 0 line) = true
      · simp [hr]
      · simp [hline, hc, hr, eq_comm]

instance (line : RawText) : Decidable (IsRawTokenLine line) :=
  decidable_of_iff (rawRow? line = some (rawFields line))
    (rawRow?_eq_some_iff.trans (and_iff_left rfl))

/-- The token lines among numbered raw lines. -/
def rawTokenLinesOf (lines : List (RawText × Nat)) : List (RawText × Nat) :=
  lines.filter fun entry => IsRawTokenLine entry.1

/-- **The token lines of a raw record**, each with its number among all lines, counted from one. -/
def rawTokenLines (record : RawText) : List (RawText × Nat) :=
  rawTokenLinesOf (numberedRawLines record)

theorem rawTokenLinesOf_cons (h : IsRawTokenLine line) :
    rawTokenLinesOf ((line, number) :: lines) = (line, number) :: rawTokenLinesOf lines :=
  List.filter_cons_of_pos (by simpa using h)

theorem rawTokenLinesOf_cons_of_not (h : ¬ IsRawTokenLine line) :
    rawTokenLinesOf ((line, number) :: lines) = rawTokenLinesOf lines :=
  List.filter_cons_of_neg (by simpa using h)

/-- A token line is judged, and the rest is read with the next id. -/
theorem rawWords_cons (h : IsRawTokenLine line) :
    rawWords expected ((line, number) :: lines) =
      match rawWord expected (rawFields line) with
      | .error fault => .error (fault.error line number)
      | .ok word => (rawWords (expected + 1) lines).map (word :: ·) := by
  rw [rawWords]
  split
  · rename_i hrow
    cases hrow.symm.trans (rawRow?_eq_some_iff.mpr ⟨h, rfl⟩)
  · rename_i fs hrow
    obtain ⟨-, rfl⟩ := rawRow?_eq_some_iff.mp hrow
    rfl

/-- Any other line is passed over. -/
theorem rawWords_cons_of_not (h : ¬ IsRawTokenLine line) :
    rawWords expected ((line, number) :: lines) = rawWords expected lines := by
  have hrow : rawRow? line = none :=
    Option.eq_none_iff_forall_ne_some.mpr fun fs hfs => h (rawRow?_eq_some_iff.mp hfs).1
  rw [rawWords, hrow]

/-! ### Rows -/

/-- A number field is read when it is a text that is. -/
theorem readRawNumber_eq_ok_iff {field : NumberField} {value : RawText} {n : Int} :
    readRawNumber field value = .ok n ↔
      value.Satisfies fun text => IsReadable text ∧ n = numberIn text := by
  rw [RawText.satisfies_iff, readRawNumber]
  cases value.toText with
  | ok text => simp [readNumber_eq_ok_iff]
  | error fault => simp

/-- A number field that is neither empty nor a numeral is refused. -/
theorem readRawNumber_eq_error {field : NumberField} {value : RawText} (hempty : value ≠ [])
    (hnumeral : ¬ value.Satisfies Numeral.IsNumeral) :
    readRawNumber field value = .error (.malformed (.notInteger field value)) := by
  rw [readRawNumber]
  cases htext : value.toText with
  | error fault => rfl
  | ok text =>
    obtain rfl := RawText.toText_eq_ok_iff.mp htext
    rw [RawText.satisfies_ofText] at hnumeral
    exact readNumber_eq_error (mt RawText.ofText_eq_nil_iff.mpr hempty) hnumeral

/-- A line of fewer than eight fields is refused. -/
theorem rawWord_of_length_lt (h : (rawFields line).length < 8) :
    rawWord expected (rawFields line) = .error (.malformed .tooFewFields) := by
  match hfields : rawFields line, h with
  | [], _ | [_], _ | [_, _], _ | [_, _, _], _ | [_, _, _, _], _ | [_, _, _, _, _], _
  | [_, _, _, _, _, _], _ | [_, _, _, _, _, _, _], _ => rfl

/-- **A line of at least eight fields** is judged by its id and its head, and its word is left. -/
theorem rawWord_of_le_length (h : 8 ≤ (rawFields line).length) :
    rawWord expected (rawFields line) =
      match readRawNumber .tokenId (rawColumn 0 line) with
      | .error fault => .error fault
      | .ok number =>
        if number ≠ expected then .error (.malformed (.unexpectedId expected (rawColumn 0 line)))
        else
          match readRawNumber .head (rawCleared (rawColumn 6 line)) with
          | .error fault => .error fault
          | .ok _ => .ok (rawColumn 1 line) := by
  unfold rawColumn
  match rawFields line, h with
  | _ :: _ :: _ :: _ :: _ :: _ :: _ :: _ :: _, _ => rfl

/-! ### Texts -/

section Texts

variable {text : Text} {record : Text} {rows : List (Text × Nat)}

theorem rawFields_ofText (text : Text) : rawFields text = (fields text).map RawText.ofText :=
  RawText.splitOn_ofText '\t' text

theorem rawColumn_ofText (n : Nat) (text : Text) : rawColumn n text = column n text := by
  rw [rawColumn, column, rawFields_ofText, List.getElem?_map]
  cases (fields text)[n]? <;> rfl

theorem isRawTokenLine_ofText : IsRawTokenLine text ↔ IsTokenLine text := by
  have hmark : RawText.ofText ['#'] = [.char '#'] := rfl
  have hcomment : [.char '#'] <+: rawColumn 0 text ↔ ['#'] <+: column 0 text := by
    rw [rawColumn_ofText, ← hmark]
    exact List.prefix_map_iff_of_injective fun _ _ => RawChar.char.inj
  have hrange : (rawColumn 0 text).Satisfies IsIdRange ↔ IsIdRange (column 0 text) := by
    rw [rawColumn_ofText, RawText.satisfies_ofText]
  constructor
  · intro h
    exact ⟨mt RawText.ofText_eq_nil_iff.mpr h.nonempty, mt hcomment.mpr h.not_comment,
      mt hrange.mpr h.not_range⟩
  · intro h
    exact ⟨mt RawText.ofText_eq_nil_iff.mp h.nonempty, mt hcomment.mp h.not_comment,
      mt hrange.mp h.not_range⟩

/-- A text and its number as a raw line. -/
def rawEntry (entry : Text × Nat) : RawText × Nat := (entry.1, entry.2)

theorem numberedRawLines_ofText (record : Text) :
    numberedRawLines record = (numberedLines record).map rawEntry := by
  rw [numberedRawLines, numberedLines, RawText.splitOn_ofText, List.zipIdx_map]
  rfl

/-- **The token lines of a text** are those of the text as raw text. -/
theorem rawTokenLines_ofText (record : Text) :
    rawTokenLines record = (tokenLines record).map rawEntry := by
  rw [rawTokenLines, numberedRawLines_ofText, rawTokenLinesOf, List.filter_map, tokenLines,
    tokenLinesOf]
  refine congrArg (List.map rawEntry) (List.filter_congr fun entry _ => ?_)
  exact decide_eq_decide.mpr isRawTokenLine_ofText

/-- The words of a text hold no lone surrogates. -/
theorem forall_word_ofText (record : Text) :
    ∀ entry ∈ rawTokenLines record, ¬ (rawColumn 1 entry.1).HoldsSurrogate := by
  rw [rawTokenLines_ofText]
  refine List.forall_mem_map.mpr fun entry _ => ?_
  rw [rawEntry, rawColumn_ofText]
  exact RawText.not_holdsSurrogate_ofText _

theorem rawCleared_ofText (field : Text) : rawCleared field = cleared field := by
  have hopen : RawText.ofText field = [.char '_'] ↔ field = ['_'] :=
    RawText.ofText_injective.eq_iff (b := ['_'])
  rw [rawCleared, cleared]
  by_cases h : field = ['_']
  · rw [if_pos h, if_pos (hopen.mpr h)]
    rfl
  · rw [if_neg h, if_neg (mt hopen.mp h)]

theorem readRawNumber_ofText (field : NumberField) (value : Text) :
    readRawNumber field value = readNumber field value := by
  rw [readRawNumber, RawText.toText_ofText]

/-- **A row of texts** is judged as a raw row as it is judged itself. -/
theorem rawWord_ofText (text : Text) :
    rawWord expected (rawFields text) =
      (Row.ofFields expected (fields text)).map fun row => RawText.ofText row.word := by
  by_cases hlength : 8 ≤ (fields text).length
  · rw [rawWord_of_le_length (by rwa [rawFields_ofText, List.length_map]),
      Row.ofFields_of_le_length hlength, rawColumn_ofText, rawColumn_ofText, rawColumn_ofText,
      rawCleared_ofText, readRawNumber_ofText, readRawNumber_ofText]
    cases readNumber .tokenId (column 0 text) with
    | error fault => rfl
    | ok number =>
      by_cases hnumber : number = expected
      · simp only [hnumber, ne_eq, not_true_eq_false, if_false]
        cases readNumber .head (cleared (column 6 text)) <;> rfl
      · simp only [ne_eq, hnumber, not_false_eq_true, if_true]
        rfl
  · rw [Row.ofFields_of_length_lt (Nat.not_le.mp hlength),
      rawWord_of_length_lt (by rw [rawFields_ofText, List.length_map]; exact Nat.not_le.mp hlength)]
    rfl

/-- **Texts are read in step.** The induction is on the lines; both readings pass over the same lines and
are at the same id. -/
theorem rawWords_ofText (expected : Nat) (rows : List (Text × Nat)) :
    rawWords expected (rows.map rawEntry) =
      (readRows expected rows).map (·.map fun row => RawText.ofText row.word) := by
  induction rows generalizing expected with
  | nil => rfl
  | cons entry rows ih =>
    obtain ⟨text, number⟩ := entry
    rw [List.map_cons, rawEntry]
    -- A row that is refused ends both readings with one error; any other leaves one id expected in both.
    by_cases htoken : IsTokenLine text
    · rw [rawWords_cons (isRawTokenLine_ofText.mpr htoken), readRows_cons htoken, rawWord_ofText, ih]
      cases Row.ofFields expected (fields text) with
      | error fault => rfl
      | ok row =>
        cases readRows (expected + 1) rows <;> rfl
    · rw [rawWords_cons_of_not (mt isRawTokenLine_ofText.mp htoken), readRows_cons_of_not htoken, ih]

theorem encodedWords_ofText (words : List Text) :
    encodedWords (words.map RawText.ofText) = .ok words := by
  induction words with
  | nil => rfl
  | cons word words ih =>
    rw [List.map_cons, encodedWords, RawText.toText_ofText, ih]
    rfl

/-- **A text is refused as raw text as it is refused itself**, whatever the options. -/
theorem read_eq_error_iff {options : Options} {docid : Option Text} {e : Error} :
    read options docid record = .error e ↔ readRaw record = .error e := by
  rw [read, readRaw, numberedRawLines_ofText, rawWords_ofText]
  cases readRows 1 (numberedLines record) with
  | error found => simp only [Except.map, Except.error.injEq]
  | ok rows =>
    have hwords : (rows.map fun row => RawText.ofText row.word) =
        (rows.map Row.word).map RawText.ofText := List.map_map.symm
    simp only [Except.map, hwords, encodedWords_ofText, reduceCtorEq]

end Texts

end Corpus.Conll
