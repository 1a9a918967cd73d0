import Corpus.Conll.Reader
import Corpus.Proofs.Number.Numeral
import Corpus.Proofs.Text.Pieces

/-!
# Token lines

What a record holds, said without reading it.

* A token line is a line that is not empty and whose first field is neither a comment nor a range of
  ids. Of the lines of a record only the token lines decide what it is read as.
* The columns of a line are its fields, counted from zero; a column that a line does not have is
  empty. `Row.ofLine` is the row that the columns hold.
* `Row.ofFields` accepts a token line when it has the id that is expected, and then gives the row of
  its columns.
-/

namespace Corpus.Conll

/-! ### Grammar -/

/-- The `n`-th field of a line; empty when the line has fewer fields. -/
def column (n : Nat) (line : Text) : Text := (fields line)[n]?.getD []

/-- **Range of ids.** Digits, a hyphen and digits. -/
def IsIdRange (text : Text) : Prop :=
  ∃ low high, text = low ++ '-' :: high ∧ Numeral.IsDigits low ∧ Numeral.IsDigits high

/-- **Token line.** A line that is not empty and whose first field neither starts with `#` nor is a
range of ids. -/
structure IsTokenLine (line : Text) : Prop where
  nonempty : line ≠ []
  not_comment : ¬ ['#'] <+: column 0 line
  not_range : ¬ IsIdRange (column 0 line)

theorem isRange_iff {text : Text} : isRange text = true ↔ IsIdRange text := by
  constructor
  · intro h
    rw [isRange] at h
    split at h
    · rename_i low high hbreak
      rw [Bool.and_eq_true, Numeral.isNatural_iff, Numeral.isNatural_iff] at h
      exact ⟨low, high, (breakAt_eq_some_iff.mp hbreak).1, h⟩
    · cases h
  · rintro ⟨low, high, rfl, hlow, hhigh⟩
    have hmem : '-' ∉ low := fun hmem => absurd (hlow.2 '-' hmem) (by decide)
    have hbreak : breakAt '-' (low ++ '-' :: high) = some (low, high) :=
      breakAt_eq_some_iff.mpr ⟨rfl, hmem⟩
    rw [isRange, hbreak]
    simp only [Bool.and_eq_true]
    exact ⟨Numeral.isNatural_iff.mpr hlow, Numeral.isNatural_iff.mpr hhigh⟩

instance (text : Text) : Decidable (IsIdRange text) := decidable_of_iff _ isRange_iff

/-- The fields of a line are its first column and the rest. -/
theorem exists_fields_eq_cons (line : Text) : ∃ rest, fields line = column 0 line :: rest := by
  obtain ⟨first, rest, hfields⟩ := List.exists_cons_of_ne_nil (List.splitOn_ne_nil '\t' line)
  refine ⟨rest, ?_⟩
  rw [column, fields, hfields]
  rfl

/-- **The kind of a line.** The token lines are the lines that are read as rows. -/
theorem ofText_eq_row_iff {line : Text} {fs : List Text} :
    Line.ofText line = .row fs ↔ IsTokenLine line ∧ fs = fields line := by
  obtain ⟨rest, hfields⟩ := exists_fields_eq_cons line
  have hcomment : ['#'] <+: column 0 line ↔ (column 0 line).head? = some '#' := by
    cases column 0 line with
    | nil => simp
    | cons c text => simp [List.cons_prefix_cons, eq_comm]
  by_cases hline : line = []
  · rw [Line.ofText, if_pos hline]
    exact ⟨nofun, fun h => absurd hline h.1.nonempty⟩
  · simp only [Line.ofText, hline, if_false, hfields]
    by_cases hc : (column 0 line).head? = some '#'
    · rw [if_pos hc]
      exact ⟨nofun, fun h => absurd (hcomment.mpr hc) h.1.not_comment⟩
    · rw [if_neg hc]
      by_cases hr : isRange (column 0 line) = true
      · rw [if_pos hr]
        exact ⟨nofun, fun h => absurd (isRange_iff.mp hr) h.1.not_range⟩
      · rw [if_neg hr, Line.row.injEq]
        have htoken : IsTokenLine line :=
          ⟨hline, fun h => hc (hcomment.mp h), fun h => hr (isRange_iff.mpr h)⟩
        exact ⟨fun h => ⟨htoken, h.symm⟩, fun h => h.2.symm⟩

/-- A line whose first column is a number is a token line. -/
theorem isTokenLine_of_isDigits {line : Text} (h : Numeral.IsDigits (column 0 line)) :
    IsTokenLine line where
  nonempty := by
    rintro rfl
    exact h.1 rfl
  not_comment hhash := by
    have hmem : '#' ∈ column 0 line := hhash.subset (List.mem_singleton_self '#')
    exact absurd (h.2 '#' hmem) (by decide)
  not_range := by
    rintro ⟨low, high, hrange, -⟩
    have hmem : '-' ∈ column 0 line := hrange ▸ List.mem_append_right _ List.mem_cons_self
    exact absurd (h.2 '-' hmem) (by decide)

theorem isTokenLine_iff {line : Text} :
    Line.ofText line = .row (fields line) ↔ IsTokenLine line :=
  ofText_eq_row_iff.trans (and_iff_left rfl)

instance (line : Text) : Decidable (IsTokenLine line) := decidable_of_iff _ isTokenLine_iff

/-- The token lines among numbered lines. -/
def tokenLinesOf (lines : List (Text × Nat)) : List (Text × Nat) :=
  lines.filter fun entry => IsTokenLine entry.1

/-- **The token lines of a record**, each with its number among all lines, counted from one. -/
def tokenLines (record : Text) : List (Text × Nat) :=
  tokenLinesOf ((List.splitOn '\n' record).zipIdx 1)

/-! ### Columns -/

/-- The integer in a field, where an empty field counts as 0. -/
def numberIn (field : Text) : Int := if field = [] then 0 else Numeral.value field

/-- **The row of a line.** What its columns hold; an underscore leaves a column open. -/
def Row.ofLine (line : Text) : Row :=
  { word := column 1 line
    category := cleared (column 3 line)
    tag := cleared (column 4 line)
    features := cleared (column 5 line)
    head := numberIn (cleared (column 6 line))
    label := cleared (column 7 line) }

/-- A field is open when it is empty or an underscore. -/
theorem cleared_eq_nil_iff {field : Text} : cleared field = [] ↔ field = [] ∨ field = ['_'] := by
  rw [cleared]
  split
  · rename_i h
    simp [h]
  · rename_i h
    simp [h]

/-- An annotation is its field, or none for an empty one. -/
theorem annotation_getD (field : Text) : ( annotation field).getD [] = field := by
  unfold annotation
  split
  · rename_i h
    exact h.symm
  · rfl

theorem Row.category_token (row : Row) : row.token.category.getD [] = row.category :=
  annotation_getD row.category

theorem Row.tag_token (row : Row) : row.token.tag.getD [] = row.tag := annotation_getD row.tag

theorem Row.label_token (row : Row) : row.token.label.getD [] = row.label :=
  annotation_getD row.label

/-- A line of at least eight fields is its columns and the fields after the label. -/
theorem fields_eq_columns {line : Text} (h : 8 ≤ (fields line).length) :
    ∃ rest, fields line = column 0 line :: column 1 line :: column 2 line :: column 3 line ::
      column 4 line :: column 5 line :: column 6 line :: column 7 line :: rest := by
  unfold column
  match hfields : fields line, h with
  | _ :: _ :: _ :: _ :: _ :: _ :: _ :: _ :: rest, _ => exact ⟨rest, rfl⟩

/-- A number field that is read: it is empty or a numeral within the digit limit. -/
def IsReadable (value : Text) : Prop :=
  value = [] ∨ Numeral.IsNumeral value ∧ (Numeral.digits value).length ≤ Numeral.digitLimit

/-- **Reading a number field.** -/
theorem readNumber_eq_ok_iff {field : NumberField} {value : Text} {n : Int} :
    readNumber field value = .ok n ↔ IsReadable value ∧ n = numberIn value := by
  rw [IsReadable]
  by_cases hempty : value = []
  · simp [readNumber, numberIn, hempty, eq_comm]
  · by_cases hnumeral : Numeral.isInteger value = true
    · by_cases hlimit : (Numeral.digits value).length ≤ Numeral.digitLimit
      · simp [readNumber, numberIn, Numeral.read, hempty, hnumeral, hlimit,
          ← Numeral.isInteger_iff, eq_comm]
      · simp [readNumber, Numeral.read, hempty, hnumeral, hlimit]
    · simp [readNumber, hempty, hnumeral, ← Numeral.isInteger_iff]

/-- A number field that is neither empty nor a numeral is refused. -/
theorem readNumber_eq_error {field : NumberField} {value : Text} (hempty : value ≠ [])
    (hnumeral : ¬ Numeral.IsNumeral value) :
    readNumber field value = .error (.malformed (.notInteger field value)) := by
  have hinteger : Numeral.isInteger value = false := by
    rwa [← Bool.not_eq_true, Numeral.isInteger_iff]
  simp [readNumber, hempty, hinteger]

/-- A line of fewer than eight fields is refused. -/
theorem Row.ofFields_of_length_lt {expected : Nat} {line : Text} (h : (fields line).length < 8) :
    Row.ofFields expected (fields line) = .error (.malformed .tooFewFields) := by
  match hfields : fields line, h with
  | [], _ | [_], _ | [_, _], _ | [_, _, _], _ | [_, _, _, _], _ | [_, _, _, _, _], _
  | [_, _, _, _, _, _], _ | [_, _, _, _, _, _, _], _ => rfl

/-- A line of at least eight fields is judged by its id and its head. -/
theorem Row.ofFields_of_le_length {expected : Nat} {line : Text} (h : 8 ≤ (fields line).length) :
    Row.ofFields expected (fields line) =
      match readNumber .tokenId (column 0 line) with
      | .error fault => .error fault
      | .ok number =>
        if number ≠ expected then .error (.malformed (.unexpectedId expected (column 0 line)))
        else
          match readNumber .head (cleared (column 6 line)) with
          | .error fault => .error fault
          | .ok head => .ok { Row.ofLine line with head } := by
  obtain ⟨rest, hfields⟩ := fields_eq_columns h
  rw [hfields]
  rfl

/-- **Reading a row.** A token line is accepted for its number of fields, its id and its head, and
is read as the row of its columns. -/
theorem Row.ofFields_eq_ok_iff {expected : Nat} {line : Text} {row : Row} :
    Row.ofFields expected (fields line) = .ok row ↔
      (8 ≤ (fields line).length ∧ IsReadable (column 0 line) ∧
        numberIn (column 0 line) = expected ∧ IsReadable (cleared (column 6 line))) ∧
      row = Row.ofLine line := by
  by_cases hlength : 8 ≤ (fields line).length
  · rw [Row.ofFields_of_le_length hlength]
    cases hid : readNumber .tokenId (column 0 line) with
    | error fault =>
      have hno : ¬ IsReadable (column 0 line) := fun h => by
        rw [readNumber_eq_ok_iff.mpr ⟨h, rfl⟩] at hid
        cases hid
      simp [hno]
    | ok number =>
      obtain ⟨hreadable, rfl⟩ := readNumber_eq_ok_iff.mp hid
      by_cases hexpected : numberIn (column 0 line) = expected
      · cases hhead : readNumber .head (cleared (column 6 line)) with
        | error fault =>
          have hno : ¬ IsReadable (cleared (column 6 line)) := fun h => by
            rw [readNumber_eq_ok_iff.mpr ⟨h, rfl⟩] at hhead
            cases hhead
          simp [hexpected, hno]
        | ok head =>
          obtain ⟨hreadable', rfl⟩ := readNumber_eq_ok_iff.mp hhead
          simp [hlength, hreadable, hexpected, hreadable', Row.ofLine, eq_comm]
      · simp [hexpected]
  · rw [Row.ofFields_of_length_lt (Nat.not_le.mp hlength)]
    simp [hlength]

/-- The magnitude of a number that was read keeps to the digit limit. -/
theorem length_natAbs_numberIn_le {value : Text} (h : IsReadable value) :
    (Numeral.ofNat (numberIn value).natAbs).length ≤ Numeral.digitLimit := by
  rw [numberIn]
  split
  · decide
  · rename_i hempty
    rcases h with h | ⟨hnumeral, hlimit⟩
    · exact absurd h hempty
    · have hvalue := Numeral.length_ofNat_natAbs_value_le (Numeral.isInteger_iff.mpr hnumeral)
      exact Nat.le_trans hvalue hlimit

end Corpus.Conll
