import Corpus.Proofs.Conll.Reading
import Mathlib.Logic.Relation

/-!
# What a record is read without

Parts of a tab-separated record have no influence on what it is read as, when it has token lines at all.

* Lines that are passed over may come and go at any place, whatever else is in them.
* Of a token line the lemma and the fields after the label may be anything, and its id may have more
  zeros in front (`RowEdit.ofFields_eq_ok`).
* A record becomes another one by such edits, one at a time. Each of them keeps the rows that are read,
  wherever in the record it is made (`Edit.readRows_eq_ok`), and so does a run of them.
* The comments are what else a record is read for, but they do not count where there are rows.
-/

namespace Corpus.Conll

variable {line other : Text} {lines others : List Text} {expected : Nat} {row : Row}
  {rows : List Row} {record : Text} {options : Options} {docid : Option Text}
  {found : Option Sentence}

/-! ### Edits -/

/-- **Lines that are passed over**: empty lines, lines whose first field starts with `#`, and lines
whose first field is a range of ids. -/
def IsPassedOver (line : Text) : Prop :=
  line = [] ∨ ['#'] <+: column 0 line ∨ IsIdRange (column 0 line)

instance (line : Text) : Decidable (IsPassedOver line) := inferInstanceAs (Decidable (_ ∨ _ ∨ _))

/-- **An edit of a token line** that its row does not show. -/
inductive RowEdit (line : Text) : Text → Prop
  /-- The third field and those after the eighth are replaced. -/
  | unused {other : Text} : 8 ≤ (fields other).length →
      (∀ n < 8, n ≠ 2 → column n other = column n line) → RowEdit line other
  /-- The id gets more zeros in front, within the digit limit. -/
  | zeros (count : Nat) :
      (List.replicate count '0' ++ column 0 line).length ≤ Numeral.digitLimit →
      RowEdit line (List.replicate count '0' ++ line)

/-- **An edit of the lines of a record**, at any place. -/
inductive Edit : List Text → List Text → Prop
  | insert {line : Text} {lines : List Text} : IsPassedOver line → Edit lines (line :: lines)
  | delete {line : Text} {lines : List Text} : IsPassedOver line → Edit (line :: lines) lines
  | row {line other : Text} {lines : List Text} :
      IsTokenLine line → RowEdit line other → Edit (line :: lines) (other :: lines)
  | later {line : Text} {lines others : List Text} :
      Edit lines others → Edit (line :: lines) (line :: others)

/-! ### Token lines -/

theorem IsPassedOver.not_isTokenLine (h : IsPassedOver line) : ¬ IsTokenLine line := by
  intro hline
  rcases h with hempty | hcomment | hrange
  · exact hline.nonempty hempty
  · exact hline.not_comment hcomment
  · exact hline.not_range hrange

/-- A token line that is accepted has a number as its id. -/
theorem isDigits_of_ofFields_eq_ok (hexpected : 0 < expected)
    (h : Row.ofFields expected (fields line) = .ok row) : Numeral.IsDigits (column 0 line) := by
  obtain ⟨⟨-, hreadable, hid, -⟩, -⟩ := Row.ofFields_eq_ok_iff.mp h
  have hne : column 0 line ≠ [] := by
    intro hempty
    rw [numberIn, if_pos hempty] at hid
    omega
  rw [numberIn, if_neg hne] at hid
  exact (hreadable.resolve_left hne).1.isDigits (by omega)

/-- **Used fields.** A line is accepted as the same row when its id has the same number and the other
used columns are the same. -/
theorem ofFields_congr (hcount : 8 ≤ (fields other).length)
    (hcolumns : ∀ n ∈ [1, 3, 4, 5, 6, 7], column n other = column n line)
    (hid : IsReadable (column 0 other)) (hnumber : numberIn (column 0 other) = numberIn (column 0 line))
    (h : Row.ofFields expected (fields line) = .ok row) :
    Row.ofFields expected (fields other) = .ok row := by
  obtain ⟨⟨-, -, hvalue, hhead⟩, rfl⟩ := Row.ofFields_eq_ok_iff.mp h
  have hsame : Row.ofLine other = Row.ofLine line := by
    simp only [Row.ofLine, hcolumns 1 (by decide), hcolumns 3 (by decide), hcolumns 4 (by decide),
      hcolumns 5 (by decide), hcolumns 6 (by decide), hcolumns 7 (by decide)]
  refine Row.ofFields_eq_ok_iff.mpr ⟨⟨hcount, hid, hnumber.trans hvalue, ?_⟩, hsame.symm⟩
  rwa [hcolumns 6 (by decide)]

/-- Zeros in front of a line stand in its first field. -/
theorem fields_zeros_append (count : Nat) (line : Text) :
    fields (List.replicate count '0' ++ line) =
      (fields line).modifyHead (List.replicate count '0' ++ ·) :=
  splitOn_append_of_not_mem (fun hmem => absurd (List.eq_of_mem_replicate hmem) (by decide)) line

/-- **More zeros** in front of an id are read as the same row. -/
theorem ofFields_zeros_append {count : Nat} (hexpected : 0 < expected)
    (hlimit : (List.replicate count '0' ++ column 0 line).length ≤ Numeral.digitLimit)
    (h : Row.ofFields expected (fields line) = .ok row) :
    Row.ofFields expected (fields (List.replicate count '0' ++ line)) = .ok row := by
  have hdigits := isDigits_of_ofFields_eq_ok hexpected h
  have hpadded := hdigits.zeros_append count
  obtain ⟨rest, hfields⟩ := exists_fields_eq_cons line
  have hcolumn : column 0 (List.replicate count '0' ++ line) =
      List.replicate count '0' ++ column 0 line := by
    rw [column, fields_zeros_append, hfields]
    rfl
  refine ofFields_congr ?_ (fun n hn => ?_) ?_ ?_ h
  · rw [fields_zeros_append, List.length_modifyHead]
    exact (Row.ofFields_eq_ok_iff.mp h).1.1
  · have hpos : n ≠ 0 := fun hzero => absurd hn (hzero ▸ by decide)
    obtain ⟨n, rfl⟩ := Nat.exists_eq_succ_of_ne_zero hpos
    rw [column, column, fields_zeros_append, hfields]
    rfl
  · rw [hcolumn]
    refine .inr ⟨⟨_, hpadded, .inl rfl⟩, ?_⟩
    rwa [hpadded.digits_eq]
  · rw [hcolumn, numberIn, numberIn, if_neg hpadded.1, if_neg hdigits.1, hpadded.value_eq,
      hdigits.value_eq, Numeral.ofDigitChars_zeros_append]

/-- **Edited token lines** are read as the same row. -/
theorem RowEdit.ofFields_eq_ok (h : RowEdit line other) (hexpected : 0 < expected)
    (hrow : Row.ofFields expected (fields line) = .ok row) :
    IsTokenLine other ∧ Row.ofFields expected (fields other) = .ok row := by
  have hother : Row.ofFields expected (fields other) = .ok row := by
    cases h with
    | unused hcount hcolumns =>
      have hid : column 0 other = column 0 line := hcolumns 0 (by decide) (by decide)
      have hreadable := (Row.ofFields_eq_ok_iff.mp hrow).1.2.1
      have hused : ∀ n ∈ [1, 3, 4, 5, 6, 7], n < 8 ∧ n ≠ 2 := by decide
      exact ofFields_congr hcount (fun n hn => hcolumns n (hused n hn).1 (hused n hn).2)
        (hid ▸ hreadable) (congrArg numberIn hid) hrow
    | zeros count hlimit => exact ofFields_zeros_append hexpected hlimit hrow
  exact ⟨isTokenLine_of_isDigits (isDigits_of_ofFields_eq_ok hexpected hother), hother⟩

/-! ### Rows -/

/-- Rows that are read do not depend on the numbers of the lines. -/
theorem readRows_renumbered {m n : Nat} (h : readRows expected (lines.zipIdx n) = .ok rows) :
    readRows expected (lines.zipIdx m) = .ok rows := by
  induction lines generalizing expected rows m n with
  | nil => exact h
  | cons line lines ih =>
    rw [List.zipIdx_cons] at h ⊢
    by_cases hline : IsTokenLine line
    · obtain ⟨row, rest, hrow, hrest, rfl⟩ := (readRows_cons_eq_ok_iff hline).mp h
      exact (readRows_cons_eq_ok_iff hline).mpr ⟨row, rest, hrow, ih hrest, rfl⟩
    · rw [readRows_cons_of_not hline] at h ⊢
      exact ih h

/-- **One edit** keeps the rows that are read. -/
theorem Edit.readRows_eq_ok {m n : Nat} (h : Edit lines others) (hexpected : 0 < expected)
    (hrows : readRows expected (lines.zipIdx n) = .ok rows) :
    readRows expected (others.zipIdx m) = .ok rows := by
  induction h generalizing expected rows m n with
  | insert hpassed =>
    rw [List.zipIdx_cons, readRows_cons_of_not hpassed.not_isTokenLine]
    exact readRows_renumbered hrows
  | delete hpassed =>
    rw [List.zipIdx_cons, readRows_cons_of_not hpassed.not_isTokenLine] at hrows
    exact readRows_renumbered hrows
  | row hline hedit =>
    rw [List.zipIdx_cons] at hrows ⊢
    obtain ⟨row, rest, hrow, hrest, rfl⟩ := (readRows_cons_eq_ok_iff hline).mp hrows
    obtain ⟨hother, hrow'⟩ := hedit.ofFields_eq_ok hexpected hrow
    exact (readRows_cons_eq_ok_iff hother).mpr ⟨row, rest, hrow', readRows_renumbered hrest, rfl⟩
  | @later line lines others _ ih =>
    rw [List.zipIdx_cons] at hrows ⊢
    by_cases hline : IsTokenLine line
    · obtain ⟨row, rest, hrow, hrest, rfl⟩ := (readRows_cons_eq_ok_iff hline).mp hrows
      exact (readRows_cons_eq_ok_iff hline).mpr
        ⟨row, rest, hrow, ih (Nat.succ_pos expected) hrest, rfl⟩
    · rw [readRows_cons_of_not hline] at hrows ⊢
      exact ih hexpected hrows

/-- **A run of edits** keeps the rows that are read. -/
theorem readRows_of_edits {n : Nat} (h : Relation.ReflTransGen Edit lines others)
    (hexpected : 0 < expected) (hrows : readRows expected (lines.zipIdx n) = .ok rows) :
    readRows expected (others.zipIdx n) = .ok rows := by
  induction h with
  | refl => exact hrows
  | tail _ hedit ih => exact hedit.readRows_eq_ok hexpected ih

/-! ### Sentences -/

/-- Comments do not count where there are rows. -/
theorem finish_draft_congr (hrows : rows ≠ []) (record other : Text) :
    (draft options docid record rows).finish = (draft options docid other rows).finish := by
  have htokens (record : Text) : (draft options docid record rows).tokens ≠ [] :=
    mt tokens_draft_eq_nil_iff.mp hrows
  rw [Draft.finish, Draft.finish, if_pos (htokens record), if_pos (htokens other)]
  rfl

/-- **Ignored parts have no influence.** A record with token lines that is read becomes a sentence of
its tokens, or a placeholder for too many of them. It becomes the same after any edits of the lines that
are passed over, of the fields that are not used, and of the zeros in front of the ids. -/
theorem read_of_edits (hread : read options docid record = .ok found)
    (hlines : tokenLines record ≠ [])
    (hedits : Relation.ReflTransGen Edit (List.splitOn '\n' record) (List.splitOn '\n' other)) :
    ∃ s, found = some s ∧ read options docid other = .ok (some s) := by
  obtain ⟨rows, hrows, rfl⟩ := read_eq_ok_iff.mp hread
  have hne : rows ≠ [] := by
    rw [(readRows_eq_ok hrows).1]
    exact fun hnil => hlines (List.map_eq_nil_iff.mp hnil)
  have hsome : (draft options docid record rows).finish ≠ none := fun hnone =>
    hne (tokens_draft_eq_nil_iff.mp (Draft.finish_eq_none_iff.mp hnone).1)
  obtain ⟨s, hs⟩ := Option.ne_none_iff_exists'.mp hsome
  have hother : readRows 1 (numberedLines other) = .ok rows :=
    readRows_of_edits hedits Nat.one_pos hrows
  exact ⟨s, hs, read_eq_ok_iff.mpr ⟨rows, hother, (finish_draft_congr hne other record).trans hs⟩⟩

/-- A row with a lemma and a ninth field. -/
def ladenRow : Text := "1\ta\tA\t_\tN\t_\t0\t_\tu".toList

/-- The row without them. -/
def bareRow : Text := "1\ta\t\t_\tN\t_\t0\t_".toList

/-- A row after it. -/
def lastRow : Text := "2\tb\t_\t_\tV\t_\t1\t_".toList

/-- The rows and a comment. -/
def ladenLines : List Text := ["#c\td".toList, ladenRow, lastRow]

/-- The rows without the comment, with zeros, a range of ids and an empty line. -/
def editedLines : List Text :=
  [List.replicate 2 '0' ++ bareRow, "2-3\tx".toList, lastRow, []]

/-- What both are read as. -/
def ladenSentence : Sentence :=
  { docid := none
    text := "a b".toList
    tokens :=
      [{ word := ['a'], start := 0, last := 0, tag := some ['N'] },
       { word := ['b'], start := 2, last := 2, tag := some ['V'], head := some 0 }] }

theorem edits_ladenLines : Relation.ReflTransGen Edit ladenLines editedLines := by
  have hcomment : Edit ladenLines [ladenRow, lastRow] := .delete (by decide)
  have hfields : Edit [ladenRow, lastRow] [bareRow, lastRow] :=
    .row (by decide) (.unused (by decide) (by decide))
  have hzeros : Edit [bareRow, lastRow] [List.replicate 2 '0' ++ bareRow, lastRow] :=
    .row (by decide) (.zeros 2 (by decide))
  have hrange : Edit [List.replicate 2 '0' ++ bareRow, lastRow]
      [List.replicate 2 '0' ++ bareRow, "2-3\tx".toList, lastRow] := .later (.insert (by decide))
  have hempty : Edit [List.replicate 2 '0' ++ bareRow, "2-3\tx".toList, lastRow] editedLines :=
    .later (.later (.later (.insert (by decide))))
  exact .head hcomment (.head hfields (.head hzeros (.head hrange (.single hempty))))

/-- A record with a comment and unused fields is read as without them. -/
theorem read_editedLines :
    let record := Text.joined ['\n'] ladenLines
    let other := Text.joined ['\n'] editedLines
    read {} none record = .ok (some ladenSentence) ∧ tokenLines record ≠ [] ∧
      Relation.ReflTransGen Edit (List.splitOn '\n' record) (List.splitOn '\n' other) ∧
      ∃ s, some ladenSentence = some s ∧ read {} none other = .ok (some s) := by
  intro record other
  have hread : read {} none record = .ok (some ladenSentence) := by rfl
  have hlines : tokenLines record ≠ [] := by decide
  have hedits : Relation.ReflTransGen Edit (List.splitOn '\n' record) (List.splitOn '\n' other) := by
    have hrecord : List.splitOn '\n' record = ladenLines := by decide
    have hother : List.splitOn '\n' other = editedLines := by decide
    rw [hrecord, hother]
    exact edits_ladenLines
  exact ⟨hread, hlines, hedits, read_of_edits hread hlines hedits⟩

end Corpus.Conll
