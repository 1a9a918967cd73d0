import Corpus.Proofs.Conll.Encoding
import Corpus.Proofs.Conll.TokenLine

/-!
# What a record is read as

* Lines that are no token lines are passed over, so that the rows of a record are the rows of its
  token lines.
* A record is read as a sentence without a note when it has from one to a hundred rows; the sentence
  is then the sentence of the encoded tokens of the rows.
-/

namespace Corpus.Conll

variable {expected number : Nat} {line : Text} {lines : List (Text × Nat)} {rows : List Row}

/-! ### Token lines -/

theorem tokenLinesOf_cons (h : IsTokenLine line) :
    tokenLinesOf ((line, number) :: lines) = (line, number) :: tokenLinesOf lines :=
  List.filter_cons_of_pos (by simpa using h)

theorem tokenLinesOf_cons_of_not (h : ¬ IsTokenLine line) :
    tokenLinesOf ((line, number) :: lines) = tokenLinesOf lines :=
  List.filter_cons_of_neg (by simpa using h)

/-- A token line is judged, and the rest is read with the next id. -/
theorem readRows_cons (h : IsTokenLine line) :
    readRows expected ((line, number) :: lines) =
      match Row.ofFields expected (fields line) with
      | .error fault => .error (fault.error line number)
      | .ok row => (readRows (expected + 1) lines).map (row :: ·) := by
  rw [readRows]
  split
  · rename_i fs hrow
    obtain ⟨-, rfl⟩ := ofText_eq_row_iff.mp hrow
    rfl
  · rename_i hother
    exact absurd (ofText_eq_row_iff.mpr ⟨h, rfl⟩) (hother _)

/-- A token line gives the first row, and the lines after it the other ones. -/
theorem readRows_cons_eq_ok_iff (h : IsTokenLine line) :
    readRows expected ((line, number) :: lines) = .ok rows ↔
      ∃ row rest, Row.ofFields expected (fields line) = .ok row ∧
        readRows (expected + 1) lines = .ok rest ∧ rows = row :: rest := by
  rw [readRows_cons h]
  constructor
  · intro hrows
    cases hrow : Row.ofFields expected (fields line) with
    | error fault =>
      rw [hrow] at hrows
      cases hrows
    | ok row =>
      cases hrest : readRows (expected + 1) lines with
      | error e =>
        rw [hrow, hrest] at hrows
        cases hrows
      | ok rest =>
        rw [hrow, hrest] at hrows
        exact ⟨row, rest, rfl, rfl, (Except.ok.inj hrows).symm⟩
  · rintro ⟨row, rest, hrow, hrest, rfl⟩
    rw [hrow, hrest]
    rfl

/-- Any other line is passed over. -/
theorem readRows_cons_of_not (h : ¬ IsTokenLine line) :
    readRows expected ((line, number) :: lines) = readRows expected lines := by
  rw [readRows]
  split
  · rename_i fs hrow
    exact absurd (ofText_eq_row_iff.mp hrow).1 h
  · rfl

/-- **Rows read.** The rows of lines that are read are those of the token lines, and the numbers in
them keep to the digit limit. -/
theorem readRows_eq_ok (h : readRows expected lines = .ok rows) :
    rows = (tokenLinesOf lines).map (fun entry => Row.ofLine entry.1) ∧
      ∀ row ∈ rows, (Numeral.ofNat row.head.natAbs).length ≤ Numeral.digitLimit := by
  induction lines generalizing expected rows with
  | nil =>
    obtain rfl : [] = rows := Except.ok.inj h
    exact ⟨rfl, fun row hrow => absurd hrow List.not_mem_nil⟩
  | cons entry lines ih =>
    obtain ⟨line, number⟩ := entry
    by_cases hline : IsTokenLine line
    · obtain ⟨row, rest, hrow, hrest, rfl⟩ := (readRows_cons_eq_ok_iff hline).mp h
      obtain ⟨⟨-, -, -, hhead⟩, rfl⟩ := Row.ofFields_eq_ok_iff.mp hrow
      obtain ⟨hrest, hlimit⟩ := ih hrest
      rw [tokenLinesOf_cons hline, List.map_cons, hrest]
      refine ⟨rfl, fun other hother => ?_⟩
      rcases List.mem_cons.mp hother with rfl | hother
      · exact length_natAbs_numberIn_le hhead
      · exact hlimit other (hrest ▸ hother)
    · rw [readRows_cons_of_not hline] at h
      rw [tokenLinesOf_cons_of_not hline]
      exact ih h

/-! ### Sentences -/

/-- The encoded tokens of rows. -/
def tokensOf (options : Options) (rows : List Row) : List Token :=
  rows.map fun row => encode options row.token

theorem map_word_tokensOf (options : Options) (rows : List Row) :
    (tokensOf options rows).map Token.word = rows.map Row.word := by
  rw [tokensOf, List.map_map]
  exact List.map_congr_left fun row _ => word_encode options row.token

/-- The tokens of a draft are the encoded tokens of the rows in place. -/
theorem tokens_draft (options : Options) (docid : Option Text) (record : Text) (rows : List Row) :
    (draft options docid record rows).tokens = inPlace (tokensOf options rows) := by
  rw [inPlace, map_word_tokensOf]
  rfl

theorem text_draft (options : Options) (docid : Option Text) (record : Text) (rows : List Row) :
    (draft options docid record rows).text = wordText ((tokensOf options rows).map Token.word) := by
  rw [map_word_tokensOf]
  rfl

section Records

variable {options : Options} {docid : Option Text} {record : Text} {found : Option Sentence}

theorem length_inPlace_tokensOf (options : Options) (rows : List Row) :
    (inPlace (tokensOf options rows)).length = rows.length := by
  rw [length_inPlace, tokensOf, List.length_map]

theorem length_tokens_draft : (draft options docid record rows).tokens.length = rows.length := by
  rw [tokens_draft, length_inPlace_tokensOf]

theorem tokens_draft_eq_nil_iff : (draft options docid record rows).tokens = [] ↔ rows = [] := by
  rw [← List.length_eq_zero_iff, length_tokens_draft, List.length_eq_zero_iff]

/-- **Reading.** What is read is what the draft of the rows becomes. -/
theorem read_eq_ok_iff :
    read options docid record = .ok found ↔
      ∃ rows, readRows 1 (numberedLines record) = .ok rows ∧
        (draft options docid record rows).finish = found := by
  rw [read]
  cases readRows 1 (numberedLines record) with
  | error e => simp [Except.map]
  | ok rows => simp [Except.map]

/-- **Sentences read.** A record is read as a sentence without a note when it has from one to a
hundred rows, and the sentence is that of their encoded tokens. -/
theorem read_eq_some_iff {s : Sentence} :
    read options docid record = .ok (some s) ∧ s.note = none ↔
      ∃ rows, readRows 1 (numberedLines record) = .ok rows ∧ rows ≠ [] ∧
        rows.length ≤ tokenLimit ∧ s = Sentence.ofTokens docid (tokensOf options rows) := by
  have hfinish (rows : List Row) :
      (draft options docid record rows).finish = some s ∧ s.note = none ↔
        rows ≠ [] ∧ rows.length ≤ tokenLimit ∧
          s = Sentence.ofTokens docid (tokensOf options rows) := by
    rw [Draft.finish_eq_some_iff, ne_eq, tokens_draft_eq_nil_iff, length_tokens_draft, tokens_draft,
      text_draft]
    rfl
  simp only [read_eq_ok_iff, ← hfinish, ← exists_and_right, and_assoc]

end Records

end Corpus.Conll
