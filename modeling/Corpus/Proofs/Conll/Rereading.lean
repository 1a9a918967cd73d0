import Corpus.Proofs.Conll.Reading
import Corpus.Proofs.Conll.Writing
import Corpus.Proofs.Record.Block

/-!
# Reading what was written

* The row of a plain token with a writable head is a token line, and is read as the row of its
  written fields, whatever the token is.
* The rows that a sentence without a note is written as and the empty line after them are one block.
  Its record is read as the tokens of these rows.
-/

namespace Corpus.Conll

variable {token : Token} {number : Nat}

/-! ### One row -/

/-- **The row read back.** What is read from the row of a token. -/
def rereadRow (token : Token) : Row :=
  { word := writtenField token.word
    category := cleared (writtenField (token.category.getD []))
    tag := cleared (writtenField (token.tag.getD []))
    features := cleared (writeAttributes token.attributes)
    head := writtenHead token.head
    label := cleared (writtenField (token.label.getD [])) }

/-- A number that was written is read back. -/
theorem readNumber_ofInt {field : NumberField} {n : Int}
    (h : (Numeral.ofNat n.natAbs).length ≤ Numeral.digitLimit) :
    readNumber field (Numeral.ofInt n) = .ok n := by
  rw [readNumber, if_neg (Numeral.ofInt_ne_nil n), if_pos (Numeral.isInteger_ofInt n),
    Numeral.read_ofInt h]

theorem cleared_ofInt (n : Int) : cleared (Numeral.ofInt n) = Numeral.ofInt n := by
  refine if_neg fun hopen => ?_
  have hmem : '_' ∈ Numeral.ofInt n := by
    rw [hopen]
    exact List.mem_singleton_self _
  rcases Numeral.isDigit_or_eq_of_mem_ofInt hmem with h | h
  · exact absurd h (by decide)
  · exact absurd h (by decide)

/-- The row of a token is a token line. -/
theorem ofText_rowText (h : token.IsPlain) :
    Line.ofText (rowText number token) = .row (fieldsOf number token) := by
  rw [ofText_eq_row_iff, fields_rowText h]
  have hcolumn : column 0 (rowText number token) = Numeral.ofNat number := by
    rw [column, fields_rowText h]
    rfl
  have hdigits : Numeral.IsDigits (column 0 (rowText number token)) := by
    rw [hcolumn]
    exact Numeral.isDigits_ofNat number
  exact ⟨isTokenLine_of_isDigits hdigits, rfl⟩

/-- **Reading a written row.** -/
theorem ofFields_fieldsOf (hnumber : (Numeral.ofNat number).length ≤ Numeral.digitLimit)
    (hhead : IsWritable token.head) :
    Row.ofFields number (fieldsOf number token) = .ok (rereadRow token) := by
  have hid : readNumber .tokenId (Numeral.ofNat number) = .ok (number : Int) :=
    readNumber_ofInt (n := (number : Int)) hnumber
  have hhead' : readNumber .head (cleared (Numeral.ofInt (writtenHead token.head))) =
      .ok (writtenHead token.head) := by
    rw [cleared_ofInt]
    exact readNumber_ofInt hhead
  simp only [Row.ofFields, fieldsOf, rowFields, hid, hhead', ne_eq, not_true_eq_false, if_false,
    rereadRow]

/-! ### All rows -/

/-- **Rows read back.** Written rows and a last empty line are read as the rows of the tokens. -/
theorem readRows_rowTexts {tokens : List Token} {place : Nat}
    (hnumber : (Numeral.ofNat (number + tokens.length)).length ≤ Numeral.digitLimit)
    (hplain : ∀ token ∈ tokens, token.IsPlain)
    (hhead : ∀ token ∈ tokens, IsWritable token.head) :
    readRows number ((rowTexts number tokens ++ [[]]).zipIdx place) =
      .ok (tokens.map rereadRow) := by
  induction tokens generalizing number place with
  | nil => rfl
  | cons token tokens ih =>
    obtain ⟨hplain, hplains⟩ := List.forall_mem_cons.mp hplain
    obtain ⟨hhead, hheads⟩ := List.forall_mem_cons.mp hhead
    have hfirst : (Numeral.ofNat number).length ≤ Numeral.digitLimit :=
      Nat.le_trans (Numeral.length_ofNat_le (Nat.le_add_right ..)) hnumber
    have hrest : number + 1 + tokens.length = number + (token :: tokens).length := by
      rw [List.length_cons]
      omega
    rw [rowTexts_cons, List.cons_append, List.zipIdx_cons, readRows, ofText_rowText hplain]
    simp only [ofFields_fieldsOf hfirst hhead, ih (hrest ▸ hnumber) hplains hheads]
    rfl

/-! ### The block -/

theorem exists_rowText_eq_append (number : Nat) (token : Token) :
    ∃ before, rowText number token = before ++ ['_'] := by
  have hne : (fieldsOf number token).dropLast ≠ [] := List.cons_ne_nil _ _
  refine ⟨Text.joined ['\t'] (fieldsOf number token).dropLast ++ ['\t'], ?_⟩
  rw [List.append_assoc]
  exact Text.joined_append_singleton hne ['_']

/-- **Rows are record lines.** They end in an underscore, so that no carriage return of theirs is
dropped. -/
theorem isRecordLine_rowText (h : '\n' ∉ token.shown) : IsRecordLine (rowText number token) := by
  obtain ⟨before, hrow⟩ := exists_rowText_eq_append number token
  refine ⟨?_, lineFeed_not_mem_rowText h, ?_⟩
  · rw [hrow]
    exact List.append_ne_nil_of_right_ne_nil _ (List.cons_ne_nil _ _)
  · rw [hrow, List.getLast?_concat]
    decide

/-- The rows of tokens that show no line feed are record lines. -/
theorem isRecordLine_of_mem_rowTexts {tokens : List Token}
    (h : ∀ token ∈ tokens, '\n' ∉ token.shown) {line : Text}
    (hline : line ∈ rowTexts number tokens) : IsRecordLine line := by
  obtain ⟨⟨token, k⟩, hentry, rfl⟩ := List.mem_map.mp hline
  exact isRecordLine_rowText (h token (List.fst_mem_of_mem_zipIdx hentry))

theorem blockText_eq_blockOf {rows : List Text} (hne : rows ≠ []) : blockText rows = blockOf rows := by
  rw [blockText, blockOf_eq, ← Text.joined_append_lineFeed hne, List.append_assoc]
  rfl

/-- **Reading the written block.** -/
theorem readRecord_blockText {tokens : List Token} (hne : tokens ≠ [])
    (h : ∀ token ∈ tokens, token.IsPlain) :
    ((Stream.text (blockText (rowTexts 1 tokens))).readRecord .block).record =
      (rowTexts 1 tokens).flatMap (· ++ ['\n']) := by
  have hrows : rowTexts 1 tokens ≠ [] := by simpa [rowTexts] using hne
  have hlines : ∀ row ∈ rowTexts 1 tokens, IsRecordLine row :=
    fun row hrow =>
      isRecordLine_of_mem_rowTexts (fun token htoken => (h token htoken).lineFeed_not_mem) hrow
  rw [blockText_eq_blockOf hrows, Stream.record_blockOf hlines]

/-- The lines of the written block are the rows and an empty last line. -/
theorem readRows_record {tokens : List Token} (hlen : tokens.length ≤ tokenLimit)
    (hplain : ∀ token ∈ tokens, token.IsPlain)
    (hhead : ∀ token ∈ tokens, IsWritable token.head) :
    readRows 1 (numberedLines ((rowTexts 1 tokens).flatMap (· ++ ['\n']))) =
      .ok (tokens.map rereadRow) := by
  have hnumber : (Numeral.ofNat (1 + tokens.length)).length ≤ Numeral.digitLimit :=
    Nat.le_trans (Numeral.length_ofNat_le (Nat.add_le_add_left hlen 1)) (by decide)
  rw [numberedLines,
    Text.splitOn_lines fun _ hrow => lineFeed_not_mem_of_mem_rowTexts hplain hrow]
  exact readRows_rowTexts hnumber hplain hhead

end Corpus.Conll
