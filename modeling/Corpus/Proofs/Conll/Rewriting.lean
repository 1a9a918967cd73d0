import Corpus.Proofs.Conll.Reading
import Corpus.Proofs.Conll.Writing

/-!
# Reading and writing back

A record that is read as a sentence without a note is written back row by row: what the encodings
make of a token line, they undo in its row alone. Without encodings each row has the used columns of
its line in a fixed form.
-/

namespace Corpus.Conll

variable {options : Options} {docid : Option Text} {record line : Text} {s : Sentence}

/-! ### Row by row -/

/-- The token of a token line, before it is encoded and placed. -/
def tokenOf (line : Text) : Token := (Row.ofLine line).token

/-- The head of a row is written as the number in it, and as 0 when it is negative. -/
theorem writtenHead_token (row : Row) : writtenHead row.token.head = max row.head 0 := by
  simp only [Row.token]
  split
  · simp only [writtenHead]
    omega
  · simp only [writtenHead]
    omega

/-- A head that was read can be written. -/
theorem isWritable_token {row : Row}
    (h : (Numeral.ofNat row.head.natAbs).length ≤ Numeral.digitLimit) :
    IsWritable row.token.head := by
  rw [IsWritable, writtenHead_token]
  exact Nat.le_trans (Numeral.length_ofNat_le (by omega)) h

/-- **Rows read.** The rows of a record that is read as a sentence without a note. -/
theorem rows_of_read (hread : read options docid record = .ok (some s)) (hnote : s.note = none) :
    ∃ rows, rows = (tokenLines record).map (fun entry => Row.ofLine entry.1) ∧ rows ≠ [] ∧
      readRows 1 (numberedLines record) = .ok rows ∧ rows.length ≤ tokenLimit ∧
      s = Sentence.ofTokens docid (tokensOf options rows) ∧
      ∀ row ∈ rows, IsWritable row.token.head := by
  obtain ⟨rows, hrows, hne, hlen, hs⟩ := read_eq_some_iff.mp ⟨hread, hnote⟩
  obtain ⟨hlines, hlimit⟩ := readRows_eq_ok hrows
  exact ⟨rows, hlines, hne, hrows, hlen, hs, fun row hrow => isWritable_token (hlimit row hrow)⟩

/-- The tokens of the token lines of a record. -/
def lineTokens (record : Text) : List Token :=
  (tokenLines record).map fun entry => tokenOf entry.1

/-- The rows of the token lines of a record, encoded and decoded. -/
def rewrittenRows (options : Options) (record : Text) : List Text :=
  rowTexts 1 ((lineTokens record).map fun token => decode options (encode options token))

/-- **Writing back.** What a record is written as once it has been read as a sentence without a
note. -/
theorem write_of_read (hread : read options docid record = .ok (some s)) (hnote : s.note = none) :
    write options s = .ok (blockText (rewrittenRows options record)) := by
  obtain ⟨rows, hrows, -, -, -, rfl, hwritable⟩ := rows_of_read hread hnote
  have hheads : ∀ token ∈ tokensOf options rows, IsWritable token.head := by
    refine List.forall_mem_map.mpr fun row hrow => ?_
    rw [head_encode]
    exact hwritable row hrow
  rw [write_ofTokens hheads, rewrittenRows, lineTokens, tokensOf, hrows, List.map_map,
    List.map_map, List.map_map]
  rfl

/-- A record that is read as a sentence without a note has token lines. -/
theorem lineTokens_ne_nil_of_read (hread : read options docid record = .ok (some s))
    (hnote : s.note = none) : lineTokens record ≠ [] := by
  obtain ⟨rows, hrows, hne, -⟩ := rows_of_read hread hnote
  rw [hrows] at hne
  simpa [lineTokens] using hne

/-- A token line of a record has no line feed. -/
theorem lineFeed_not_mem_of_mem_tokenLines {entry : Text × Nat} (h : entry ∈ tokenLines record) :
    '\n' ∉ entry.1 :=
  not_mem_of_mem_splitOn (List.fst_mem_of_mem_zipIdx (List.mem_of_mem_filter h))

/-- The tokens of token lines are plain. -/
theorem isPlain_of_mem_lineTokens {token : Token} (h : token ∈ lineTokens record) :
    token.IsPlain := by
  obtain ⟨entry, hentry, rfl⟩ := List.mem_map.mp h
  exact isPlain_token_ofLine (lineFeed_not_mem_of_mem_tokenLines hentry)

/-- **Tokens read.** A sentence without a note is read with as many tokens as a record may have, all
of them plain. -/
theorem tokens_of_read (hread : read options docid record = .ok (some s)) (hnote : s.note = none) :
    s.tokens ≠ [] ∧ s.tokens.length ≤ tokenLimit ∧ ∀ token ∈ s.tokens, token.IsPlain := by
  obtain ⟨rows, hrows, hne, -, hlen, rfl, -⟩ := rows_of_read hread hnote
  have hcount := length_inPlace_tokensOf options rows
  refine ⟨?_, Nat.le_trans (Nat.le_of_eq hcount) hlen,
    (forall_mem_inPlace_iff isPlain_movedTo).mpr ?_⟩
  · rw [← List.length_pos_iff]
    exact hcount ▸ List.length_pos_iff.mpr hne
  · refine List.forall_mem_map.mpr fun row hrow => isPlain_encode ?_
    rw [hrows] at hrow
    obtain ⟨entry, hentry, rfl⟩ := List.mem_map.mp hrow
    exact isPlain_of_mem_lineTokens (List.mem_map_of_mem hentry)

/-! ### Without encodings -/

theorem rewrittenRows_default (record : Text) :
    rewrittenRows {} record = rowTexts 1 (lineTokens record) :=
  congrArg (rowTexts 1) (List.map_id' (lineTokens record))

/-- A piece of a feature field as it is written back: dropped when its value is empty, and only its
name when its value is `on`. -/
def rewrittenPiece? (piece : Text) : Option Text :=
  match breakAt '=' piece with
  | none => some piece
  | some (name, value) =>
    if value = [] then none else if value = defaultValue then some name else some piece

/-- A feature field as it is written back. -/
def rewrittenFeatures (field : Text) : Text :=
  let kept := (pieces field).filterMap rewrittenPiece?
  if field = [] ∨ field = ['_'] ∨ kept = [] then ['_'] else Text.joined ['|'] kept

/-- **The fields of a token line as they are written back.** Its number, its used columns in their
written form, and underscores for the other ones. -/
def rewrittenFields (number : Nat) (line : Text) : List Text :=
  [Numeral.ofNat number, writtenField (column 1 line), ['_'], writtenField (column 3 line),
   writtenField (column 4 line), rewrittenFeatures (column 5 line),
   Numeral.ofInt (max (numberIn (cleared (column 6 line))) 0), writtenField (column 7 line),
   ['_'], ['_']]

theorem rewrittenPiece?_of_not_mem {piece : Text} (h : '=' ∉ piece) :
    rewrittenPiece? piece = some piece := by
  rw [rewrittenPiece?, breakAt_eq_none_iff.mpr h]

theorem rewrittenPiece?_append {name : Text} (h : '=' ∉ name) (value : Text) :
    rewrittenPiece? (name ++ '=' :: value) =
      if value = [] then none
      else if value = defaultValue then some name else some (name ++ '=' :: value) := by
  rw [rewrittenPiece?, breakAt_eq_some_iff.mpr ⟨rfl, h⟩]

/-- What a piece spells is written as the rewritten piece. -/
theorem map_writtenPiece_attributeOfPiece? (piece : Text) :
    (attributeOfPiece? piece).map writtenPiece = rewrittenPiece? piece := by
  rcases piece_cases piece with hequals | ⟨name, value, rfl, hname⟩
  · rw [attributeOfPiece?_of_not_mem hequals, rewrittenPiece?_of_not_mem hequals, Option.map_some,
      writtenPiece, if_pos rfl]
  · rw [attributeOfPiece?_append hname, rewrittenPiece?_append hname]
    split
    · rfl
    · rw [Option.map_some, writtenPiece]
      split <;> rfl

/-- The written attributes of a field are its rewritten pieces. -/
theorem map_writtenPiece_readAttributes (field : Text) :
    (readAttributes field).map writtenPiece = (pieces field).filterMap rewrittenPiece? := by
  rw [readAttributes, List.map_filterMap]
  exact List.filterMap_congr fun piece _ => map_writtenPiece_attributeOfPiece? piece

/-- **The feature column.** The attributes in a column are written as the rewritten features. -/
theorem writeAttributes_attributesIn (field : Text) :
    writeAttributes (attributesIn field) = rewrittenFeatures field := by
  by_cases hfield : field = [] ∨ field = ['_']
  · rw [attributesIn, if_pos (cleared_eq_nil_iff.mpr hfield), rewrittenFeatures,
      if_pos (hfield.elim .inl fun h => .inr (.inl h))]
    rfl
  · have hcleared : cleared field = field := if_neg fun h => hfield (.inr h)
    have hmap := map_writtenPiece_readAttributes field
    rw [attributesIn, if_neg (mt cleared_eq_nil_iff.mp hfield), hcleared, writeAttributes,
      rewrittenFeatures, ← hmap]
    simp only [List.map_eq_nil_iff, not_or.mp hfield, false_or]

theorem writtenField_cleared (field : Text) :
    writtenField (cleared field) = writtenField field := by
  by_cases hopen : field = ['_']
  · rw [hopen]
    rfl
  · rw [cleared, if_neg hopen]

/-- **The row of a token line.** -/
theorem fieldsOf_tokenOf (number : Nat) (line : Text) :
    fieldsOf number (tokenOf line) = rewrittenFields number line := by
  have hattributes : (tokenOf line).attributes = attributesIn (column 5 line) := rfl
  have hhead : writtenHead (tokenOf line).head = max (numberIn (cleared (column 6 line))) 0 :=
    writtenHead_token (Row.ofLine line)
  rw [fieldsOf, rowFields, hattributes, writeAttributes_attributesIn, hhead, tokenOf,
    Row.category_token, Row.tag_token, Row.label_token]
  simp only [Row.ofLine, Row.token, writtenField_cleared, rewrittenFields]

/-- The rows of plain tokens split into the fields of the tokens. -/
theorem map_fields_rowTexts (number : Nat) {tokens : List Token}
    (h : ∀ token ∈ tokens, token.IsPlain) :
    (rowTexts number tokens).map fields =
      (tokens.zipIdx number).map fun entry => fieldsOf entry.2 entry.1 := by
  rw [rowTexts, List.map_map]
  exact List.map_congr_left fun entry hentry =>
    fields_rowText (h entry.1 (List.fst_mem_of_mem_zipIdx hentry))

/-- **Reading and writing back without encodings.** A record that is read as a sentence without a
note is written back as one row for each of its token lines, in their order, and an empty line. The
rows split into the rewritten fields of the token lines. -/
theorem write_read_eq_rewritten (hread : read {} docid record = .ok (some s))
    (hnote : s.note = none) :
    ∃ rows : List Text,
      write {} s = .ok (Text.joined ['\n'] rows ++ ['\n', '\n']) ∧
      (∀ row ∈ rows, '\n' ∉ row) ∧
      rows.map fields =
        ((tokenLines record).zipIdx 1).map fun entry => rewrittenFields entry.2 entry.1.1 := by
  have hplain : ∀ token ∈ lineTokens record, token.IsPlain :=
    fun _ htoken => isPlain_of_mem_lineTokens htoken
  refine ⟨rowTexts 1 (lineTokens record), ?_,
    fun row hrow => lineFeed_not_mem_of_mem_rowTexts hplain hrow, ?_⟩
  · rw [write_of_read hread hnote, rewrittenRows_default]
    rfl
  · rw [map_fields_rowTexts 1 hplain, lineTokens, List.zipIdx_map, List.map_map]
    exact List.map_congr_left fun entry _ => fieldsOf_tokenOf entry.2 entry.1.1

/-- A record with a comment, a range, an empty line, dropped and shortened pieces of features, heads
with a sign and with zeros, and empty columns. -/
def oddRecord : Text :=
  ("# c\n1-2\tab\n\n01\ta\tl\tN\t_\tg=|x=on|y|a=b=c\t-3\t_\tz\n" ++
    "2\t\t_\t\t++\t=\t0007\tr\n").toList

/-- What the odd record is read as. -/
def oddSentence : Sentence :=
  { docid := none
    text := ['a', ' ']
    tokens :=
      [{ word := ['a'], start := 0, last := 0, category := some ['N']
         attributes := [⟨['x'], defaultValue⟩, ⟨['y'], defaultValue⟩, ⟨['a'], "b=c".toList⟩] },
       { word := [], start := 2, last := 1, tag := some ['+', '+'], label := some ['r']
         head := some 6 }] }

/-- The rows of the odd record as it is written back. -/
theorem write_read_oddRecord :
    read {} none oddRecord = .ok (some oddSentence) ∧ oddSentence.note = none ∧
      ∃ rows : List Text,
        write {} oddSentence = .ok (Text.joined ['\n'] rows ++ ['\n', '\n']) ∧
        (∀ row ∈ rows, '\n' ∉ row) ∧
        rows.map fields =
          ["1 a _ N _ x|y|a=b=c 0 _ _ _", "2 _ _ _ ++ _ 7 r _ _"].map fun row =>
            List.splitOn ' ' row.toList := by
  have hread : read {} none oddRecord = .ok (some oddSentence) := by rfl
  obtain ⟨rows, hwrite, hlines, hrows⟩ := write_read_eq_rewritten hread rfl
  exact ⟨hread, rfl, rows, hwrite, hlines, hrows.trans (by decide)⟩

end Corpus.Conll
