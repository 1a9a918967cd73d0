import Corpus.Conll.Writer
import Corpus.Proofs.Conll.Attributes
import Corpus.Proofs.Conll.Encoding
import Corpus.Proofs.Conll.TokenLine

/-!
# What a sentence is written as

* A sentence without a note is written as one row for each decoded token and an empty line, as long
  as its heads can be written. The places of the tokens do not matter.
* A text is plain when it has neither tab nor line feed. The columns of the lines of a record are
  plain, the encodings keep tokens plain, and the rows of plain tokens can be told apart again.
* A row holds what is shown of its token and few characters more, none of them a line feed. So a row is
  one line whenever the token shows no line feed, plain or not.
-/

namespace Corpus

/-- **Plain text.** A text that can stand in a field: it has neither tab nor line feed. -/
structure Text.IsPlain (text : Text) : Prop where
  tab_not_mem : '\t' ∉ text
  lineFeed_not_mem : '\n' ∉ text

instance (text : Text) : Decidable text.IsPlain :=
  decidable_of_iff ('\t' ∉ text ∧ '\n' ∉ text)
    ⟨fun h => ⟨h.1, h.2⟩, fun h => ⟨h.tab_not_mem, h.lineFeed_not_mem⟩⟩

/-- **Plain token.** A token of which everything that is written is plain. -/
structure Token.IsPlain (token : Token) : Prop where
  word : Text.IsPlain token.word
  category : Text.IsPlain (token.category.getD [])
  tag : Text.IsPlain (token.tag.getD [])
  label : Text.IsPlain (token.label.getD [])
  attributes : ∀ feature ∈ token.attributes,
    Text.IsPlain feature.name ∧ Text.IsPlain feature.value

instance (token : Token) : Decidable token.IsPlain :=
  decidable_of_iff
    (Text.IsPlain token.word ∧ Text.IsPlain (token.category.getD []) ∧
      Text.IsPlain (token.tag.getD []) ∧ Text.IsPlain (token.label.getD []) ∧
      ∀ feature ∈ token.attributes, Text.IsPlain feature.name ∧ Text.IsPlain feature.value)
    ⟨fun ⟨hword, hcategory, htag, hlabel, hattributes⟩ =>
        ⟨hword, hcategory, htag, hlabel, hattributes⟩,
      fun h => ⟨h.word, h.category, h.tag, h.label, h.attributes⟩⟩

/-- **What is shown of a token**: all that is written of it but its head. -/
def Token.shown (token : Token) : Text :=
  token.word ++ token.category.getD [] ++ token.tag.getD [] ++ token.label.getD [] ++
    token.attributes.flatMap fun feature => feature.name ++ feature.value

theorem Token.mem_shown {token : Token} {c : Char} :
    c ∈ token.shown ↔ c ∈ token.word ∨ c ∈ token.category.getD [] ∨ c ∈ token.tag.getD [] ∨
      c ∈ token.label.getD [] ∨
        ∃ feature ∈ token.attributes, c ∈ feature.name ∨ c ∈ feature.value := by
  simp only [shown, List.mem_append, List.mem_flatMap, or_assoc]

theorem Token.not_mem_shown {token : Token} {c : Char} :
    c ∉ token.shown ↔ c ∉ token.word ∧ c ∉ token.category.getD [] ∧ c ∉ token.tag.getD [] ∧
      c ∉ token.label.getD [] ∧
        ∀ feature ∈ token.attributes, c ∉ feature.name ∧ c ∉ feature.value := by
  simp only [mem_shown, not_or, not_exists, not_and]

/-- A token is plain when what is shown of it is. -/
theorem Token.isPlain_shown_iff {token : Token} : Text.IsPlain token.shown ↔ token.IsPlain := by
  constructor
  · intro h
    obtain ⟨hword, hcategory, htag, hlabel, hattributes⟩ := not_mem_shown.mp h.tab_not_mem
    obtain ⟨hword', hcategory', htag', hlabel', hattributes'⟩ := not_mem_shown.mp h.lineFeed_not_mem
    exact ⟨⟨hword, hword'⟩, ⟨hcategory, hcategory'⟩, ⟨htag, htag'⟩, ⟨hlabel, hlabel'⟩,
      fun feature hfeature =>
        ⟨⟨(hattributes feature hfeature).1, (hattributes' feature hfeature).1⟩,
          ⟨(hattributes feature hfeature).2, (hattributes' feature hfeature).2⟩⟩⟩
  · rintro ⟨hword, hcategory, htag, hlabel, hattributes⟩
    exact ⟨not_mem_shown.mpr ⟨hword.1, hcategory.1, htag.1, hlabel.1,
        fun feature hfeature =>
          ⟨(hattributes feature hfeature).1.1, (hattributes feature hfeature).2.1⟩⟩,
      not_mem_shown.mpr ⟨hword.2, hcategory.2, htag.2, hlabel.2,
        fun feature hfeature =>
          ⟨(hattributes feature hfeature).1.2, (hattributes feature hfeature).2.2⟩⟩⟩

theorem Token.IsPlain.lineFeed_not_mem {token : Token} (h : token.IsPlain) : '\n' ∉ token.shown :=
  (isPlain_shown_iff.mpr h).lineFeed_not_mem

namespace Text

/-- Part of a plain text is plain. -/
theorem IsPlain.of_subset {a b : Text} (h : IsPlain b) (hsub : a ⊆ b) : IsPlain a :=
  ⟨fun hmem => h.tab_not_mem (hsub hmem), fun hmem => h.lineFeed_not_mem (hsub hmem)⟩

theorem isPlain_nil : IsPlain [] := ⟨List.not_mem_nil, List.not_mem_nil⟩

theorem isPlain_append {a b : Text} : IsPlain (a ++ b) ↔ IsPlain a ∧ IsPlain b := by
  constructor
  · intro h
    exact ⟨h.of_subset (List.subset_append_left ..), h.of_subset (List.subset_append_right ..)⟩
  · rintro ⟨ha, hb⟩
    exact ⟨List.not_mem_append ha.tab_not_mem hb.tab_not_mem,
      List.not_mem_append ha.lineFeed_not_mem hb.lineFeed_not_mem⟩

/-- What stands neither in the separator nor in the pieces does not stand in their join. -/
theorem not_mem_joined {sep c : Char} {parts : List Text} (hsep : c ≠ sep)
    (h : ∀ piece ∈ parts, c ∉ piece) : c ∉ joined [sep] parts := by
  intro hmem
  rcases mem_of_mem_joined hmem with hc | ⟨piece, hpiece, hc⟩
  · exact hsep hc
  · exact h piece hpiece hc

end Text

namespace Conll

open Text (IsPlain isPlain_nil isPlain_append)

variable {options : Options} {token : Token}

/-! ### Columns are plain -/

/-- A column is part of its line. -/
theorem column_subset (n : Nat) (line : Text) : column n line ⊆ line := by
  rw [column]
  cases h : (fields line)[n]? with
  | none => exact List.nil_subset line
  | some field => exact fun _ hc => Text.mem_of_mem_splitOn (List.mem_of_getElem? h) hc

/-- No column holds a tab. -/
theorem tab_not_mem_column (n : Nat) (line : Text) : '\t' ∉ column n line := by
  rw [column]
  cases h : (fields line)[n]? with
  | none => exact List.not_mem_nil
  | some field => exact not_mem_of_mem_splitOn (List.mem_of_getElem? h)

/-- A column of a line without a line feed is plain. -/
theorem isPlain_column {line : Text} (hline : '\n' ∉ line) (n : Nat) : IsPlain (column n line) :=
  ⟨tab_not_mem_column n line, fun hc => hline (column_subset n line hc)⟩

theorem isPlain_cleared {field : Text} (h : IsPlain field) : IsPlain (cleared field) := by
  rw [cleared]
  split
  · exact isPlain_nil
  · exact h

/-- The parts of an attribute stand in the piece that spells it, or are the default value. -/
theorem isPlain_of_attributeOfPiece? {piece : Text} {feature : Attribute} (h : IsPlain piece)
    (hfeature : attributeOfPiece? piece = some feature) :
    IsPlain feature.name ∧ IsPlain feature.value := by
  rcases piece_cases piece with hequals | ⟨name, value, rfl, hname⟩
  · rw [attributeOfPiece?_of_not_mem hequals] at hfeature
    obtain rfl := Option.some.inj hfeature
    exact ⟨h, (by decide : IsPlain defaultValue)⟩
  · rw [attributeOfPiece?_append hname] at hfeature
    split at hfeature
    · cases hfeature
    · obtain rfl := Option.some.inj hfeature
      exact ⟨(isPlain_append.mp h).1, (isPlain_append.mp h).2.of_subset (List.subset_cons_self ..)⟩

theorem isPlain_of_mem_attributesIn {field : Text} {feature : Attribute} (h : IsPlain field)
    (hfeature : feature ∈ attributesIn field) : IsPlain feature.name ∧ IsPlain feature.value := by
  rw [attributesIn] at hfeature
  split at hfeature
  · cases hfeature
  · obtain ⟨piece, hpiece, hpart⟩ := List.mem_filterMap.mp hfeature
    have hplain : IsPlain piece :=
      (isPlain_cleared h).of_subset fun _ hc => Text.mem_of_mem_splitOn hpiece hc
    exact isPlain_of_attributeOfPiece? hplain hpart

/-- **Tokens read are plain.** -/
theorem isPlain_token_ofLine {line : Text} (hline : '\n' ∉ line) :
    (Row.ofLine line).token.IsPlain where
  word := isPlain_column hline 1
  category := by
    rw [Row.category_token]
    exact isPlain_cleared (isPlain_column hline 3)
  tag := by
    rw [Row.tag_token]
    exact isPlain_cleared (isPlain_column hline 4)
  label := by
    rw [Row.label_token]
    exact isPlain_cleared (isPlain_column hline 7)
  attributes _ h := isPlain_of_mem_attributesIn (isPlain_column hline 5) h

theorem isPlain_movedTo (place token : Token) : (place.movedTo token).IsPlain ↔ token.IsPlain :=
  ⟨fun h => ⟨h.word, h.category, h.tag, h.label, h.attributes⟩,
    fun h => ⟨h.word, h.category, h.tag, h.label, h.attributes⟩⟩

/-! ### The encodings keep tokens plain -/

theorem isPlain_joinCategory (h : token.IsPlain) : (joinCategory token).IsPlain where
  word := h.word
  category := isPlain_nil
  tag := isPlain_append.mpr
    ⟨isPlain_append.mpr ⟨h.category, (by decide : IsPlain categorySeparator)⟩, h.tag⟩
  label := h.label
  attributes := h.attributes

theorem isPlain_addPos (h : token.IsPlain) : (addPos token).IsPlain := by
  rw [addPos]
  split
  · exact h
  · exact h
  · rename_i tag _ htag
    have hplain : IsPlain tag := by
      have h := h.tag
      rwa [htag] at h
    refine ⟨h.word, h.category, h.tag, h.label, fun feature hfeature => ?_⟩
    rcases List.mem_append.mp hfeature with hmem | hmem
    · exact h.attributes feature hmem
    · rw [List.mem_singleton.mp hmem]
      exact ⟨(by decide : IsPlain posAttribute), hplain⟩

/-- **Encoding keeps tokens plain.** -/
theorem isPlain_encode (h : token.IsPlain) : (encode options token).IsPlain := by
  obtain ⟨join, add⟩ := options
  cases join <;> cases add
  · exact h
  · exact isPlain_addPos h
  · exact isPlain_joinCategory h
  · exact isPlain_addPos (isPlain_joinCategory h)

/-- What is shown of a split tag was shown of the joined one. -/
theorem shown_splitCategory_subset (token : Token) :
    (splitCategory token).shown ⊆ token.shown := by
  rw [splitCategory]
  split
  · rename_i category tag hbreak
    have htag := (Text.eq_append_of_breakOn hbreak).1
    intro c hc
    rw [Token.mem_shown, htag, List.mem_append, List.mem_append]
    rcases Token.mem_shown.mp hc with hc | hc | hc | hc
    · exact .inl hc
    · exact .inr (.inr (.inl (.inl hc)))
    · exact .inr (.inr (.inl (.inr (.inr hc))))
    · exact .inr (.inr (.inr hc))
  · exact List.Subset.refl _

theorem shown_removePos_subset (token : Token) : (removePos token).shown ⊆ token.shown := by
  rw [removePos]
  split
  · refine List.append_subset.mpr ⟨List.subset_append_left _ _, fun c hc => ?_⟩
    obtain ⟨feature, hfeature, hc⟩ := List.mem_flatMap.mp hc
    have hfeature := List.dropLast_subset _ hfeature
    exact List.mem_append_right _ (List.mem_flatMap.mpr ⟨feature, hfeature, hc⟩)
  · exact List.Subset.refl _

/-- **Decoding shows nothing new.** -/
theorem shown_decode_subset (options : Options) (token : Token) :
    (decode options token).shown ⊆ token.shown := by
  obtain ⟨join, add⟩ := options
  cases join <;> cases add
  · exact List.Subset.refl _
  · exact shown_removePos_subset token
  · exact shown_splitCategory_subset token
  · exact List.Subset.trans (shown_removePos_subset _) (shown_splitCategory_subset token)

/-- **Decoding keeps tokens plain.** -/
theorem isPlain_decode (h : token.IsPlain) : (decode options token).IsPlain :=
  Token.isPlain_shown_iff.mp
    ((Token.isPlain_shown_iff.mpr h).of_subset (shown_decode_subset options token))

/-! ### Rows -/

/-- A head whose number in a row keeps to the digit limit. -/
def IsWritable (head : Option Int) : Prop :=
  (Numeral.ofNat (writtenHead head).natAbs).length ≤ Numeral.digitLimit

/-- The fields of the row of a decoded token. -/
def fieldsOf (number : Nat) (token : Token) : List Text :=
  rowFields number token (Numeral.ofInt (writtenHead token.head))

/-- **The row of a decoded token.** -/
def rowText (number : Nat) (token : Token) : Text := Text.joined ['\t'] (fieldsOf number token)

/-- The rows of decoded tokens, numbered from `number` on. -/
def rowTexts (number : Nat) (tokens : List Token) : List Text :=
  (tokens.zipIdx number).map fun entry => rowText entry.2 entry.1

theorem rowTexts_cons (number : Nat) (token : Token) (tokens : List Token) :
    rowTexts number (token :: tokens) = rowText number token :: rowTexts (number + 1) tokens := rfl

/-- The characters that fields are written with beside what is shown of the tokens. -/
def isRowCharacter (c : Char) : Bool := c.isDigit || "-_|=".toList.contains c

theorem isRowCharacter_of_mem_ofInt {n : Int} {c : Char} (h : c ∈ Numeral.ofInt n) :
    isRowCharacter c = true := by
  rcases Numeral.isDigit_or_eq_of_mem_ofInt h with h | rfl
  · rw [isRowCharacter, h, Bool.true_or]
  · decide

theorem mem_of_mem_writtenField {field : Text} {c : Char} (h : c ∈ writtenField field) :
    c = '_' ∨ c ∈ field := by
  rw [writtenField] at h
  split at h
  · exact .inl (List.mem_singleton.mp h)
  · exact .inr h

theorem mem_of_mem_writtenPiece {feature : Attribute} {c : Char} (h : c ∈ writtenPiece feature) :
    c = '=' ∨ c ∈ feature.name ∨ c ∈ feature.value := by
  rw [writtenPiece] at h
  split at h
  · exact .inr (.inl h)
  · rcases List.mem_append.mp h with h | h
    · exact .inr (.inl h)
    · exact (List.mem_cons.mp h).imp_right .inr

theorem mem_of_mem_writeAttributes {attributes : List Attribute} {c : Char}
    (h : c ∈ writeAttributes attributes) :
    isRowCharacter c = true ∨
      ∃ feature ∈ attributes, c ∈ feature.name ∨ c ∈ feature.value := by
  rw [writeAttributes] at h
  split at h
  · exact .inl (List.mem_singleton.mp h ▸ by decide)
  · rcases Text.mem_of_mem_joined h with rfl | ⟨piece, hpiece, hc⟩
    · exact .inl (by decide)
    · obtain ⟨feature, hfeature, rfl⟩ := List.mem_map.mp hpiece
      rcases mem_of_mem_writtenPiece hc with rfl | hc
      · exact .inl (by decide)
      · exact .inr ⟨feature, hfeature, hc⟩

/-- **The characters of a field.** -/
theorem mem_of_mem_fieldsOf {number : Nat} {field : Text} {c : Char}
    (hfield : field ∈ fieldsOf number token) (hc : c ∈ field) :
    isRowCharacter c = true ∨ c ∈ token.shown := by
  have hwritten {part : Text} (hc : c ∈ writtenField part) (hpart : ∀ d ∈ part, d ∈ token.shown) :
      isRowCharacter c = true ∨ c ∈ token.shown := by
    rcases mem_of_mem_writtenField hc with rfl | hc
    · exact .inl (by decide)
    · exact .inr (hpart c hc)
  have hunderscore (hc : c ∈ ['_']) : isRowCharacter c = true :=
    List.mem_singleton.mp hc ▸ by decide
  simp only [fieldsOf, rowFields, List.mem_cons, List.not_mem_nil, or_false] at hfield
  rcases hfield with rfl | rfl | rfl | rfl | rfl | rfl | rfl | rfl | rfl | rfl
  · exact .inl (isRowCharacter_of_mem_ofInt (n := (number : Int)) hc)
  · exact hwritten hc fun d hd => Token.mem_shown.mpr (.inl hd)
  · exact .inl (hunderscore hc)
  · exact hwritten hc fun d hd => Token.mem_shown.mpr (.inr (.inl hd))
  · exact hwritten hc fun d hd => Token.mem_shown.mpr (.inr (.inr (.inl hd)))
  · rcases mem_of_mem_writeAttributes hc with hc | hc
    · exact .inl hc
    · exact .inr (Token.mem_shown.mpr (.inr (.inr (.inr (.inr hc)))))
  · exact .inl (isRowCharacter_of_mem_ofInt hc)
  · exact hwritten hc fun d hd => Token.mem_shown.mpr (.inr (.inr (.inr (.inl hd))))
  · exact .inl (hunderscore hc)
  · exact .inl (hunderscore hc)

/-- **The fields of a row are plain.** -/
theorem isPlain_of_mem_fieldsOf {number : Nat} (h : token.IsPlain) {field : Text}
    (hfield : field ∈ fieldsOf number token) : IsPlain field := by
  have hshown := Token.isPlain_shown_iff.mpr h
  constructor
  · intro hc
    rcases mem_of_mem_fieldsOf hfield hc with hc | hc
    · exact absurd hc (by decide)
    · exact hshown.tab_not_mem hc
  · intro hc
    rcases mem_of_mem_fieldsOf hfield hc with hc | hc
    · exact absurd hc (by decide)
    · exact hshown.lineFeed_not_mem hc

theorem fieldsOf_ne_nil (number : Nat) (token : Token) : fieldsOf number token ≠ [] :=
  List.cons_ne_nil _ _

/-- **A row splits into its fields.** -/
theorem fields_rowText {number : Nat} (h : token.IsPlain) :
    fields (rowText number token) = fieldsOf number token :=
  Text.splitOn_joined (fieldsOf_ne_nil number token)
    fun _ hfield => (isPlain_of_mem_fieldsOf h hfield).tab_not_mem

/-- A row breaks no line when what is shown of the token does not. -/
theorem lineFeed_not_mem_rowText {number : Nat} (h : '\n' ∉ token.shown) :
    '\n' ∉ rowText number token := by
  refine Text.not_mem_joined (by decide) fun field hfield hc => ?_
  rcases mem_of_mem_fieldsOf hfield hc with hc | hc
  · exact absurd hc (by decide)
  · exact h hc

theorem lineFeed_not_mem_of_mem_rowTexts {tokens : List Token} {number : Nat}
    (h : ∀ token ∈ tokens, token.IsPlain) {row : Text} (hrow : row ∈ rowTexts number tokens) :
    '\n' ∉ row := by
  obtain ⟨⟨token, k⟩, hentry, rfl⟩ := List.mem_map.mp hrow
  exact lineFeed_not_mem_rowText (h token (List.fst_mem_of_mem_zipIdx hentry)).lineFeed_not_mem

/-! ### Sentences -/

/-- **The text of rows.** A line for each of them, and an empty line. -/
def blockText (rows : List Text) : Text := Text.joined ['\n'] rows ++ ['\n', '\n']

/-- A row is written when its head is writable. -/
theorem writeRow_eq_ok (number : Nat) (h : IsWritable token.head) :
    writeRow options number token = .ok (rowText number (decode options token)) := by
  have hwrite : Numeral.write (writtenHead (decode options token).head) =
      .ok (Numeral.ofInt (writtenHead (decode options token).head)) := by
    rw [head_decode]
    exact if_pos h
  rw [writeRow, hwrite]
  rfl

/-- The rows of tokens are written when all heads are writable. -/
theorem writeRows_eq_ok (number : Nat) {tokens : List Token}
    (h : ∀ token ∈ tokens, IsWritable token.head) :
    writeRows options number tokens = .ok (rowTexts number (tokens.map (decode options))) := by
  induction tokens generalizing number with
  | nil => rfl
  | cons token tokens ih =>
    obtain ⟨htoken, htokens⟩ := List.forall_mem_cons.mp h
    rw [writeRows, writeRow_eq_ok number htoken, ih (number + 1) htokens]
    rfl

theorem eq_rowText_of_writeRow {number : Nat} {row : Text}
    (h : writeRow options number token = .ok row) : row = rowText number (decode options token) := by
  rw [writeRow] at h
  cases hhead : Numeral.write (writtenHead (decode options token).head) with
  | error fault =>
    simp only [hhead] at h
    cases h
  | ok head =>
    simp only [hhead] at h
    rw [rowText, fieldsOf, ← Numeral.eq_ofInt_of_write hhead]
    exact (Except.ok.inj h).symm

/-- The rows that are written are those of the decoded tokens. -/
theorem eq_rowTexts_of_writeRows {number : Nat} {tokens : List Token} {rows : List Text}
    (h : writeRows options number tokens = .ok rows) :
    rows = rowTexts number (tokens.map (decode options)) := by
  induction tokens generalizing number rows with
  | nil => exact (Except.ok.inj h).symm
  | cons token tokens ih =>
    rw [writeRows] at h
    cases hrow : writeRow options number token with
    | error fault =>
      rw [hrow] at h
      cases h
    | ok row =>
      cases hlater : writeRows options (number + 1) tokens with
      | error fault =>
        rw [hrow, hlater] at h
        cases h
      | ok later =>
        rw [hrow, hlater] at h
        obtain rfl := Except.ok.inj h
        rw [List.map_cons, rowTexts_cons, eq_rowText_of_writeRow hrow, ih hlater]

/-- **Writing.** A sentence without a note whose heads are writable is written as the rows of its
decoded tokens and an empty line. -/
theorem write_eq_ok {s : Sentence} (hnote : s.note = none)
    (h : ∀ token ∈ s.tokens, IsWritable token.head) :
    write options s = .ok (blockText (rowTexts 1 (s.tokens.map (decode options)))) := by
  rw [write, hnote, writeRows_eq_ok 1 h]
  rfl

/-- The rows of decoded tokens do not depend on the places. -/
theorem rowTexts_map_decode_inPlace (number : Nat) (tokens : List Token) :
    rowTexts number ((inPlace tokens).map (decode options)) =
      rowTexts number (tokens.map (decode options)) := by
  have hrow (tokens : List Token) :
      rowTexts number tokens = rowTexts number (tokens.map Token.unplaced) := by
    rw [rowTexts, rowTexts, List.zipIdx_map, List.map_map]
    rfl
  have hplace (place token : Token) :
      (decode options (place.movedTo token)).unplaced = (decode options token).unplaced := by
    rw [decode_movedTo, Token.unplaced_movedTo]
  rw [hrow, hrow (tokens.map _), List.map_map, List.map_map]
  congr 1
  exact map_inPlace hplace tokens

/-- **Writing tokens.** What the sentence of tokens is written as. -/
theorem write_ofTokens {docid : Option Text} {tokens : List Token}
    (h : ∀ token ∈ tokens, IsWritable token.head) :
    write options (Sentence.ofTokens docid tokens) =
      .ok (blockText (rowTexts 1 (tokens.map (decode options)))) := by
  have hheads : ∀ token ∈ inPlace tokens, IsWritable token.head :=
    (forall_mem_inPlace_iff fun _ _ => Iff.rfl).mpr h
  rw [write_eq_ok rfl hheads, Sentence.ofTokens, rowTexts_map_decode_inPlace]

end Conll

end Corpus
