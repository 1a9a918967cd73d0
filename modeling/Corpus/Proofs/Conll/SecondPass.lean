import Corpus.Proofs.Conll.Notes
import Corpus.Proofs.Conll.Rereading
import Corpus.Proofs.Conll.Transparency

/-!
# Reading and writing a second time

Whatever is written from a record is a block that is read again and written again.

* A row that was written is a token line, and its columns are the written fields. It is written again
  with the same columns but for the features: with no tag to repeat, an attribute of the name of a
  repeated tag is taken off at their end. A joined category has been cut at the first separator and is
  separable from then on.
* A note line is read again without a carriage return at its end.
* An empty feature column, which stands for the single attribute of an empty name and the value `on`,
  is left out of account.
-/

namespace Corpus.Conll

variable {options : Options} {docid : Option Text} {record line text : Text} {token : Token}
  {lines : List Text} {number : Nat} {s : Sentence}

/-! ### What is written of a token -/

/-- **Loses an attribute.** Tags are repeated and not joined, the token has none, and its last
attribute is of the name of a repeated tag. -/
structure LosesAttribute (options : Options) (token : Token) : Prop where
  added : options.addPosAsAttribute = true
  not_joined : options.joinCategoryToPos = false
  no_tag : token.tag.getD [] = []
  last : ∃ feature ∈ token.attributes.getLast?, feature.name = posAttribute

instance (options : Options) (token : Token) : Decidable (LosesAttribute options token) :=
  decidable_of_iff
    (options.addPosAsAttribute = true ∧ options.joinCategoryToPos = false ∧
      token.tag.getD [] = [] ∧ ∃ feature ∈ token.attributes.getLast?, feature.name = posAttribute)
    ⟨fun h => ⟨h.1, h.2.1, h.2.2.1, h.2.2.2⟩, fun h => ⟨h.added, h.not_joined, h.no_tag, h.last⟩⟩

/-- Where the category is separable, only a lost attribute stands out. -/
theorem isTransparent_iff_not_losesAttribute
    (h : options.joinCategoryToPos = true → IsSeparable (token.category.getD [])) :
    IsTransparent options token ↔ ¬ LosesAttribute options token := by
  constructor
  · rintro ⟨-, hattributes⟩ ⟨hadded, hjoined, htag, feature, hfeature, hname⟩
    rcases hattributes with hoff | hon | hne | hlast
    · rw [hadded] at hoff
      cases hoff
    · rw [hjoined] at hon
      cases hon
    · exact hne htag
    · exact hlast feature hfeature hname
  · intro hkeeps
    refine ⟨?_, ?_⟩
    · cases hjoin : options.joinCategoryToPos with
      | false => exact .inl rfl
      | true => exact .inr (h hjoin)
    · by_contra hlost
      obtain ⟨hadded, hjoined, htag, hlast⟩ := by simpa only [not_or, not_forall] using hlost
      obtain ⟨feature, hfeature, hname⟩ := hlast
      exact hkeeps ⟨by simpa using hadded, by simpa using hjoined, not_not.mp htag, feature,
        hfeature, not_not.mp hname⟩

/-- No attribute is written that was not read. -/
theorem attributes_decode_encode_subset (options : Options) (token : Token) :
    (decode options (encode options token)).attributes ⊆ token.attributes := by
  have hjoin : (splitCategory (joinCategory token)).attributes ⊆ token.attributes := by
    rw [attributes_splitCategory]
    exact List.Subset.refl _
  obtain ⟨join, add⟩ := options
  cases join with
  | false =>
    cases add with
    | false => exact List.Subset.refl _
    | true =>
      change (removePos (addPos token)).attributes ⊆ token.attributes
      by_cases htag : token.tag.getD [] = []
      · rw [addPos_of_nil htag, removePos]
        split
        · exact List.dropLast_subset _
        · exact List.Subset.refl _
      · rw [removePos_addPos htag]
        exact List.Subset.refl _
  | true =>
    cases add with
    | false => exact hjoin
    | true =>
      rw [← decode_encode_repeated_joined] at hjoin
      exact hjoin

/-- **A category that was joined is separable** once it has been split off. -/
theorem isSeparable_category_decode_encode (hjoin : options.joinCategoryToPos = true)
    (token : Token) :
    IsSeparable ((decode options (encode options token)).category.getD []) := by
  have hsplit : IsSeparable ((splitCategory (joinCategory token)).category.getD []) := by
    obtain ⟨first, rest, hbreak, -⟩ :=
      exists_breakOn_joined (token.category.getD []) (token.tag.getD [])
    have hcategory : (splitCategory (joinCategory token)).category = some first := by
      simp only [splitCategory, joinCategory, Option.getD_some, List.append_assoc, hbreak]
    rw [hcategory, Option.getD_some, ← breakOn_joined_eq_iff rest]
    rw [← (Text.eq_append_of_breakOn hbreak).1]
    exact hbreak
  obtain ⟨join, add⟩ := options
  obtain rfl : join = true := hjoin
  cases add with
  | false => exact hsplit
  | true =>
    rw [← decode_encode_repeated_joined] at hsplit
    exact hsplit

/-! ### A row read again -/

theorem cleared_writtenField (field : Text) : cleared (writtenField field) = cleared field := by
  by_cases hempty : field = []
  · rw [hempty]
    rfl
  · rw [writtenField, if_neg hempty]

theorem isSeparable_cleared {field : Text} (h : IsSeparable field) :
    IsSeparable (cleared field) := by
  rw [cleared]
  split
  · decide
  · exact h

theorem writtenField_writtenField (field : Text) :
    writtenField (writtenField field) = writtenField field := by
  by_cases hempty : field = []
  · rw [hempty]
    rfl
  · have hsame : writtenField field = field := if_neg hempty
    rw [hsame, hsame]

/-- Storable attributes are written again as they were, unless they are written as nothing. -/
theorem writeAttributes_attributesIn_writeAttributes {attributes : List Attribute}
    (h : ∀ feature ∈ attributes, feature.IsStorable) (hne : writeAttributes attributes ≠ []) :
    writeAttributes (attributesIn (writeAttributes attributes)) = writeAttributes attributes := by
  by_cases hopen : attributes = [⟨['_'], defaultValue⟩]
  · rw [hopen]
    rfl
  · have hempty : attributes ≠ [⟨[], defaultValue⟩] := by
      rintro rfl
      exact hne rfl
    rw [attributesIn_writeAttributes_eq_iff.mpr ⟨h, hempty, hopen⟩]

/-- **The fields written again.** What was read from a row has the fields of the row. -/
theorem fieldsOf_token_rereadRow (hstorable : ∀ feature ∈ token.attributes, feature.IsStorable)
    (hhead : 0 ≤ writtenHead token.head) (hne : writeAttributes token.attributes ≠ []) :
    fieldsOf number (rereadRow token).token = fieldsOf number token := by
  have hword : writtenField (rereadRow token).token.word = writtenField token.word :=
    writtenField_writtenField token.word
  have hfield {field : Text} : writtenField (cleared (writtenField field)) = writtenField field := by
    rw [writtenField_cleared, writtenField_writtenField]
  have hattributes : writeAttributes (rereadRow token).token.attributes =
      writeAttributes token.attributes :=
    writeAttributes_attributesIn_writeAttributes hstorable hne
  have hnumber : writtenHead (rereadRow token).token.head = writtenHead token.head := by
    rw [writtenHead_token]
    exact Int.max_eq_left hhead
  simp only [fieldsOf, rowFields, hword, hattributes, hnumber, Row.category_token, Row.tag_token,
    Row.label_token]
  simp only [rereadRow, hfield]

theorem numberIn_ofInt (n : Int) : numberIn (Numeral.ofInt n) = n := by
  rw [numberIn, if_neg (Numeral.ofInt_ne_nil n), Numeral.value_ofInt]

/-- **The row of a written line.** Its columns hold the row that is read back. -/
theorem ofLine_rowText (h : token.IsPlain) : Row.ofLine (rowText number token) = rereadRow token := by
  simp only [Row.ofLine, column, fields_rowText h, fieldsOf, rowFields, rereadRow]
  simp only [List.getElem?_cons_succ, List.getElem?_cons_zero, Option.getD_some, cleared_ofInt,
    numberIn_ofInt]

theorem tokenOf_rowText (h : token.IsPlain) :
    tokenOf (rowText number token) = (rereadRow token).token :=
  congrArg Row.token (ofLine_rowText h)

theorem isTokenLine_rowText (h : token.IsPlain) : IsTokenLine (rowText number token) :=
  (ofText_eq_row_iff.mp (ofText_rowText h)).1

theorem column_features_rowText (h : token.IsPlain) :
    column 5 (rowText number token) = writeAttributes token.attributes := by
  rw [column, fields_rowText h]
  rfl

/-! ### A token line written twice -/

/-- A token line as a token to write. -/
def rewrittenToken (options : Options) (line : Text) : Token :=
  decode options (encode options (tokenOf line))

theorem isPlain_rewrittenToken (options : Options) (h : '\n' ∉ line) :
    (rewrittenToken options line).IsPlain :=
  isPlain_decode (isPlain_encode (isPlain_token_ofLine h))

theorem head_rewrittenToken (options : Options) (line : Text) :
    (rewrittenToken options line).head = (tokenOf line).head := by
  rw [rewrittenToken, head_decode, head_encode]

/-- **One row.** The row of a token line is written again as it is, unless it loses an attribute or
its feature column is empty. -/
theorem fieldsOf_rewrittenToken_rowText_iff (h : '\n' ∉ line)
    (hne : column 5 (rowText number (rewrittenToken options line)) ≠ []) :
    fieldsOf number (rewrittenToken options (rowText number (rewrittenToken options line))) =
        fieldsOf number (rewrittenToken options line) ↔
      ¬ LosesAttribute options (tokenOf (rowText number (rewrittenToken options line))) := by
  have hplain := isPlain_rewrittenToken options h
  have hstorable : ∀ feature ∈ (rewrittenToken options line).attributes, feature.IsStorable :=
    fun feature hfeature =>
      isStorable_of_mem_attributesIn (attributes_decode_encode_subset options _ hfeature)
  have hhead : 0 ≤ writtenHead (rewrittenToken options line).head := by
    rw [head_rewrittenToken, tokenOf, writtenHead_token]
    exact Int.le_max_right ..
  rw [column_features_rowText hplain] at hne
  have hsame : fieldsOf number (rereadRow (rewrittenToken options line)).token =
      fieldsOf number (rewrittenToken options line) :=
    fieldsOf_token_rereadRow hstorable hhead hne
  rw [rewrittenToken.eq_def options (rowText _ _), ← hsame, tokenOf_rowText hplain,
    fieldsOf_decode_encode_iff]
  refine isTransparent_iff_not_losesAttribute fun hjoin => ?_
  rw [Row.category_token]
  change IsSeparable (cleared (writtenField _))
  rw [cleared_writtenField]
  exact isSeparable_cleared (isSeparable_category_decode_encode hjoin _)

/-! ### A block written twice -/

/-- **Stable lines.** None ends in a carriage return, and no token line loses an attribute. -/
structure IsStable (options : Options) (lines : List Text) : Prop where
  no_return : ∀ line ∈ lines, line.getLast? ≠ some '\r'
  keeps : ∀ line ∈ lines, IsTokenLine line → ¬ LosesAttribute options (tokenOf line)

/-- **Written block.** The lines of what is written from a record: the rows of its token lines, or
note lines. -/
inductive IsWritten (options : Options) : List Text → Prop
  | rows {sources : List Text} : sources ≠ [] → sources.length ≤ tokenLimit →
      (∀ line ∈ sources, '\n' ∉ line ∧ IsWritable (tokenOf line).head) →
      IsWritten options (rowTexts 1 (sources.map (rewrittenToken options)))
  | note {lines : List Text} : lines ≠ [] → (∀ line ∈ lines, IsNoteLine line) →
      IsWritten options lines

/-- **What is written from a record is a written block.** -/
theorem exists_isWritten (hread : read options docid record = .ok (some s))
    (hwrite : write options s = .ok text) : ∃ lines, IsWritten options lines ∧ text = blockOf lines := by
  cases hnote : s.note with
  | none =>
    obtain ⟨rows, hrows, hne, -, hlen, -, hwritable⟩ := rows_of_read hread hnote
    have hsources : ∀ line ∈ (tokenLines record).map Prod.fst,
        '\n' ∉ line ∧ IsWritable (tokenOf line).head := by
      refine List.forall_mem_map.mpr fun entry hentry => ?_
      refine ⟨lineFeed_not_mem_of_mem_tokenLines hentry, hwritable (Row.ofLine entry.1) ?_⟩
      rw [hrows]
      exact List.mem_map_of_mem hentry
    rw [hrows] at hne hlen
    have hrewritten : rewrittenRows options record =
        rowTexts 1 (((tokenLines record).map Prod.fst).map (rewrittenToken options)) := by
      rw [rewrittenRows, lineTokens, List.map_map, List.map_map]
      rfl
    refine ⟨_, .rows (by simpa using hne) (by simpa using hlen) hsources, ?_⟩
    rw [write_of_read hread hnote, hrewritten] at hwrite
    rw [← Except.ok.inj hwrite]
    refine blockText_eq_blockOf ?_
    simpa [rowTexts] using hne
  | some note =>
    obtain ⟨-, lines, hne, hlines, rfl⟩ := read_eq_noted hread hnote
    refine ⟨lines, .note hne hlines, ?_⟩
    rw [write, hnote] at hwrite
    rw [← Except.ok.inj hwrite, blockOf_eq]

theorem IsNoteLine.dropReturn (h : IsNoteLine line) : IsNoteLine (dropReturn line) :=
  ⟨h.isCommentLine.dropReturn.hash, h.isPlain.of_subset (Text.dropReturn_subset line)⟩

/-- The rows of plain tokens are token lines. -/
theorem isTokenLine_of_mem_rowTexts {tokens : List Token}
    (h : ∀ token ∈ tokens, token.IsPlain) (hline : line ∈ rowTexts number tokens) :
    IsTokenLine line := by
  obtain ⟨⟨token, k⟩, hentry, rfl⟩ := List.mem_map.mp hline
  exact isTokenLine_rowText (h token (List.fst_mem_of_mem_zipIdx hentry))

/-- The lines of a written block do not end it. -/
theorem IsWritten.isBlockLine (h : IsWritten options lines) : ∀ line ∈ lines, IsBlockLine line := by
  intro line hline
  cases h with
  | rows hne hlen hsources =>
    refine (isRecordLine_of_mem_rowTexts ?_ hline).isBlockLine
    exact List.forall_mem_map.mpr fun source hsource =>
      (isPlain_rewrittenToken options (hsources source hsource).1).lineFeed_not_mem
  | note hne hlines => exact (hlines line hline).isBlockLine

/-- **Rows written twice.** -/
theorem rowTexts_rewrittenToken_iff {sources : List Text} (h : ∀ line ∈ sources, '\n' ∉ line)
    (hne : ∀ line ∈ rowTexts number (sources.map (rewrittenToken options)), column 5 line ≠ []) :
    rowTexts number ((rowTexts number (sources.map (rewrittenToken options))).map
          (rewrittenToken options)) =
        rowTexts number (sources.map (rewrittenToken options)) ↔
      ∀ line ∈ rowTexts number (sources.map (rewrittenToken options)),
        ¬ LosesAttribute options (tokenOf line) := by
  induction sources generalizing number with
  | nil => exact iff_of_true rfl fun _ hline => nomatch hline
  | cons source sources ih =>
    obtain ⟨hsource, hsources⟩ := List.forall_mem_cons.mp h
    rw [List.map_cons, rowTexts_cons] at hne ⊢
    obtain ⟨hfirst, hrest⟩ := List.forall_mem_cons.mp hne
    have hplain := isPlain_rewrittenToken options hsource
    have hfeed : '\n' ∉ rowText number (rewrittenToken options source) :=
      lineFeed_not_mem_rowText hplain.lineFeed_not_mem
    have hplain' := isPlain_rewrittenToken options hfeed
    rw [List.map_cons, rowTexts_cons, List.cons.injEq, rowText_eq_iff hplain' hplain,
      fieldsOf_rewrittenToken_rowText_iff hsource hfirst, ih hsources hrest, List.forall_mem_cons]

theorem map_tokenOf_rowTexts {tokens : List Token} (h : ∀ token ∈ tokens, token.IsPlain) :
    (rowTexts number tokens).map tokenOf = tokens.map fun token => (rereadRow token).token := by
  induction tokens generalizing number with
  | nil => rfl
  | cons token tokens ih =>
    obtain ⟨htoken, htokens⟩ := List.forall_mem_cons.mp h
    rw [rowTexts_cons, List.map_cons, List.map_cons, tokenOf_rowText htoken, ih htokens]

/-- **Rows are read again** as a sentence without a note, and written again from their lines. -/
theorem exists_write_rowTexts (options : Options) (docid : Option Text) {tokens : List Token}
    (hne : tokens ≠ []) (hlen : tokens.length ≤ tokenLimit) (hplain : ∀ token ∈ tokens, token.IsPlain)
    (hhead : ∀ token ∈ tokens, IsWritable token.head) :
    ∃ s, read options docid ((rowTexts 1 tokens).flatMap (· ++ ['\n'])) = .ok (some s) ∧
      write options s =
        .ok (blockText (rowTexts 1 ((rowTexts 1 tokens).map (rewrittenToken options)))) := by
  have hrows := readRows_record hlen hplain hhead
  obtain ⟨s, hread, hnote⟩ : ∃ s,
      read options docid ((rowTexts 1 tokens).flatMap (· ++ ['\n'])) = .ok (some s) ∧
        s.note = none :=
    ⟨_, read_eq_some_iff.mpr
      ⟨tokens.map rereadRow, hrows, by simpa using hne, by simpa using hlen, rfl⟩⟩
  have htokens : lineTokens ((rowTexts 1 tokens).flatMap (· ++ ['\n'])) =
      (rowTexts 1 tokens).map tokenOf := by
    have hlines := congrArg (List.map Row.token) (readRows_eq_ok hrows).1
    rw [List.map_map, List.map_map] at hlines
    rw [map_tokenOf_rowTexts hplain]
    exact hlines.symm
  refine ⟨s, hread, ?_⟩
  rw [write_of_read hread hnote, rewrittenRows, htokens, List.map_map]
  rfl

/-- The row of a token with a writable head has a writable head. -/
theorem isWritable_tokenOf_of_mem_rowTexts {tokens : List Token}
    (hplain : ∀ token ∈ tokens, token.IsPlain) (hhead : ∀ token ∈ tokens, IsWritable token.head)
    (hline : line ∈ rowTexts number tokens) : IsWritable (tokenOf line).head := by
  obtain ⟨⟨token, k⟩, hentry, rfl⟩ := List.mem_map.mp hline
  have hmem := List.fst_mem_of_mem_zipIdx hentry
  rw [tokenOf_rowText (hplain token hmem)]
  exact isWritable_token (hhead token hmem)

/-- **Rewritten lines.** The lines are read as a sentence that is written as the lines `again`. These
are a written block, and the same lines exactly when the lines are stable. -/
structure IsRewrittenAs (options : Options) (docid : Option Text) (lines again : List Text) :
    Prop where
  read_write : ∃ s, read options docid ((lines.map dropReturn).flatMap (· ++ ['\n'])) = .ok (some s) ∧
    write options s = .ok (blockOf again)
  isWritten : IsWritten options again
  eq_iff : (∀ line ∈ lines, IsTokenLine line → column 5 line ≠ []) →
    (again = lines ↔ IsStable options lines)

/-- Rows are rewritten from their own lines. -/
theorem isRewrittenAs_rowTexts {sources : List Text} (hne : sources ≠ [])
    (hlen : sources.length ≤ tokenLimit)
    (hsources : ∀ line ∈ sources, '\n' ∉ line ∧ IsWritable (tokenOf line).head)
    (docid : Option Text) :
    IsRewrittenAs options docid (rowTexts 1 (sources.map (rewrittenToken options)))
      (rowTexts 1 ((rowTexts 1 (sources.map (rewrittenToken options))).map
        (rewrittenToken options))) := by
  have hfeed : ∀ line ∈ sources, '\n' ∉ line := fun line hline => (hsources line hline).1
  have hplain : ∀ token ∈ sources.map (rewrittenToken options), token.IsPlain :=
    List.forall_mem_map.mpr fun line hline => isPlain_rewrittenToken options (hfeed line hline)
  have hhead : ∀ token ∈ sources.map (rewrittenToken options), IsWritable token.head := by
    refine List.forall_mem_map.mpr fun line hline => ?_
    rw [head_rewrittenToken]
    exact (hsources line hline).2
  have hrows : rowTexts 1 (sources.map (rewrittenToken options)) ≠ [] := by
    simpa [rowTexts] using hne
  have hlen' : (rowTexts 1 (sources.map (rewrittenToken options))).length ≤ tokenLimit := by
    simpa [rowTexts] using hlen
  have hrecord : ∀ line ∈ rowTexts 1 (sources.map (rewrittenToken options)), IsRecordLine line :=
    fun line hline =>
      isRecordLine_of_mem_rowTexts (fun token htoken => (hplain token htoken).lineFeed_not_mem) hline
  have hreturn : ∀ line ∈ rowTexts 1 (sources.map (rewrittenToken options)),
      line.getLast? ≠ some '\r' := fun line hline => (hrecord line hline).no_return_at_end
  have htoken : ∀ line ∈ rowTexts 1 (sources.map (rewrittenToken options)), IsTokenLine line :=
    fun line hline => isTokenLine_of_mem_rowTexts hplain hline
  obtain ⟨s, hread, hwrite⟩ := exists_write_rowTexts options docid (by simpa using hne)
    (by simpa using hlen) hplain hhead
  refine ⟨⟨s, ?_, ?_⟩, .rows hrows hlen' ?_, ?_⟩
  · rw [map_dropReturn_eq_self_iff.mpr hreturn]
    exact hread
  · rw [hwrite, blockText_eq_blockOf]
    simpa [rowTexts] using hne
  · intro line hline
    exact ⟨(hrecord line hline).lineFeed_not_mem,
      isWritable_tokenOf_of_mem_rowTexts hplain hhead hline⟩
  · intro hfeatures
    rw [rowTexts_rewrittenToken_iff hfeed fun line hline =>
      hfeatures line hline (htoken line hline)]
    constructor
    · intro hkeeps
      exact ⟨hreturn, fun line hline _ => hkeeps line hline⟩
    · intro hstable line hline
      exact hstable.keeps line hline (htoken line hline)

/-- Note lines are rewritten without the carriage returns at their ends. -/
theorem isRewrittenAs_note (hne : lines ≠ []) (hlines : ∀ line ∈ lines, IsNoteLine line)
    (docid : Option Text) : IsRewrittenAs options docid lines (lines.map dropReturn) := by
  have hagain : ∀ line ∈ lines.map dropReturn, IsNoteLine line :=
    List.forall_mem_map.mpr fun line hline => (hlines line hline).dropReturn
  have hne' : lines.map dropReturn ≠ [] := by simpa using hne
  refine ⟨⟨_, read_noteLines hne' hagain, ?_⟩, .note hne' hagain, fun _ => ?_⟩
  · rw [write, noteSentence, blockOf_eq]
  · rw [map_dropReturn_eq_self_iff]
    constructor
    · intro hreturn
      exact ⟨hreturn, fun line hline htoken => absurd htoken (hlines line hline).not_isTokenLine⟩
    · exact fun hstable => hstable.no_return

/-- **A written block is rewritten.** -/
theorem IsWritten.exists_rewritten (h : IsWritten options lines) (docid : Option Text) :
    ∃ again, IsRewrittenAs options docid lines again := by
  cases h with
  | rows hne hlen hsources => exact ⟨_, isRewrittenAs_rowTexts hne hlen hsources docid⟩
  | note hne hlines => exact ⟨_, isRewrittenAs_note hne hlines docid⟩

end Corpus.Conll
