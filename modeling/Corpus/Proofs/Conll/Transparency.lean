import Corpus.Proofs.Conll.Rewriting
import Mathlib.Data.List.Infix

/-!
# What the encodings keep

* A category is found again in a joined tag when the first two plus signs there are the ones that
  joining wrote: the category neither holds two plus signs nor ends in one.
* A repeated tag is taken off again. Where there is no tag to repeat, an attribute of the same name
  is taken off in its place; a joined tag is never empty.
* Outside these two collisions, and only there, a record is written back under the encodings as it
  is without them.
-/

namespace Corpus.Conll

variable {token : Token} {category : Text}

/-! ### Joined tags -/

/-- **Separable category.** One that joining and splitting give back. -/
structure IsSeparable (category : Text) : Prop where
  no_separator : ¬ categorySeparator <:+: category
  no_plus_at_end : ¬ ['+'] <:+ category

instance (category : Text) : Decidable (IsSeparable category) :=
  decidable_of_iff (¬ categorySeparator <:+: category ∧ ¬ ['+'] <:+ category)
    ⟨fun h => ⟨h.1, h.2⟩, fun h => ⟨h.1, h.2⟩⟩

/-- A joined tag breaks into its category and tag when the category is separable. -/
theorem breakOn_joined_eq_iff (tag : Text) :
    Text.breakOn categorySeparator (category ++ (categorySeparator ++ tag)) = some (category, tag) ↔
      IsSeparable category := by
  rw [Text.breakOn_eq_some_iff, and_iff_right rfl]
  constructor
  · intro hleast
    constructor
    · rintro ⟨before, after, rfl⟩
      have hle := hleast before (after ++ (categorySeparator ++ tag)) (by simp)
      have hlen : categorySeparator.length = 2 := rfl
      simp only [List.length_append] at hle
      omega
    · rintro ⟨before, rfl⟩
      -- the plus sign at the end and the first one of the separator are taken for the separator
      have hle := hleast before ('+' :: tag) (by simp [categorySeparator])
      simp only [List.length_append, List.length_singleton] at hle
      omega
  · intro h before after hsame
    by_contra hshort
    obtain ⟨between, hcategory, hafter⟩ :
        ∃ between, category = before ++ between ∧
          categorySeparator ++ after = between ++ (categorySeparator ++ tag) := by
      rcases List.append_eq_append_iff.mp hsame with ⟨between, hbefore, -⟩ | h
      · rw [hbefore, List.length_append] at hshort
        omega
      · exact h
    rcases between with - | ⟨c, - | ⟨d, rest⟩⟩
    · rw [hcategory, List.append_nil] at hshort
      exact hshort (Nat.le_refl _)
    · obtain rfl : '+' = c := (List.cons.inj hafter).1
      exact h.no_plus_at_end ⟨before, hcategory.symm⟩
    · obtain ⟨rfl, htail⟩ : '+' = c ∧ _ := List.cons.inj hafter
      obtain ⟨rfl, -⟩ : '+' = d ∧ _ := List.cons.inj htail
      exact h.no_separator ⟨before, rest, by rw [hcategory]; simp [categorySeparator]⟩

/-- What a joined tag breaks into; a category that is not separable loses something. -/
theorem exists_breakOn_joined (category tag : Text) :
    ∃ first rest,
      Text.breakOn categorySeparator (category ++ (categorySeparator ++ tag)) = some (first, rest) ∧
      (first.length < category.length ∨ first = category ∧ rest = tag) := by
  obtain ⟨⟨first, rest⟩, hbreak⟩ :=
    Option.ne_none_iff_exists'.mp (Text.breakOn_ne_none categorySeparator category tag)
  obtain ⟨hsame, hleast⟩ := Text.eq_append_of_breakOn hbreak
  refine ⟨first, rest, hbreak, ?_⟩
  rcases Nat.lt_or_eq_of_le (hleast category tag rfl) with hshort | hlen
  · exact .inl hshort
  · obtain ⟨rfl, hrest⟩ := List.append_inj hsame.symm hlen
    exact .inr ⟨rfl, List.append_cancel_left hrest⟩

/-- A field that was cut short is not written as before. -/
theorem writtenField_ne_of_length_lt {field other : Text} (hlen : field.length < other.length)
    (hother : other ≠ ['_']) : writtenField field ≠ writtenField other := by
  have hne : other ≠ [] := List.ne_nil_of_length_pos (by omega)
  unfold writtenField
  rw [if_neg hne]
  split
  · exact hother.symm
  · rintro rfl
    exact Nat.lt_irrefl _ hlen

/-- **Joining and splitting.** Category and tag are written as before when the category is
separable. -/
theorem written_splitCategory_joinCategory_iff (token : Token) :
    writtenField ((splitCategory (joinCategory token)).category.getD []) =
          writtenField (token.category.getD []) ∧
        writtenField ((splitCategory (joinCategory token)).tag.getD []) =
          writtenField (token.tag.getD []) ↔
      IsSeparable (token.category.getD []) := by
  obtain ⟨first, rest, hbreak, hparts⟩ :=
    exists_breakOn_joined (token.category.getD []) (token.tag.getD [])
  have hsplit : splitCategory (joinCategory token) =
      { joinCategory token with category := some first, tag := some rest } := by
    simp only [splitCategory, joinCategory, Option.getD_some, List.append_assoc, hbreak]
  rw [← breakOn_joined_eq_iff (token.tag.getD []), hsplit, hbreak]
  simp only [Option.getD_some, Option.some.injEq, Prod.mk.injEq]
  rcases hparts with hshort | ⟨rfl, rfl⟩
  · have hne : token.category.getD [] ≠ ['_'] := by
      intro hopen
      have hseparable : IsSeparable ['_'] := by decide
      rw [hopen, (breakOn_joined_eq_iff _).mpr hseparable] at hbreak
      obtain ⟨rfl, -⟩ := Prod.mk.inj (Option.some.inj hbreak)
      exact absurd hshort (by rw [hopen]; exact Nat.lt_irrefl _)
    have hwritten := writtenField_ne_of_length_lt hshort hne
    constructor
    · intro h
      exact absurd h.1 hwritten
    · rintro ⟨rfl, -⟩
      exact absurd hshort (Nat.lt_irrefl _)
  · exact ⟨fun _ => ⟨rfl, rfl⟩, fun _ => ⟨rfl, rfl⟩⟩

/-! ### Repeated tags -/

theorem addPos_of_nil (h : token.tag.getD [] = []) : addPos token = token := by
  rw [addPos]
  split
  · rfl
  · rfl
  · rename_i tag hne htag
    rw [htag] at h
    exact absurd h hne

theorem addPos_of_ne_nil (h : token.tag.getD [] ≠ []) :
    addPos token =
      { token with attributes := token.attributes ++ [⟨posAttribute, token.tag.getD []⟩] } := by
  rw [addPos]
  split
  · rename_i htag
    rw [htag] at h
    exact absurd rfl h
  · rename_i htag
    rw [htag] at h
    exact absurd rfl h
  · rename_i tag _ htag
    rw [htag]
    rfl

/-- A last attribute of the name of a repeated tag is taken off. -/
theorem removePos_append {feature : Attribute} (hname : feature.name = posAttribute)
    (token : Token) (attributes : List Attribute) :
    removePos { token with attributes := attributes ++ [feature] } = { token with attributes } := by
  simp [removePos, hname]

/-- Nothing is taken off where the last attribute is of another name. -/
theorem removePos_of_last_ne
    (h : ∀ feature ∈ token.attributes.getLast?, feature.name ≠ posAttribute) :
    removePos token = token := by
  rw [removePos]
  split
  · rename_i hlast
    obtain ⟨feature, hfeature, hname⟩ := (Option.any_eq_true _ _).mp hlast
    exact absurd (of_decide_eq_true hname) (h feature hfeature)
  · rfl

/-- **Repeating the tag.** A tag that is not empty is taken off again. -/
theorem removePos_addPos (h : token.tag.getD [] ≠ []) : removePos (addPos token) = token := by
  rw [addPos_of_ne_nil h]
  exact removePos_append rfl token token.attributes

/-- Splitting keeps the attributes. -/
theorem attributes_splitCategory (token : Token) :
    (splitCategory token).attributes = token.attributes := by
  rw [splitCategory]
  split <;> rfl

/-- Splitting does not look at the attributes. -/
theorem splitCategory_attributes (token : Token) (attributes : List Attribute) :
    splitCategory { token with attributes } = { splitCategory token with attributes } := by
  unfold splitCategory
  cases Text.breakOn categorySeparator (token.tag.getD []) <;> rfl

/-- A joined tag is repeated and taken off again. -/
theorem decode_encode_repeated_joined (token : Token) :
    removePos (splitCategory (addPos (joinCategory token))) =
      splitCategory (joinCategory token) := by
  have hne : (joinCategory token).tag.getD [] ≠ [] := by simp [joinCategory, categorySeparator]
  rw [addPos_of_ne_nil hne, splitCategory_attributes]
  refine (removePos_append rfl _ _).trans ?_
  rw [← splitCategory_attributes]

/-- One more attribute is one more piece. -/
theorem writeAttributes_append_ne (attributes : List Attribute) {feature : Attribute}
    (h : writtenPiece feature ≠ ['_']) :
    writeAttributes (attributes ++ [feature]) ≠ writeAttributes attributes := by
  rw [writeAttributes, if_neg (List.append_ne_nil_of_right_ne_nil _ (List.cons_ne_nil _ _))]
  by_cases hnil : attributes = []
  · simpa [hnil, Text.joined, writeAttributes] using h
  · intro hsame
    have hpieces : attributes.map writtenPiece ≠ [] := by simpa using hnil
    rw [writeAttributes, if_neg hnil, List.map_append, List.map_singleton,
      Text.joined_append_singleton hpieces] at hsame
    have hempty : ['|'] ++ writtenPiece feature = [] := List.append_right_eq_self.mp hsame
    exact absurd hempty (List.cons_ne_nil _ _)

/-- The piece of a repeated tag is not an underscore. -/
theorem writtenPiece_ne_underscore {feature : Attribute} (hname : feature.name = posAttribute) :
    writtenPiece feature ≠ ['_'] := by
  rw [writtenPiece, hname]
  split
  · decide
  · simp [posAttribute]

/-! ### Tokens -/

/-- **Transparent for the encodings.** The category is separable if it is joined, and where there is
no tag to repeat the last attribute is not of the name of a repeated one. -/
structure IsTransparent (options : Options) (token : Token) : Prop where
  category : options.joinCategoryToPos = false ∨ IsSeparable (token.category.getD [])
  attributes : options.addPosAsAttribute = false ∨ options.joinCategoryToPos = true ∨
    token.tag.getD [] ≠ [] ∨ ∀ feature ∈ token.attributes.getLast?, feature.name ≠ posAttribute

/-- Fields of tokens with one frame differ in the category, the tag and the attributes. -/
theorem fieldsOf_eq_iff {a b : Token} {number : Nat} (hframe : a.frame = b.frame) :
    fieldsOf number a = fieldsOf number b ↔
      (writtenField (a.category.getD []) = writtenField (b.category.getD []) ∧
        writtenField (a.tag.getD []) = writtenField (b.tag.getD [])) ∧
      writeAttributes a.attributes = writeAttributes b.attributes := by
  obtain ⟨hword, -, hlabel, hhead⟩ : a.word = b.word ∧ a.span = b.span ∧ a.label = b.label ∧
      a.head = b.head := by simpa [Token.frame] using hframe
  simp only [fieldsOf, rowFields, hword, hlabel, hhead, List.cons.injEq, and_true, true_and,
    and_assoc]

/-- Fields after joining and splitting. -/
theorem fieldsOf_splitCategory_joinCategory_iff {number : Nat} :
    fieldsOf number (splitCategory (joinCategory token)) = fieldsOf number token ↔
      IsSeparable (token.category.getD []) := by
  have hframe : (splitCategory (joinCategory token)).frame = token.frame := by
    rw [frame_splitCategory, frame_joinCategory]
  rw [fieldsOf_eq_iff hframe, written_splitCategory_joinCategory_iff, attributes_splitCategory]
  exact and_iff_left rfl

/-- Fields after repeating the tag and taking it off. -/
theorem fieldsOf_removePos_addPos_iff {number : Nat} :
    fieldsOf number (removePos (addPos token)) = fieldsOf number token ↔
      token.tag.getD [] ≠ [] ∨
        ∀ feature ∈ token.attributes.getLast?, feature.name ≠ posAttribute := by
  by_cases htag : token.tag.getD [] = []
  · rw [addPos_of_nil htag, or_iff_right (not_not.mpr htag)]
    refine ⟨fun h feature hfeature hname => ?_, fun h => by rw [removePos_of_last_ne h]⟩
    obtain ⟨before, hbefore⟩ := List.getLast?_eq_some_iff.mp hfeature
    have hremove : removePos token = { token with attributes := before } := by
      rw [← removePos_append hname token before, ← hbefore]
    have hwritten := ((fieldsOf_eq_iff (frame_removePos token)).mp h).2
    rw [hremove, hbefore] at hwritten
    exact writeAttributes_append_ne before (writtenPiece_ne_underscore hname) hwritten.symm
  · rw [removePos_addPos htag]
    exact iff_of_true rfl (.inl htag)

/-- **One token.** Encoding and decoding keep the fields of transparent tokens, and only of them. -/
theorem fieldsOf_decode_encode_iff {options : Options} {number : Nat} :
    fieldsOf number (decode options (encode options token)) = fieldsOf number token ↔
      IsTransparent options token := by
  obtain ⟨join, add⟩ := options
  cases join with
  | false =>
    cases add with
    | false => exact iff_of_true rfl ⟨.inl rfl, .inl rfl⟩
    | true =>
      refine fieldsOf_removePos_addPos_iff.trans ⟨fun h => ⟨.inl rfl, .inr (.inr h)⟩, fun h => ?_⟩
      exact (h.attributes.resolve_left nofun).resolve_left nofun
  | true =>
    have hjoin : fieldsOf number (splitCategory (joinCategory token)) = fieldsOf number token ↔
        IsTransparent ⟨true, add⟩ token := by
      refine fieldsOf_splitCategory_joinCategory_iff.trans ⟨fun h => ⟨.inr h, .inr (.inl rfl)⟩, ?_⟩
      exact fun h => h.category.resolve_left nofun
    cases add with
    | false => exact hjoin
    | true =>
      rw [← decode_encode_repeated_joined] at hjoin
      exact hjoin

/-! ### Records -/

variable {options : Options} {docid : Option Text} {record : Text} {s : Sentence}

/-- Plain tokens have the same row when they have the same fields. -/
theorem rowText_eq_iff {a b : Token} {number : Nat} (ha : a.IsPlain) (hb : b.IsPlain) :
    rowText number a = rowText number b ↔ fieldsOf number a = fieldsOf number b :=
  Text.joined_inj (fieldsOf_ne_nil number a) (fieldsOf_ne_nil number b)
    (fun _ hfield => (isPlain_of_mem_fieldsOf ha hfield).tab_not_mem)
    (fun _ hfield => (isPlain_of_mem_fieldsOf hb hfield).tab_not_mem)

/-- **Tokens one by one.** The rows of plain tokens survive the encodings when all of the tokens are
transparent. -/
theorem rowTexts_decode_encode_iff {tokens : List Token} {number : Nat}
    (h : ∀ token ∈ tokens, token.IsPlain) :
    rowTexts number (tokens.map fun token => decode options (encode options token)) =
        rowTexts number tokens ↔
      ∀ token ∈ tokens, IsTransparent options token := by
  induction tokens generalizing number with
  | nil => exact iff_of_true rfl fun token htoken => absurd htoken List.not_mem_nil
  | cons token tokens ih =>
    obtain ⟨htoken, htokens⟩ := List.forall_mem_cons.mp h
    have hrow : rowText number (decode options (encode options token)) = rowText number token ↔
        IsTransparent options token := by
      rw [rowText_eq_iff (isPlain_decode (isPlain_encode htoken)) htoken,
        fieldsOf_decode_encode_iff]
    rw [List.map_cons, rowTexts_cons, rowTexts_cons, List.cons.injEq, hrow, ih htokens,
      List.forall_mem_cons]

/-- The texts of two lists of rows of plain tokens agree when the rows do. -/
theorem blockText_rowTexts_inj {as bs : List Token} (has : as ≠ []) (hbs : bs ≠ [])
    (ha : ∀ token ∈ as, token.IsPlain) (hb : ∀ token ∈ bs, token.IsPlain) :
    blockText (rowTexts 1 as) = blockText (rowTexts 1 bs) ↔ rowTexts 1 as = rowTexts 1 bs := by
  rw [blockText, blockText, List.append_left_inj]
  exact Text.joined_inj (by simpa [rowTexts] using has) (by simpa [rowTexts] using hbs)
    (fun _ hrow => lineFeed_not_mem_of_mem_rowTexts ha hrow)
    (fun _ hrow => lineFeed_not_mem_of_mem_rowTexts hb hrow)

/-- A record that is read as a sentence without a note is read as one under any options. -/
theorem exists_read_of_read (options : Options) (hread : read {} docid record = .ok (some s))
    (hnote : s.note = none) :
    ∃ t, read options docid record = .ok (some t) ∧ t.note = none := by
  obtain ⟨rows, -, hne, hrows, hlen, -, -⟩ := rows_of_read hread hnote
  exact ⟨_, read_eq_some_iff.mpr ⟨rows, hrows, hne, hlen, rfl⟩⟩

/-- **Transparency.** Take a record that is read as a sentence without a note. Under any options it
is read and written back, and the text is the one without encodings if and only if all its token
lines are transparent for the options. -/
theorem write_read_eq_iff_transparent (options : Options)
    (hread : read {} docid record = .ok (some s)) (hnote : s.note = none) :
    ∃ t encoded unencoded,
      read options docid record = .ok (some t) ∧ write options t = .ok encoded ∧
      write {} s = .ok unencoded ∧
      (encoded = unencoded ↔
        ∀ entry ∈ tokenLines record, IsTransparent options (tokenOf entry.1)) := by
  obtain ⟨t, hread', hnote'⟩ := exists_read_of_read options hread hnote
  refine ⟨t, _, _, hread', write_of_read hread' hnote', write_of_read hread hnote, ?_⟩
  have hplain : ∀ token ∈ lineTokens record, token.IsPlain :=
    fun _ htoken => isPlain_of_mem_lineTokens htoken
  have hplain' : ∀ token ∈ (lineTokens record).map fun token =>
      decode options (encode options token), token.IsPlain :=
    List.forall_mem_map.mpr fun token htoken =>
      isPlain_decode (isPlain_encode (hplain token htoken))
  have hne := lineTokens_ne_nil_of_read hread hnote
  rw [rewrittenRows_default, rewrittenRows,
    blockText_rowTexts_inj (by simpa using hne) hne hplain' hplain,
    rowTexts_decode_encode_iff hplain]
  exact List.forall_mem_map

/-- A record with two plus signs at the seam of category and tag, and an attribute of the name of a
repeated tag. -/
def seamRecord : Text := "1\ta\t_\tN+\tT\tfPOS=x\t0\t_\n2\tb\t_\tN\t_\tfPOS\t1\t_".toList

/-- What the record is read as. -/
def seamSentence : Sentence :=
  { docid := none
    text := ['a', ' ', 'b']
    tokens :=
      [{ word := ['a'], start := 0, last := 0, category := some ['N', '+'], tag := some ['T']
         attributes := [⟨posAttribute, ['x']⟩] },
       { word := ['b'], start := 2, last := 2, category := some ['N'], head := some 0
         attributes := [⟨posAttribute, defaultValue⟩] }] }

/-- Joining changes what the record is written back as. -/
theorem write_read_seamRecord :
    read {} none seamRecord = .ok (some seamSentence) ∧ seamSentence.note = none ∧
      ∃ t encoded unencoded,
        read { joinCategoryToPos := true } none seamRecord = .ok (some t) ∧
        write { joinCategoryToPos := true } t = .ok encoded ∧
        write {} seamSentence = .ok unencoded ∧ encoded ≠ unencoded := by
  have hread : read {} none seamRecord = .ok (some seamSentence) := by rfl
  obtain ⟨t, encoded, unencoded, hread', hencoded, hunencoded, hsame⟩ :=
    write_read_eq_iff_transparent { joinCategoryToPos := true } hread rfl
  refine ⟨hread, rfl, t, encoded, unencoded, hread', hencoded, hunencoded, fun h => ?_⟩
  have hmem : ("1\ta\t_\tN+\tT\tfPOS=x\t0\t_".toList, 1) ∈ tokenLines seamRecord := by decide
  have hseparable := (hsame.mp h _ hmem).category.resolve_left nofun
  exact hseparable.no_plus_at_end (by decide)

end Corpus.Conll
