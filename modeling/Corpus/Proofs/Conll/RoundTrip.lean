import Corpus.Proofs.Conll.Rereading
import Corpus.Proofs.Conll.Rewriting

/-!
# The round trip

* A token is representable when nothing of it is lost between its row and the token that is read
  from the row: it is plain, no text of it is spelled like an open field, and its attributes are
  storable.
* A sentence is representable when it has as many tokens as a record may have, all of them are
  representable, and its text and places are those of its words.
* A sentence without a note is read back as itself exactly when it is representable.
-/

namespace Corpus

open Conll (defaultValue)

/-! ### Representable sentences -/

/-- **A text that fills a field.** It is plain and not taken for an open field. -/
structure Text.FillsField (text : Text) : Prop where
  ne_nil : text ≠ []
  ne_underscore : text ≠ ['_']
  isPlain : text.IsPlain

/-- **Representable token.** -/
structure Token.IsRepresentable (token : Token) : Prop where
  word_ne_nil : token.word ≠ []
  word : Text.IsPlain token.word
  category : ∀ text ∈ token.category, Text.FillsField text
  tag : ∀ text ∈ token.tag, Text.FillsField text
  label : ∀ text ∈ token.label, Text.FillsField text
  head : ∀ head ∈ token.head, 0 ≤ head
  storable : ∀ feature ∈ token.attributes, feature.IsStorable
  attributes : ∀ feature ∈ token.attributes,
    Text.IsPlain feature.name ∧ Text.IsPlain feature.value
  not_empty : token.attributes ≠ [⟨[], defaultValue⟩]
  not_underscore : token.attributes ≠ [⟨['_'], defaultValue⟩]

/-- **Representable sentence.** -/
structure Sentence.IsRepresentable (s : Sentence) : Prop where
  tokens_ne_nil : s.tokens ≠ []
  length_le : s.tokens.length ≤ tokenLimit
  text : s.text = wordText (s.tokens.map Token.word)
  spans : s.tokens.map Token.span = (wordTokens (s.tokens.map Token.word)).map Token.span
  tokens : ∀ token ∈ s.tokens, token.IsRepresentable

namespace Conll

variable {token : Token} {s : Sentence}

/-! ### Tokens -/

theorem writtenField_eq_self_iff {field : Text} : writtenField field = field ↔ field ≠ [] := by
  rw [writtenField]
  split
  · rename_i h
    simp [h]
  · rename_i h
    exact iff_of_true rfl h

/-- An annotation is read back unless it is spelled like an open field. -/
theorem annotation_writtenField_eq_iff {text : Option Text} :
    annotation (cleared (writtenField (text.getD []))) = text ↔
      ∀ field ∈ text, field ≠ [] ∧ field ≠ ['_'] := by
  cases text with
  | none => simp [writtenField, cleared, annotation]
  | some field =>
    by_cases hempty : field = []
    · simp [writtenField, cleared, annotation, hempty]
    · by_cases hopen : field = ['_']
      · simp [writtenField, cleared, annotation, hopen]
      · simp [writtenField, cleared, annotation, hempty, hopen]

/-- A head is read back unless it is negative. -/
theorem head_writtenHead_eq_iff {head : Option Int} :
    (if 0 < writtenHead head then some (writtenHead head - 1) else none) = head ↔
      ∀ n ∈ head, 0 ≤ n := by
  cases head with
  | none => simp [writtenHead]
  | some n =>
    simp only [Option.mem_some_iff, forall_eq']
    by_cases h : 0 < n + 1
    · rw [writtenHead, if_pos h, Int.add_sub_cancel]
      exact iff_of_true rfl (by omega)
    · rw [writtenHead, if_neg h]
      exact iff_of_false (Option.some_ne_none n).symm (by omega)

/-- **The token read back.** -/
theorem token_rereadRow_eq_iff :
    (rereadRow token).token = token.unplaced ↔
      token.word ≠ [] ∧
      (∀ text ∈ token.category, text ≠ [] ∧ text ≠ ['_']) ∧
      (∀ text ∈ token.tag, text ≠ [] ∧ text ≠ ['_']) ∧
      (∀ text ∈ token.label, text ≠ [] ∧ text ≠ ['_']) ∧
      (∀ head ∈ token.head, 0 ≤ head) ∧
      (∀ feature ∈ token.attributes, feature.IsStorable) ∧
      token.attributes ≠ [⟨[], defaultValue⟩] ∧ token.attributes ≠ [⟨['_'], defaultValue⟩] := by
  have hparts : (rereadRow token).token = token.unplaced ↔
      (rereadRow token).token.word = token.word ∧
      (rereadRow token).token.category = token.category ∧
      (rereadRow token).token.tag = token.tag ∧
      (rereadRow token).token.label = token.label ∧
      (rereadRow token).token.head = token.head ∧
      (rereadRow token).token.attributes = token.attributes := by
    simp only [Row.token, Token.unplaced, Token.mk.injEq, true_and]
  rw [hparts]
  exact and_congr writtenField_eq_self_iff
    (and_congr annotation_writtenField_eq_iff
      (and_congr annotation_writtenField_eq_iff
        (and_congr annotation_writtenField_eq_iff
          (and_congr head_writtenHead_eq_iff attributesIn_writeAttributes_eq_iff))))

theorem isPlain_getD_iff {text : Option Text} :
    Text.IsPlain (text.getD []) ↔ ∀ field ∈ text, Text.IsPlain field := by
  cases text with
  | none => exact iff_of_true Text.isPlain_nil nofun
  | some field => simp only [Option.getD_some, Option.mem_some_iff, forall_eq']

theorem fillsField_iff {text : Option Text} :
    (∀ field ∈ text, Text.FillsField field) ↔
      (∀ field ∈ text, field ≠ [] ∧ field ≠ ['_']) ∧ Text.IsPlain (text.getD []) := by
  rw [isPlain_getD_iff]
  constructor
  · intro h
    exact ⟨fun field hfield => ⟨(h field hfield).ne_nil, (h field hfield).ne_underscore⟩,
      fun field hfield => (h field hfield).isPlain⟩
  · rintro ⟨hspelled, hplain⟩ field hfield
    exact ⟨(hspelled field hfield).1, (hspelled field hfield).2, hplain field hfield⟩

/-- **Representable tokens.** They are plain and read back from their rows. -/
theorem isRepresentable_iff :
    token.IsRepresentable ↔ token.IsPlain ∧ (rereadRow token).token = token.unplaced := by
  rw [token_rereadRow_eq_iff]
  constructor
  · intro h
    have hcategory := fillsField_iff.mp h.category
    have htag := fillsField_iff.mp h.tag
    have hlabel := fillsField_iff.mp h.label
    exact ⟨⟨h.word, hcategory.2, htag.2, hlabel.2, h.attributes⟩, h.word_ne_nil, hcategory.1,
      htag.1, hlabel.1, h.head, h.storable, h.not_empty, h.not_underscore⟩
  · rintro ⟨h, hword, hcategory, htag, hlabel, hhead, hstorable, hempty, hunderscore⟩
    exact ⟨hword, h.word, fillsField_iff.mpr ⟨hcategory, h.category⟩,
      fillsField_iff.mpr ⟨htag, h.tag⟩, fillsField_iff.mpr ⟨hlabel, h.label⟩, hhead, hstorable,
      h.attributes, hempty, hunderscore⟩

instance (token : Token) : Decidable token.IsRepresentable :=
  decidable_of_iff' _ isRepresentable_iff

instance (s : Sentence) : Decidable s.IsRepresentable :=
  decidable_of_iff
    (s.tokens ≠ [] ∧ s.tokens.length ≤ tokenLimit ∧
      s.text = wordText (s.tokens.map Token.word) ∧
      s.tokens.map Token.span = (wordTokens (s.tokens.map Token.word)).map Token.span ∧
      ∀ token ∈ s.tokens, token.IsRepresentable)
    ⟨fun ⟨hne, hlen, htext, hspans, htokens⟩ => ⟨hne, hlen, htext, hspans, htokens⟩,
      fun h => ⟨h.tokens_ne_nil, h.length_le, h.text, h.spans, h.tokens⟩⟩

/-! ### Sentences -/

/-- **Written and read back.** What is read, without encodings, from the first block of what the
sentence is written as. -/
def reread (s : Sentence) : Except Error (Option Sentence) := do
  let text ← write {} s
  read {} s.docid ((Stream.text text).readRecord .block).record

/-- A head of fewer digits than the digit limit can be written. -/
theorem isWritable_of_length_lt {head : Option Int}
    (h : ∀ n ∈ head, (Numeral.ofNat n.natAbs).length < Numeral.digitLimit) : IsWritable head := by
  cases head with
  | none => exact (by decide : (Numeral.ofNat 0).length ≤ Numeral.digitLimit)
  | some n =>
    have hsucc : (n + 1).natAbs ≤ n.natAbs + 1 := by omega
    calc (Numeral.ofNat (n + 1).natAbs).length
        ≤ (Numeral.ofNat (n.natAbs + 1)).length := Numeral.length_ofNat_le hsucc
      _ ≤ (Numeral.ofNat n.natAbs).length + 1 := Numeral.length_ofNat_succ_le _
      _ ≤ Numeral.digitLimit := h n rfl

/-- What a sentence with writable heads is read back as. -/
theorem reread_eq (hnote : s.note = none) (hhead : ∀ token ∈ s.tokens, IsWritable token.head) :
    reread s =
      read {} s.docid
        ((Stream.text (blockText (rowTexts 1 s.tokens))).readRecord .block).record := by
  have hdecode : s.tokens.map (decode {}) = s.tokens := List.map_id' s.tokens
  rw [reread, write_eq_ok hnote hhead, hdecode]
  rfl

/-- **Plain sentences read back.** The sentence of the tokens that are read from the rows. -/
theorem reread_eq_ofTokens (hnote : s.note = none)
    (hhead : ∀ token ∈ s.tokens, IsWritable token.head) (hne : s.tokens ≠ [])
    (hlen : s.tokens.length ≤ tokenLimit) (hplain : ∀ token ∈ s.tokens, token.IsPlain) :
    reread s = .ok (some (Sentence.ofTokens s.docid
      (s.tokens.map fun token => (rereadRow token).token))) := by
  rw [reread_eq hnote hhead, readRecord_blockText hne hplain]
  refine (read_eq_some_iff.mpr ⟨s.tokens.map rereadRow, readRows_record hlen hplain hhead, ?_, ?_,
    ?_⟩).1
  · simpa using hne
  · simpa using hlen
  · rw [tokensOf, List.map_map]
    rfl

/-- Tokens are read back one by one. -/
theorem map_rereadRow_eq_iff {tokens : List Token} :
    (tokens.map fun token => (rereadRow token).token).map Token.unplaced =
        tokens.map Token.unplaced ↔
      ∀ token ∈ tokens, (rereadRow token).token = token.unplaced := by
  rw [List.map_map, List.map_inj_left]
  rfl

/-- **The round trip.** A sentence without a note whose heads have fewer digits than the digit limit
is read back as itself exactly when it is representable. -/
theorem reread_eq_self_iff (hnote : s.note = none)
    (hdigits : ∀ token ∈ s.tokens, ∀ head ∈ token.head,
      (Numeral.ofNat head.natAbs).length < Numeral.digitLimit) :
    reread s = .ok (some s) ↔ s.IsRepresentable := by
  have hhead : ∀ token ∈ s.tokens, IsWritable token.head :=
    fun token htoken => isWritable_of_length_lt (hdigits token htoken)
  constructor
  · intro h
    -- what was read is plain, so that its rows are known
    obtain ⟨hne, hlen, hplain⟩ := tokens_of_read ((reread_eq hnote hhead).symm.trans h) hnote
    rw [reread_eq_ofTokens hnote hhead hne hlen hplain, Except.ok.injEq, Option.some.injEq,
      Sentence.ofTokens_eq_iff hnote, map_rereadRow_eq_iff] at h
    obtain ⟨htokens, htext, hspans⟩ := h
    exact ⟨hne, hlen, htext, hspans,
      fun token htoken => isRepresentable_iff.mpr ⟨hplain token htoken, htokens token htoken⟩⟩
  · intro h
    have htokens := fun token htoken => isRepresentable_iff.mp (h.tokens token htoken)
    rw [reread_eq_ofTokens hnote hhead h.tokens_ne_nil h.length_le
      fun token htoken => (htokens token htoken).1]
    have hsame := (Sentence.ofTokens_eq_iff hnote).mpr
      ⟨map_rereadRow_eq_iff.mpr fun token htoken => (htokens token htoken).2, h.text, h.spans⟩
    rw [hsame]

/-- A sentence with an underscore for a word, a letter of two bytes, and attributes with an empty
name, with the value `on` and with an equals sign in the value. -/
def intricateSentence : Sentence :=
  { docid := none
    text := "_ é|".toList
    tokens :=
      [{ word := ['_'], start := 0, last := 0, category := some "++".toList, head := some 1
         attributes := [⟨[], ['x']⟩, ⟨['y'], defaultValue⟩, ⟨['_'], defaultValue⟩] },
       { word := "é|".toList, start := 2, last := 4, tag := some ['#'], label := some "1-2".toList
         attributes := [⟨['a'], "b=c".toList⟩] }] }

/-- The intricate sentence is representable and read back. -/
theorem reread_intricateSentence :
    intricateSentence.note = none ∧
      (∀ token ∈ intricateSentence.tokens, ∀ head ∈ token.head,
        (Numeral.ofNat head.natAbs).length < Numeral.digitLimit) ∧
      intricateSentence.IsRepresentable ∧
      reread intricateSentence = .ok (some intricateSentence) := by
  have hdigits : ∀ token ∈ intricateSentence.tokens, ∀ head ∈ token.head,
      (Numeral.ofNat head.natAbs).length < Numeral.digitLimit := by decide
  have hrepresentable : intricateSentence.IsRepresentable := by decide
  exact ⟨rfl, hdigits, hrepresentable, (reread_eq_self_iff rfl hdigits).mpr hrepresentable⟩

end Conll

end Corpus
