import Corpus.Format
import Corpus.Proofs.Conll.Notes
import Corpus.Proofs.Sentence.WellFormed

/-!
# What is read is well formed

The readers of all formats end in a sound draft, so that every sentence they give is well formed.

* In the line formats the tokens are the placed words or characters themselves.
* In a tab-separated record the tokens of the rows are put in place, and the encodings leave no
  annotation empty.
-/

namespace Corpus

/-! ### Lines -/

theorem spreadText_singletons (text : Text) : spreadText 0 (text.map ([·])) = text := by
  induction text with
  | nil => rfl
  | cons c text ih =>
    cases text with
    | nil => rfl
    | cons d text =>
      rw [List.map_cons, List.map_cons, spreadText_cons_cons]
      exact congrArg (c :: ·) ih

namespace LineText

/-- A draft of placed words and their text is sound. -/
theorem isSound_placed (docid : Option Text) (gap : Nat) (words : List Text) :
    Draft.IsSound gap
      { docid, tokens := Token.placed gap 0 words, text := spreadText gap words } where
  aligned := by
    have haligned := areAligned_of_arePlaced (arePlaced_placed gap 0 words)
    rwa [Token.map_word_placed] at haligned
  proper _ htoken := isProper_of_mem_placed htoken
  standIn_word := rfl
  standIn_span := rfl
  standIn_proper := ⟨nofun, nofun, nofun, nofun⟩
  comments hcomments := absurd rfl hcomments

end LineText

/-! ### Rows -/

namespace Conll

variable {options : Options} {token : Token} {record : Text} {rows : List Row}

theorem annotation_ne_some_nil (field : Text) : annotation field ≠ some [] := by
  unfold annotation
  split
  · exact nofun
  · rename_i hne
    exact fun h => hne (Option.some.inj h)

/-- The token of a row is proper. -/
theorem isProper_token (row : Row) : row.token.IsProper where
  category := annotation_ne_some_nil row.category
  tag := annotation_ne_some_nil row.tag
  label := annotation_ne_some_nil row.label
  head head hhead := by
    simp only [Row.token] at hhead
    split at hhead
    · obtain rfl := Option.some.inj hhead
      omega
    · cases hhead

theorem isProper_joinCategory (h : token.IsProper) : (joinCategory token).IsProper where
  category := nofun
  tag := by simp [joinCategory, categorySeparator]
  label := h.label
  head := h.head

theorem isProper_addPos (h : token.IsProper) : (addPos token).IsProper := by
  rw [addPos]
  split
  · exact h
  · exact h
  · exact ⟨h.category, h.tag, h.label, h.head⟩

/-- **Encoding keeps tokens proper.** -/
theorem isProper_encode (h : token.IsProper) : (encode options token).IsProper := by
  obtain ⟨join, add⟩ := options
  cases join <;> cases add
  · exact h
  · exact isProper_addPos h
  · exact isProper_joinCategory h
  · exact isProper_addPos (isProper_joinCategory h)

theorem isProper_nounPlaceholder : nounPlaceholder.IsProper :=
  ⟨(by decide : some "NOUN".toList ≠ some []), (by decide : some "NN".toList ≠ some []), nofun,
    nofun⟩

/-- The comments of a record start with a hash sign and end in a line feed. -/
theorem comments_bounds (h : comments record ≠ []) :
    ['#'] <+: comments record ∧ ['\n'] <:+ comments record := by
  obtain ⟨lines, hlines, hcomments⟩ := exists_noteLines_comments record
  rw [hcomments] at h ⊢
  constructor
  · cases lines with
    | nil => exact absurd rfl h
    | cons line lines =>
      rw [List.flatMap_cons, List.append_assoc]
      exact (List.forall_mem_cons.mp hlines).1.hash.trans (List.prefix_append _ _)
  · rcases List.eq_nil_or_concat lines with rfl | ⟨before, line, rfl⟩
    · exact absurd rfl h
    · rw [List.concat_eq_append, List.flatMap_append, List.flatMap_singleton, ← List.append_assoc]
      exact List.suffix_append _ _

/-- **The draft of a record is sound.** -/
theorem isSound_draft (options : Options) (docid : Option Text) (record : Text)
    (rows : List Row) : (draft options docid record rows).IsSound 1 where
  aligned := by
    have haligned := areAligned_of_arePlaced (arePlaced_inPlace (tokensOf options rows))
    rw [map_inPlace (f := Token.word) fun _ _ => rfl] at haligned
    rw [tokens_draft, text_draft]
    exact haligned
  proper := by
    rw [tokens_draft]
    exact (forall_mem_inPlace_iff isProper_movedTo).mpr
      (List.forall_mem_map.mpr fun row _ => isProper_encode (isProper_token row))
  standIn_word := word_encode options nounPlaceholder
  standIn_span := congrArg (fun frame => frame.2.1) (frame_encode options nounPlaceholder)
  standIn_proper := isProper_encode isProper_nounPlaceholder
  comments := comments_bounds

end Conll

/-! ### All formats -/

/-- The number of spaces between the words of a sentence that is read from a format. -/
def Format.gap : Format → Nat
  | characters => 0
  | _ => 1

/-- A sentence that is read is what a sound draft has become. -/
theorem Codec.exists_sound_draft {codec : Codec} {docid : Option Text} {record : Text}
    {s : Sentence} (h : codec.read docid record = .ok (some s)) :
    ∃ draft : Draft, draft.docid = docid ∧ draft.IsSound codec.format.gap ∧
      draft.finish = some s := by
  obtain ⟨format, options⟩ := codec
  cases format with
  | conll =>
    obtain ⟨rows, -, hfinish⟩ := Conll.read_eq_ok_iff.mp h
    exact ⟨_, rfl, Conll.isSound_draft options docid record rows, hfinish⟩
  | tokenized =>
    exact ⟨_, rfl, LineText.isSound_placed docid 1 (spacedWords record), Except.ok.inj h⟩
  | characters =>
    have hsound := LineText.isSound_placed docid 0 (record.map ([·]))
    rw [spreadText_singletons] at hsound
    exact ⟨_, rfl, hsound, Except.ok.inj h⟩
  | english =>
    exact ⟨_, rfl, LineText.isSound_placed docid 1 (spacedWords (English.rewrite record)),
      Except.ok.inj h⟩
  | lines => cases h

/-- **Readers give well-formed sentences.** A sentence that is read from a record has the given
document, is well formed, and is a placeholder when it has a note. -/
theorem Codec.read_isWellFormed {codec : Codec} {docid : Option Text} {record : Text}
    {s : Sentence} (h : codec.read docid record = .ok (some s)) :
    s.docid = docid ∧ s.IsWellFormed codec.format.gap ∧ ∀ note ∈ s.note, s.IsPlaceholder note := by
  obtain ⟨draft, rfl, hsound, hfinish⟩ := Codec.exists_sound_draft h
  exact hsound.finish hfinish

/-- A record with a letter of two bytes, an empty word and a head that points forward. -/
def sparseRecord : Text := "1\té\t_\tN\t_\t_\t2\t_\n2\t\t_\t_\tV\t_\t-1\tr".toList

/-- What the record is read as when the category is joined to the tag and the tag repeated. -/
def sparseSentence : Sentence :=
  { docid := some ['d']
    text := ['é', ' ']
    tokens :=
      [{ word := ['é'], start := 0, last := 1, tag := some "N++".toList, head := some 1
         attributes := [⟨Conll.posAttribute, "N++".toList⟩] },
       { word := [], start := 3, last := 2, tag := some "++V".toList, label := some ['r']
         attributes := [⟨Conll.posAttribute, "++V".toList⟩] }] }

/-- A sentence with an empty word and one that is a note are well formed. -/
theorem Codec.read_sparseRecord :
    let codec : Codec := { format := .conll, options := ⟨true, true⟩ }
    let noted := Conll.noteSentence codec.options (some []) "#c\n".toList
    codec.read (some ['d']) sparseRecord = .ok (some sparseSentence) ∧
      sparseSentence.IsWellFormed 1 ∧
      codec.read (some []) "\n#c\tx\n1-2".toList = .ok (some noted) ∧
      noted.IsWellFormed 1 ∧ noted.IsPlaceholder "#c\n".toList := by
  intro codec noted
  have hsparse : codec.read (some ['d']) sparseRecord = .ok (some sparseSentence) := by rfl
  have hnoted : codec.read (some []) "\n#c\tx\n1-2".toList = .ok (some noted) := by rfl
  obtain ⟨-, hwellFormed, -⟩ := Codec.read_isWellFormed hsparse
  obtain ⟨-, hwellFormed', hplaceholder⟩ := Codec.read_isWellFormed hnoted
  exact ⟨hsparse, hwellFormed, hnoted, hwellFormed', hplaceholder _ rfl⟩

end Corpus
