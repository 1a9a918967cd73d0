import Corpus.Proofs.Sentence.Alignment

/-!
# Well-formed sentences

* A sentence is well formed when it has from one to a hundred tokens, which are aligned with its text
  and have no empty annotation and no negative head.
* A placeholder is the sentence of one fixed word with a note that is a block of comment lines.
* A sound draft has all of this ready, for the sentence of its tokens as well as for the one that
  consists of a note. So whatever it becomes is well formed.
-/

namespace Corpus

/-- **Proper token.** An annotation that is there is not empty, and a head that is there is not
negative. -/
structure Token.IsProper (token : Token) : Prop where
  category : token.category ≠ some []
  tag : token.tag ≠ some []
  label : token.label ≠ some []
  head : ∀ head ∈ token.head, 0 ≤ head

/-- **Well-formed sentence.** Its words stand `gap` spaces apart in the text. -/
structure Sentence.IsWellFormed (gap : Nat) (s : Sentence) : Prop where
  tokens_ne_nil : s.tokens ≠ []
  length_le : s.tokens.length ≤ 100
  aligned : AreAligned gap s.text s.tokens
  proper : ∀ token ∈ s.tokens, token.IsProper

/-- **Placeholder.** The sentence of one fixed word with a note that starts with a hash sign and ends
in a line feed. -/
structure Sentence.IsPlaceholder (note : Text) (s : Sentence) : Prop where
  hash : ['#'] <+: note
  lineFeed : ['\n'] <:+ note
  text : s.text = "#DUMMY#".toList
  tokens : ∃ token, s.tokens = [token] ∧ token.word = "#DUMMY#".toList ∧ token.span = (0, 6)

/-- **Sound draft.** -/
structure Draft.IsSound (gap : Nat) (draft : Draft) : Prop where
  aligned : AreAligned gap draft.text draft.tokens
  proper : ∀ token ∈ draft.tokens, token.IsProper
  standIn_word : draft.standIn.word = placeholderWord
  standIn_span : draft.standIn.span = (0, 6)
  standIn_proper : draft.standIn.IsProper
  comments : draft.comments ≠ [] → ['#'] <+: draft.comments ∧ ['\n'] <:+ draft.comments

variable {gap : Nat} {draft : Draft} {s : Sentence} {token : Token}

/-- Moving a token keeps it proper. -/
theorem isProper_movedTo (place token : Token) : (place.movedTo token).IsProper ↔ token.IsProper :=
  ⟨fun h => ⟨h.category, h.tag, h.label, h.head⟩, fun h => ⟨h.category, h.tag, h.label, h.head⟩⟩

/-- Placed words are proper tokens. -/
theorem isProper_of_mem_placed {offset : Nat} {words : List Text}
    (h : token ∈ Token.placed gap offset words) : token.IsProper := by
  obtain ⟨word, -, start, last, rfl⟩ := Token.exists_of_mem_placed h
  exact ⟨nofun, nofun, nofun, nofun⟩

/-- The token of a placeholder is aligned with its text. -/
theorem areAligned_placeholder (gap : Nat) (hword : token.word = placeholderWord)
    (hspan : token.span = (0, 6)) : AreAligned gap placeholderWord [token] := by
  have htext : spreadText gap ([token].map Token.word) = placeholderWord := by
    rw [List.map_singleton, hword, spreadText, Text.joined, List.intercalate_singleton]
  have hplaced : ArePlaced gap 0 [token] := by
    obtain ⟨hstart, hlast⟩ := Prod.mk.inj hspan
    refine arePlaced_cons.mpr ⟨⟨hstart, ?_⟩, rfl⟩
    rw [hlast, hword]
    decide
  exact htext ▸ areAligned_of_arePlaced hplaced

/-- A note on too many tokens starts with a hash sign and ends in a line feed. -/
theorem skipNote_bounds (quoted : Text) :
    ['#'] <+: skipNote quoted ∧ ['\n'] <:+ skipNote quoted := by
  have hbounds (first : Text) (hfirst : ['#'] <+: first) :
      ['#'] <+: first ++ quoted ++ ['\n'] ∧ ['\n'] <:+ first ++ quoted ++ ['\n'] := by
    refine ⟨?_, List.suffix_append _ _⟩
    rw [List.append_assoc]
    exact hfirst.trans (List.prefix_append _ _)
  exact hbounds "#skip because token_size() > 100\n#".toList (by decide)

/-- The note of a sound draft. -/
theorem Draft.IsSound.note_bounds (h : draft.IsSound gap) {note : Text}
    (hnote : tokenLimit < draft.tokens.length ∧ note = skipNote draft.quoted ∨
      draft.tokens = [] ∧ draft.comments ≠ [] ∧ note = draft.comments) :
    ['#'] <+: note ∧ ['\n'] <:+ note := by
  rcases hnote with ⟨-, rfl⟩ | ⟨-, hcomments, rfl⟩
  · exact skipNote_bounds draft.quoted
  · exact h.comments hcomments

/-- **The sentence of a note** is a well-formed placeholder. -/
theorem Draft.IsSound.noted (h : draft.IsSound gap) {note : Text}
    (hnote : ['#'] <+: note ∧ ['\n'] <:+ note) :
    (draft.noted note).IsWellFormed gap ∧ (draft.noted note).IsPlaceholder note := by
  constructor
  · exact ⟨List.cons_ne_nil _ _, (by decide : 1 ≤ 100),
      areAligned_placeholder gap h.standIn_word h.standIn_span,
      List.forall_mem_singleton.mpr h.standIn_proper⟩
  · exact ⟨hnote.1, hnote.2, rfl, draft.standIn, rfl, h.standIn_word, h.standIn_span⟩

/-- **Sound drafts become well-formed sentences.** -/
theorem Draft.IsSound.finish (h : draft.IsSound gap) (hfinish : draft.finish = some s) :
    s.docid = draft.docid ∧ s.IsWellFormed gap ∧ ∀ note ∈ s.note, s.IsPlaceholder note := by
  cases hnote : s.note with
  | none =>
    obtain ⟨hne, hlength, rfl⟩ := Draft.finish_eq_some_iff.mp ⟨hfinish, hnote⟩
    exact ⟨rfl, ⟨hne, hlength, h.aligned, h.proper⟩, nofun⟩
  | some note =>
    obtain ⟨rfl, hcases⟩ := Draft.finish_eq_noted_iff.mp ⟨hfinish, hnote⟩
    obtain ⟨hwellFormed, hplaceholder⟩ := h.noted (h.note_bounds hcases)
    refine ⟨rfl, hwellFormed, ?_⟩
    rintro _ ⟨⟩
    exact hplaceholder

end Corpus
