import Corpus.Proofs.Conll.RoundTrip
import Corpus.Proofs.Conversion.Writable
import Corpus.Proofs.Format.Unbroken

/-!
# Lines as tab-separated records

What is read from a line is written as a tab-separated record and read back from it. Nothing in a row
or a comment stands for a tab, so that whatever holds one is cut there.

* Words are read back exactly when none of them holds a tab. Words that are read from rows hold none,
  whatever was written; words without tabs are the words of their rows.
* A note of comment lines is always read back as a note. Of each line there is left what stands before
  the first tab, and no carriage return at its end (`reread_commentLines`).
-/

namespace Corpus

variable {s again : Sentence} {record line note quoted : Text} {lines : List Text}
  {docid : Option Text} {codec : Codec}

namespace Conll

/-! ### Words -/

theorem isPlain_of_mem_placed {gap : Nat} {words : List Text} {token : Token}
    (h : token ∈ Token.placed gap 0 words) (hword : Text.IsPlain token.word) : token.IsPlain := by
  obtain ⟨word, -, start, last, rfl⟩ := Token.exists_of_mem_placed h
  exact ⟨hword, Text.isPlain_nil, Text.isPlain_nil, Text.isPlain_nil, fun _ hmem => nomatch hmem⟩

/-- What is read back of a sentence has plain words, whatever the sentence is. -/
theorem isPlain_word_of_reread (h : reread s = .ok (some again)) :
    ∀ token ∈ again.tokens, Text.IsPlain token.word := by
  rw [reread] at h
  cases hwrite : write {} s with
  | error e =>
    rw [hwrite] at h
    cases h
  | ok text =>
    rw [hwrite] at h
    exact fun token htoken => (isPlain_of_mem_tokens h token htoken).word

/-- The words of plain tokens that are not empty are read back. -/
theorem exists_reread_words (hnote : s.note = none) (hne : s.tokens ≠ [])
    (hlen : s.tokens.length ≤ tokenLimit) (hhead : ∀ token ∈ s.tokens, IsWritable token.head)
    (hplain : ∀ token ∈ s.tokens, token.IsPlain) (hwords : ∀ token ∈ s.tokens, token.word ≠ []) :
    ∃ again, reread s = .ok (some again) ∧
      again.tokens.map Token.word = s.tokens.map Token.word := by
  refine ⟨_, reread_eq_ofTokens hnote hhead hne hlen hplain, ?_⟩
  rw [Sentence.ofTokens, map_inPlace fun _ _ => rfl, List.map_map]
  exact List.map_congr_left fun token htoken => writtenField_eq_self_iff.mpr (hwords token htoken)

/-! ### Comment lines -/

/-- What is left of a comment line that is written and read back. -/
def rereadLine (line : Text) : Text := column 0 (dropReturn line)

theorem isPrefix_dropReturn (line : Text) : dropReturn line <+: line := by
  rw [dropReturn]
  split
  · exact List.dropLast_prefix line
  · exact List.prefix_rfl

theorem isPrefix_column_zero (line : Text) : column 0 line <+: line := by
  rcases column_zero_cases line with ⟨-, hsame⟩ | ⟨rest, hline⟩
  · exact ⟨[], (List.append_nil _).trans hsame⟩
  · exact ⟨'\t' :: rest, hline.symm⟩

/-- A line is left as it is when it has no tab and no carriage return at its end. -/
theorem rereadLine_eq_self_iff :
    rereadLine line = line ↔ '\t' ∉ line ∧ line.getLast? ≠ some '\r' := by
  rw [rereadLine]
  constructor
  · intro hsame
    have hlonger := (isPrefix_column_zero (dropReturn line)).length_le
    rw [hsame] at hlonger
    have hdrop : dropReturn line = line := (isPrefix_dropReturn line).eq_of_length_le hlonger
    rw [hdrop] at hsame
    exact ⟨column_zero_eq_self_iff.mp hsame, dropReturn_eq_self_iff.mp hdrop⟩
  · rintro ⟨htab, hreturn⟩
    rw [dropReturn_eq_self_iff.mpr hreturn, column_zero_eq_self_iff.mpr htab]

/-- **Comment lines read back.** -/
theorem reread_commentLines (hne : lines ≠ []) (hlines : ∀ line ∈ lines, IsCommentLine line)
    (hnote : s.note = some (lines.flatMap (· ++ ['\n']))) :
    reread s = .ok (some (noteSentence {} s.docid
      ((lines.map rereadLine).flatMap (· ++ ['\n'])))) := by
  have hwrite : write {} s = .ok (blockOf lines) := by
    rw [write, hnote, blockOf_eq]
  have hrecord := Stream.record_of_records_eq_cons
    (Stream.records_blockOf fun line hline => (hlines line hline).isBlockLine)
  have hdropped : ∀ line ∈ lines.map dropReturn, IsCommentLine line :=
    List.forall_mem_map.mpr fun line hline => (hlines line hline).dropReturn
  have hread : read {} s.docid ((lines.map dropReturn).flatMap (· ++ ['\n'])) = _ :=
    read_commentLines (by simpa using hne) hdropped
  rw [List.map_map] at hread
  rw [reread, hwrite]
  exact (congrArg (read {} s.docid) hrecord).trans hread

/-- The quoted text can be told from the note. -/
theorem skipNote_inj {other : Text} : skipNote quoted = skipNote other ↔ quoted = other := by
  simp only [skipNote_eq_flatMap, List.flatMap_cons, List.append_cancel_left_eq,
    List.append_cancel_right_eq, List.cons.injEq, true_and]

/-- **A quoted text is read back** unless it has a tab, or a carriage return at its end. -/
theorem reread_skipNote (hquoted : '\n' ∉ quoted) (hnote : s.note = some (skipNote quoted)) :
    ∃ again, reread s = .ok (some again) ∧
      (again.note = some (skipNote quoted) ↔ '\t' ∉ quoted ∧ quoted.getLast? ≠ some '\r') := by
  have hreason : IsCommentLine skipReason := ⟨⟨skipReason.tail, by decide⟩, by decide⟩
  have hline : IsCommentLine ('#' :: quoted) :=
    ⟨⟨quoted, rfl⟩, List.not_mem_cons_of_ne_of_not_mem (by decide) hquoted⟩
  have hlines := List.forall_mem_cons.mpr ⟨hreason, List.forall_mem_singleton.mpr hline⟩
  rw [skipNote_eq_flatMap] at hnote ⊢
  refine ⟨_, reread_commentLines (List.cons_ne_nil _ _) hlines hnote, ?_⟩
  have hkept : rereadLine skipReason = skipReason := by decide
  have hsame : rereadLine ('#' :: quoted) = '#' :: quoted ↔
      '\t' ∉ quoted ∧ quoted.getLast? ≠ some '\r' := by
    rw [rereadLine_eq_self_iff, List.getLast?_cons]
    cases hlast : quoted.getLast? <;> simp
  rw [← hsame, noteSentence, List.map_cons, List.map_singleton, hkept, Option.some.injEq]
  simp only [List.flatMap_cons, List.append_cancel_left_eq, List.append_cancel_right_eq]

end Conll

/-! ### Lines -/

/-- **Lines through tab-separated records.** A line that is read as words is written and read back with
the same words exactly when none of them holds a tab. A line that is read as a note is always read back;
the note is the same exactly when the text that it quotes has no tab and no carriage return at its
end. -/
theorem Codec.reread_of_read (hmode : codec.format.mode = .line) (hrecord : '\n' ∉ record)
    (hread : codec.read docid record = .ok (some s)) :
    (s.note = none →
      ((∃ again, Conll.reread s = .ok (some again) ∧
          again.tokens.map Token.word = s.tokens.map Token.word) ↔
        ∀ token ∈ s.tokens, '\t' ∉ token.word)) ∧
    ∀ note, s.note = some note →
      ∃ quoted, note = skipNote quoted ∧
        ∃ again, Conll.reread s = .ok (some again) ∧
          (again.note = some note ↔ '\t' ∉ quoted ∧ quoted.getLast? ≠ some '\r') := by
  obtain ⟨gap, words, text, hwords, htext, hfinish⟩ := placesWords_of_read hmode hrecord hread
  refine ⟨fun hnote => ?_, fun note hnote => ?_⟩
  · have hhead := isWritable_of_mem_tokens hread
    obtain ⟨hne, hlen, rfl⟩ := Draft.finish_eq_some_iff.mp ⟨hfinish, hnote⟩
    constructor
    · rintro ⟨again, hagain, hsame⟩ token htoken
      have hmem := hsame ▸ List.mem_map_of_mem htoken
      obtain ⟨other, hother, hword⟩ := List.mem_map.mp hmem
      exact hword ▸ (Conll.isPlain_word_of_reread hagain other hother).tab_not_mem
    · intro htab
      have hplaced : ∀ token ∈ Token.placed gap 0 words, token.word ∈ words := fun token htoken =>
        Token.map_word_placed gap 0 words ▸ List.mem_map_of_mem htoken
      exact Conll.exists_reread_words rfl hne hlen hhead
        (fun token htoken => Conll.isPlain_of_mem_placed htoken
          ⟨htab token htoken, (hwords _ (hplaced token htoken)).2⟩)
        fun token htoken => (hwords _ (hplaced token htoken)).1
  · obtain ⟨-, ⟨-, rfl⟩ | ⟨-, hcomments, -⟩⟩ := Draft.finish_eq_noted_iff.mp ⟨hfinish, hnote⟩
    · exact ⟨text, rfl, Conll.reread_skipNote htext hnote⟩
    · exact absurd rfl hcomments

/-- A word with a letter of two bytes, and one with a carriage return in it and at its end. -/
def returnLine : Text := "é b\rc\r".toList

/-- The words of the line. -/
def returnSentence : Sentence :=
  { text := returnLine
    tokens :=
      [{ word := ['é'], start := 0, last := 1 },
       { word := "b\rc\r".toList, start := 3, last := 6 }] }

/-- A line of a hundred and one characters with a carriage return that is not at its end. -/
def longLine : Text := '\r' :: List.replicate 100 'é'

/-- The line with the carriage returns keeps its words, and the long line its note. -/
theorem Codec.reread_returnLine :
    let tokenized : Codec := { format := .tokenized }
    let characters : Codec := { format := .characters }
    let noted : Sentence := Draft.noted { docid := none, tokens := [], text := [] } (skipNote longLine)
    '\n' ∉ returnLine ∧ tokenized.read (some []) returnLine = .ok (some returnSentence) ∧
      (∃ again, Conll.reread returnSentence = .ok (some again) ∧
        again.tokens.map Token.word = returnSentence.tokens.map Token.word) ∧
      '\n' ∉ longLine ∧ characters.read none longLine = .ok (some noted) ∧
      ∃ again, Conll.reread noted = .ok (some again) ∧ again.note = noted.note := by
  intro tokenized characters noted
  have hfeed : '\n' ∉ returnLine := by decide
  have hread : tokenized.read (some []) returnLine = .ok (some returnSentence) := rfl
  have hfeed' : '\n' ∉ longLine := by decide
  have hread' : characters.read none longLine = .ok (some noted) := rfl
  refine ⟨hfeed, hread, ((Codec.reread_of_read rfl hfeed hread).1 rfl).mpr (by decide), hfeed', hread',
    ?_⟩
  obtain ⟨quoted, hquoted, again, hagain, hsame⟩ :=
    (Codec.reread_of_read rfl hfeed' hread').2 _ rfl
  obtain rfl := Conll.skipNote_inj.mp hquoted
  exact ⟨again, hagain, hsame.mpr (by decide)⟩

/-- A line whose only word holds a tab. -/
def tabLine : Text := "a\tb".toList

/-- The word of the line. -/
def tabSentence : Sentence :=
  { text := tabLine, tokens := [{ word := tabLine, start := 0, last := 2 }] }

/-- What stands after the tab is read as another column. -/
theorem Codec.reread_tabLine :
    let tokenized : Codec := { format := .tokenized }
    '\n' ∉ tabLine ∧ tokenized.read (some []) tabLine = .ok (some tabSentence) ∧
      tabSentence.note = none ∧
      (∃ again, Conll.reread tabSentence = .ok (some again) ∧ again.tokens.map Token.word = [['a']]) ∧
      ¬ ∃ again, Conll.reread tabSentence = .ok (some again) ∧
        again.tokens.map Token.word = tabSentence.tokens.map Token.word := by
  intro tokenized
  have hreread : Conll.reread tabSentence = .ok (some
      { text := ['a'], tokens := [{ word := ['a'], start := 0, last := 0, label := some ['0'] }] }) := by
    decide +kernel
  refine ⟨by decide, rfl, rfl, ⟨_, hreread, rfl⟩, ?_⟩
  rintro ⟨again, hagain, hsame⟩
  obtain rfl := Option.some.inj (Except.ok.inj (hreread.symm.trans hagain))
  exact absurd hsame (by decide)

end Corpus
