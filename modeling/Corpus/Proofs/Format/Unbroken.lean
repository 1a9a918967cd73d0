import Corpus.Proofs.Conll.Rereading
import Corpus.Proofs.English.Substitution
import Corpus.Proofs.Format.WellFormed
import Corpus.Proofs.Record.Whole

/-!
# Sentences without line feeds

What is read shows no line feed, so that what is written of it is a whole record.

* A sentence is unbroken when its tokens show no line feed and its note is made of lines of a block.
* Every reader gives unbroken sentences. The columns of a tab-separated record are cut from its lines,
  and the words of a line hold nothing that the line did not; no rule for English writes a line feed.
  A note quotes such a text, or is made of comments.
* Every writer makes a whole record of an unbroken sentence, in the mode of its own format.
-/

namespace Corpus

/-- **Unbroken sentence.** -/
structure Sentence.IsUnbroken (s : Sentence) : Prop where
  tokens_ne_nil : s.tokens ≠ []
  shown : ∀ token ∈ s.tokens, '\n' ∉ token.shown
  note : ∀ note ∈ s.note, ∃ lines : List Text,
    (∀ line ∈ lines, IsBlockLine line) ∧ note = lines.flatMap (· ++ ['\n'])

variable {s : Sentence} {record written : Text} {docid : Option Text} {options : Options}
  {codec : Codec}

/-! ### Reading -/

/-- A text without line feeds is quoted in a note of two lines. -/
theorem isBlockLine_of_mem_skipNote {quoted : Text} (h : '\n' ∉ quoted) :
    ∀ line ∈ [Conll.skipReason, '#' :: quoted], IsBlockLine line := by
  have hreason : IsBlockLine Conll.skipReason := ⟨by decide, by decide⟩
  exact List.forall_mem_cons.mpr ⟨hreason,
    List.forall_mem_singleton.mpr (isBlockLine_cons (by decide) (by decide) h)⟩

/-- Words show only what their text shows. -/
theorem not_mem_of_mem_spacedWords {c : Char} (h : c ∉ record) :
    ∀ word ∈ spacedWords record, c ∉ word := fun _ hword hmem =>
  h (Text.mem_of_mem_splitOn (List.mem_of_mem_filter hword) hmem)

/-- **Placed words** without line feeds become an unbroken sentence. -/
theorem isUnbroken_of_finish_placed {gap : Nat} {words : List Text} {text : Text}
    (hwords : ∀ word ∈ words, '\n' ∉ word) (htext : '\n' ∉ text)
    (h : Draft.finish { docid, tokens := Token.placed gap 0 words, text } = some s) :
    s.IsUnbroken := by
  have hshown : ∀ token ∈ Token.placed gap 0 words, '\n' ∉ token.shown := by
    intro token htoken
    obtain ⟨word, hword, start, last, rfl⟩ := Token.exists_of_mem_placed htoken
    simpa [Token.shown] using hwords word hword
  cases hnote : s.note with
  | none =>
    obtain ⟨hne, -, rfl⟩ := Draft.finish_eq_some_iff.mp ⟨h, hnote⟩
    refine ⟨hne, hshown, fun note hmem => ?_⟩
    cases hmem
  | some note =>
    obtain ⟨rfl, ⟨-, rfl⟩ | ⟨-, hcomments, -⟩⟩ := Draft.finish_eq_noted_iff.mp ⟨h, hnote⟩
    · have hstandIn : '\n' ∉ placeholder.shown := by decide
      refine ⟨List.cons_ne_nil _ _, List.forall_mem_singleton.mpr hstandIn,
        fun note hmem => ⟨_, isBlockLine_of_mem_skipNote htext, ?_⟩⟩
      rw [← Option.some.inj hmem]
      exact Conll.skipNote_eq_flatMap text
    · exact absurd rfl hcomments

/-- A tab-separated record is read as an unbroken sentence. -/
theorem Conll.isUnbroken_of_read (h : Conll.read options docid record = .ok (some s)) :
    s.IsUnbroken := by
  have hshown : ∀ token ∈ s.tokens, '\n' ∉ token.shown := fun token htoken =>
    (isPlain_of_mem_tokens h token htoken).lineFeed_not_mem
  cases hnote : s.note with
  | none =>
    refine ⟨(tokens_of_read h hnote).1, hshown, fun note hmem => ?_⟩
    cases hnote.symm.trans hmem
  | some note =>
    obtain ⟨rfl, lines, -, hlines, rfl⟩ := read_eq_noted h hnote
    refine ⟨List.cons_ne_nil _ _, hshown,
      fun note hmem => ⟨lines, fun line hline => (hlines line hline).isBlockLine, ?_⟩⟩
    exact (Option.some.inj hmem).symm

namespace LineText

/-- **Placed words.** What has been found is what words without line feeds become, none of them empty,
when they are placed in a text. -/
def PlacesWords (docid : Option Text) (found : Option Sentence) : Prop :=
  ∃ gap words text, (∀ word ∈ words, word ≠ [] ∧ '\n' ∉ word) ∧ '\n' ∉ text ∧
    Draft.finish { docid, tokens := Token.placed gap 0 words, text } = found

theorem placesWords_readTokenized (docid : Option Text) (hrecord : '\n' ∉ record) :
    PlacesWords docid (readTokenized docid record) := by
  have hfeed : ∀ word ∈ spacedWords record, '\n' ∉ word := not_mem_of_mem_spacedWords hrecord
  have hne : ∀ word ∈ spacedWords record, word ≠ [] := fun word hword => by
    simpa using (List.mem_filter.mp hword).2
  exact ⟨1, spacedWords record, wordText (spacedWords record),
    fun word hword => ⟨hne word hword, hfeed word hword⟩,
    Text.not_mem_joined (by decide) hfeed, rfl⟩

theorem placesWords_readCharacters (docid : Option Text) (hrecord : '\n' ∉ record) :
    PlacesWords docid (readCharacters docid record) := by
  refine ⟨0, record.map ([·]), record, List.forall_mem_map.mpr fun c hc => ?_, hrecord, rfl⟩
  refine ⟨List.cons_ne_nil _ _, fun hmem => hrecord ?_⟩
  rwa [List.mem_singleton.mp hmem]

end LineText

/-- Rewriting does not bring in a character that no rule for English writes. -/
theorem English.not_mem_rewrite_of_not_mem {c : Char}
    (hwritten : ∀ rule ∈ preprocessing ++ tokenization, c ∉ rule.written) (h : c ∉ record) :
    c ∉ rewrite record := by
  obtain ⟨hbefore, hafter⟩ := List.forall_mem_append.mp hwritten
  exact not_mem_applyRules_of_not_mem hafter (not_mem_applyRules_of_not_mem hbefore h)

/-- **A line is read as words** that are placed in a text. -/
theorem Codec.placesWords_of_read (hmode : codec.format.mode = .line) (hrecord : '\n' ∉ record)
    (h : codec.read docid record = .ok (some s)) : LineText.PlacesWords docid (some s) := by
  obtain ⟨format, options⟩ := codec
  cases format with
  | conll => cases hmode
  | tokenized => exact Except.ok.inj h ▸ LineText.placesWords_readTokenized docid hrecord
  | characters => exact Except.ok.inj h ▸ LineText.placesWords_readCharacters docid hrecord
  | english =>
    exact Except.ok.inj h ▸
      LineText.placesWords_readTokenized docid
        (English.not_mem_rewrite_of_not_mem (by decide) hrecord)
  | lines => cases h

/-- **What is read is unbroken**, when the records of a line format are without line feeds. -/
theorem Codec.isUnbroken_of_read (hrecord : codec.format.mode = .line → '\n' ∉ record)
    (h : codec.read docid record = .ok (some s)) : s.IsUnbroken := by
  by_cases hmode : codec.format.mode = .line
  · obtain ⟨gap, words, text, hwords, htext, hfinish⟩ :=
      placesWords_of_read hmode (hrecord hmode) h
    exact isUnbroken_of_finish_placed (fun word hword => (hwords word hword).2) htext hfinish
  · obtain ⟨format, options⟩ := codec
    cases format with
    | conll => exact Conll.isUnbroken_of_read h
    | _ => exact absurd rfl hmode

/-! ### Writing -/

/-- A tab-separated record is written as a block. -/
theorem Conll.isWhole_of_write (h : s.IsUnbroken) (hwrite : Conll.write options s = .ok written) :
    RecordMode.block.IsWhole written := by
  rw [Conll.write] at hwrite
  cases hnote : s.note with
  | some note =>
    obtain ⟨lines, hlines, rfl⟩ := h.note note hnote
    rw [hnote] at hwrite
    rw [← Except.ok.inj hwrite, ← blockOf_eq]
    exact .block hlines
  | none =>
    rw [hnote] at hwrite
    cases hrows : writeRows options 1 s.tokens with
    | error fault =>
      simp only [hrows] at hwrite
      cases hwrite
    | ok rows =>
      simp only [hrows] at hwrite
      obtain rfl := eq_rowTexts_of_writeRows hrows
      have hne : rowTexts 1 (s.tokens.map (decode options)) ≠ [] := by
        simpa [rowTexts] using h.tokens_ne_nil
      have hshown : ∀ token ∈ s.tokens.map (decode options), '\n' ∉ token.shown :=
        List.forall_mem_map.mpr fun token htoken hmem =>
          h.shown token htoken (shown_decode_subset options token hmem)
      have hblock : written = blockOf (rowTexts 1 (s.tokens.map (decode options))) :=
        (Except.ok.inj hwrite).symm.trans (blockText_eq_blockOf hne)
      rw [hblock]
      exact .block fun line hline => (isRecordLine_of_mem_rowTexts hshown hline).isBlockLine

namespace LineText

variable {token : Token} {word : Text} {words : List Text}

/-- A word is written without line feeds when none is shown of its token. -/
theorem lineFeed_not_mem_of_writtenToken (h : '\n' ∉ token.shown)
    (hwrite : writtenToken token = .ok word) : '\n' ∉ word := by
  obtain ⟨hword, -, htag, -⟩ := Token.not_mem_shown.mp h
  have htag' : '\n' ∉ (token.tag.map ('_' :: ·)).getD [] := by
    cases hcase : token.tag with
    | none => exact List.not_mem_nil
    | some tag =>
      rw [hcase] at htag
      exact List.not_mem_cons_of_ne_of_not_mem (by decide) htag
  rw [writtenToken] at hwrite
  cases hhead : token.head with
  | none =>
    rw [hhead] at hwrite
    obtain rfl := Except.ok.inj hwrite
    exact List.not_mem_append (List.not_mem_append hword htag') List.not_mem_nil
  | some head =>
    rw [hhead] at hwrite
    cases hnumeral : Numeral.write head with
    | error fault =>
      simp only [hnumeral] at hwrite
      cases hwrite
    | ok numeral =>
      simp only [hnumeral] at hwrite
      obtain rfl := Except.ok.inj hwrite
      obtain rfl := Numeral.eq_ofInt_of_write hnumeral
      have hdigits : '\n' ∉ Numeral.ofInt head := fun hmem =>
        absurd (Conll.isRowCharacter_of_mem_ofInt hmem) (by decide)
      exact List.not_mem_append (List.not_mem_append hword htag')
        (List.not_mem_cons_of_ne_of_not_mem (by decide) hdigits)

theorem lineFeed_not_mem_of_writtenTokens {tokens : List Token}
    (h : ∀ token ∈ tokens, '\n' ∉ token.shown) (hwrite : writtenTokens tokens = .ok words) :
    ∀ word ∈ words, '\n' ∉ word := by
  induction tokens generalizing words with
  | nil =>
    obtain rfl := Except.ok.inj hwrite
    exact fun word hword => nomatch hword
  | cons token tokens ih =>
    obtain ⟨htoken, htokens⟩ := List.forall_mem_cons.mp h
    rw [writtenTokens] at hwrite
    cases hfirst : writtenToken token with
    | error fault =>
      rw [hfirst] at hwrite
      cases hwrite
    | ok first =>
      cases hlater : writtenTokens tokens with
      | error fault =>
        rw [hfirst, hlater] at hwrite
        cases hwrite
      | ok later =>
        rw [hfirst, hlater] at hwrite
        obtain rfl := Except.ok.inj hwrite
        exact List.forall_mem_cons.mpr
          ⟨lineFeed_not_mem_of_writtenToken htoken hfirst, ih htokens hlater⟩

/-- A sentence is written as one line. -/
theorem isWhole_of_write (h : s.IsUnbroken) (hwrite : write s = .ok written) :
    RecordMode.line.IsWhole written := by
  rw [write] at hwrite
  cases hwords : writtenTokens s.tokens with
  | error fault =>
    simp only [hwords] at hwrite
    cases hwrite
  | ok words =>
    simp only [hwords] at hwrite
    obtain rfl := Except.ok.inj hwrite
    exact .line
      (Text.not_mem_joined (by decide) (lineFeed_not_mem_of_writtenTokens h.shown hwords))

end LineText

/-- **What is written is whole.** -/
theorem Codec.isWhole_of_write (h : s.IsUnbroken) (hwrite : codec.write s = .ok written) :
    codec.format.mode.IsWhole written := by
  obtain ⟨format, options⟩ := codec
  cases format with
  | conll => exact Conll.isWhole_of_write h hwrite
  | tokenized => exact LineText.isWhole_of_write h hwrite
  | characters => exact LineText.isWhole_of_write h hwrite
  | english => exact LineText.isWhole_of_write h hwrite
  | lines => exact LineText.isWhole_of_write h hwrite

end Corpus
