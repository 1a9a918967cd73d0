import Corpus.Proofs.English.TakingApart
import Corpus.Proofs.Format.Unbroken

/-!
# Reading tokenized text again

Tokenized text and English text both end as words between spaces, and the text of a sentence has one
space between its words.

* So the text of such a sentence has the words of the sentence (`spacedWords_wordText`), and reading the
  text gives the sentence again. A placeholder is its own text.
* A sentence that was read has neither tags nor heads, so that its text is all that is written
  (`LineText.write_placed`).
* A line without returns that was written is read as one record, and there is no other one
  (`Stream.readRecord_line`).
-/

namespace Corpus

variable {s : Sentence} {record text line : Text} {words : List Text} {docid : Option Text}
  {codec : Codec}

/-! ### Words and their text -/

/-- **The words of a text of words.** -/
theorem spacedWords_wordText (h : ∀ word ∈ words, word ≠ [] ∧ ' ' ∉ word) :
    spacedWords (wordText words) = words := by
  by_cases hne : words = []
  · rw [hne]
    rfl
  · have hsplit : List.splitOn ' ' (wordText words) = words :=
      Text.splitOn_joined hne fun word hword => (h word hword).2
    rw [spacedWords, hsplit, List.filter_eq_self]
    exact fun word hword => decide_eq_true (h word hword).1

/-- However many spaces there are, one between neighbours keeps the words. -/
theorem spacedWords_wordText_spacedWords (text : Text) :
    spacedWords (wordText (spacedWords text)) = spacedWords text :=
  spacedWords_wordText (English.forall_mem_spacedWords text)

namespace LineText

/-- **Tokenized text has the tokens of its text.** So does a placeholder. -/
theorem tokens_of_readTokenized (h : readTokenized docid text = some s) :
    s.tokens = wordTokens (spacedWords s.text) ∧ s.text = wordText (spacedWords s.text) := by
  cases hnote : s.note with
  | none =>
    obtain ⟨-, -, rfl⟩ := Draft.finish_eq_some_iff.mp ⟨h, hnote⟩
    refine ⟨?_, ?_⟩
    · exact congrArg wordTokens (spacedWords_wordText_spacedWords text).symm
    · exact congrArg wordText (spacedWords_wordText_spacedWords text).symm
  | some note =>
    obtain ⟨rfl, -⟩ := Draft.finish_eq_noted_iff.mp ⟨h, hnote⟩
    exact ⟨rfl, rfl⟩

theorem text_of_readTokenized (h : readTokenized docid text = some s) (hnote : s.note = none) :
    s.text = wordText (spacedWords text) := by
  obtain ⟨-, -, rfl⟩ := Draft.finish_eq_some_iff.mp ⟨h, hnote⟩
  rfl

/-- **The text of tokenized text is read as the same sentence.** -/
theorem readTokenized_text (h : readTokenized docid text = some s) (hnote : s.note = none) :
    readTokenized docid s.text = some s := by
  rw [text_of_readTokenized h hnote, readTokenized, spacedWords_wordText_spacedWords]
  exact h

/-- The text of tokenized text shows nothing new but spaces. -/
theorem not_mem_text_of_readTokenized {c : Char} (h : readTokenized docid text = some s)
    (hnote : s.note = none) (hspace : c ≠ ' ') (hc : c ∉ text) : c ∉ s.text := by
  rw [text_of_readTokenized h hnote]
  exact Text.not_mem_joined hspace (not_mem_of_mem_spacedWords hc)

/-! ### Writing -/

theorem writtenTokens_placed (gap offset : Nat) (words : List Text) :
    writtenTokens (Token.placed gap offset words) = .ok words := by
  induction words generalizing offset with
  | nil => rfl
  | cons word words ih =>
    have hword (start last : Int) : writtenToken { word, start, last } = .ok word := by
      rw [writtenToken]
      exact congrArg Except.ok (by simp)
    rw [Token.placed, writtenTokens, hword, ih]
    rfl

/-- **Placed words** are written as they are. -/
theorem write_placed {gap offset : Nat} (h : s.tokens = Token.placed gap offset words) :
    write s = .ok (wordText words ++ ['\n']) := by
  rw [write, h, writtenTokens_placed]

/-- A sentence of tokenized text is written as its text. -/
theorem write_of_readTokenized (h : readTokenized docid text = some s) :
    write s = .ok (s.text ++ ['\n']) := by
  obtain ⟨htokens, htext⟩ := tokens_of_readTokenized h
  rw [write_placed htokens, ← htext]

end LineText

/-! ### Line records -/

/-- **One line** is one record, and nothing comes after. -/
theorem Stream.readRecord_line (hfeed : '\n' ∉ line) (hreturn : line.getLast? ≠ some '\r') :
    (Stream.text (line ++ ['\n'])).readRecord .line =
      { record := line, more := true, rest := .text [] } := by
  have hnext : (Stream.text (line ++ ['\n'])).nextLine? = some (line, .text []) := by
    have hbreak : breakAt '\n' (line ++ ['\n']) = some (line, []) :=
      breakAt_eq_some_iff.mpr ⟨rfl, hfeed⟩
    have hline : dropReturn line = line := dropReturn_eq_self_iff.mpr hreturn
    cases line with
    | nil => rfl
    | cons c line =>
      rw [List.cons_append] at hbreak ⊢
      simp only [nextLine?, hbreak, hline]
  simp only [readRecord, readLine, hnext]

/-! ### The two formats -/

/-- **Tokenized and English text** are read as tokenized text, which has the feeds and returns of the
record only. -/
theorem Codec.exists_readTokenized (hformat : codec.format = .tokenized ∨ codec.format = .english)
    (hread : codec.read docid record = .ok (some s)) :
    ∃ text, LineText.readTokenized docid text = some s ∧
      ('\n' ∉ record → '\n' ∉ text) ∧ ('\r' ∉ record → '\r' ∉ text) := by
  obtain ⟨format, options⟩ := codec
  rcases hformat with rfl | rfl
  · exact ⟨record, Except.ok.inj hread, id, id⟩
  · exact ⟨English.rewrite record, Except.ok.inj hread,
      English.not_mem_rewrite_of_not_mem (by decide), English.not_mem_rewrite_of_not_mem (by decide)⟩

/-- **Tokenized output is read as the same sentence.** Whatever the record was, the tokens of a sentence
of tokenized or English text are those that its text has when it is cut at spaces. And a sentence without
a note that is read from a line is read again from the line that is written of it, as the only record. -/
theorem Codec.reread_tokenized (hformat : codec.format = .tokenized ∨ codec.format = .english)
    (hread : codec.read docid record = .ok (some s)) (options : Options) :
    (s.tokens = wordTokens (spacedWords s.text) ∧ s.text = wordText (spacedWords s.text)) ∧
    (s.note = none → '\n' ∉ record → '\r' ∉ record →
      ∃ written line rest, codec.write s = .ok written ∧
        (Stream.text written).readRecord .line = { record := line, more := true, rest } ∧
        ({ format := .tokenized, options } : Codec).read docid line = .ok (some s) ∧
        rest.readRecord .line = { record := [], more := false, rest }) := by
  obtain ⟨text, hplain, hfeeds, hreturns⟩ := Codec.exists_readTokenized hformat hread
  refine ⟨LineText.tokens_of_readTokenized hplain, fun hnote hfeed hreturn => ?_⟩
  have hwrite : codec.write s = LineText.write s := by
    rw [Codec.write]
    rcases hformat with h | h
    · rw [h]
    · rw [h]
  have hline : '\n' ∉ s.text := LineText.not_mem_text_of_readTokenized hplain hnote (by decide)
    (hfeeds hfeed)
  have hend : '\r' ∉ s.text := LineText.not_mem_text_of_readTokenized hplain hnote (by decide)
    (hreturns hreturn)
  exact ⟨s.text ++ ['\n'], s.text, .text [], hwrite.trans (LineText.write_of_readTokenized hplain),
    Stream.readRecord_line hline fun hlast => hend (List.mem_of_getLast? hlast),
    congrArg Except.ok (LineText.readTokenized_text hplain hnote), rfl⟩

/-- A line with spaces too many, a letter of two bytes and a word that is taken apart. -/
def unevenRecord : Text := "  I cannot  go l\u00e0. ".toList

/-- What the line is read as. -/
def unevenSentence : Sentence :=
  { docid := some ['d']
    text := "I can not go l\u00e0 .".toList
    tokens :=
      [{ word := "I".toList, start := 0, last := 0 },
       { word := "can".toList, start := 2, last := 4 },
       { word := "not".toList, start := 6, last := 8 },
       { word := "go".toList, start := 10, last := 11 },
       { word := "l\u00e0".toList, start := 13, last := 15 },
       { word := ".".toList, start := 17, last := 17 }] }

/-- The sentence of an English line is read again from the line that is written of it. -/
theorem Codec.reread_unevenSentence :
    let codec : Codec := { format := .english }
    codec.read (some ['d']) unevenRecord = .ok (some unevenSentence) ∧
      unevenSentence.note = none ∧ '\n' ∉ unevenRecord ∧ '\r' ∉ unevenRecord ∧
      ∃ written line rest, codec.write unevenSentence = .ok written ∧
        (Stream.text written).readRecord .line = { record := line, more := true, rest } ∧
        ({ format := .tokenized } : Codec).read (some ['d']) line = .ok (some unevenSentence) ∧
        rest.readRecord .line = { record := [], more := false, rest } := by
  intro codec
  have hread : codec.read (some ['d']) unevenRecord = .ok (some unevenSentence) := by
    decide +kernel
  have hfeed : '\n' ∉ unevenRecord := by decide
  have hreturn : '\r' ∉ unevenRecord := by decide
  exact ⟨hread, rfl, hfeed, hreturn, (Codec.reread_tokenized (.inr rfl) hread {}).2 rfl hfeed hreturn⟩

end Corpus
