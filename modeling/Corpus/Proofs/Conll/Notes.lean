import Corpus.Proofs.Conll.Rewriting
import Corpus.Proofs.Record.Block

/-!
# Notes

A record without rows and one with too many rows are read as a sentence that consists of a note.

* The note of such a sentence is made of note lines. A note line starts with `#` and can stand in a
  field, so that it is a comment by itself, and nothing else.
* Any line that starts with `#` is a comment line, and its comment is its first field. Comment lines
  are read as the sentence with these fields as its note, note lines therefore as the sentence with
  these lines as its note (`read_noteLines`).
-/

namespace Corpus.Conll

variable {options : Options} {docid : Option Text} {record line note : Text} {lines : List Text}
  {s : Sentence}

/-- **Note line.** -/
structure IsNoteLine (line : Text) : Prop where
  hash : ['#'] <+: line
  isPlain : Text.IsPlain line

/-- **The sentence of a note.** -/
def noteSentence (options : Options) (docid : Option Text) (note : Text) : Sentence :=
  { docid, text := placeholderWord, tokens := [encode options nounPlaceholder], note := some note }

theorem noted_draft (options : Options) (docid : Option Text) (record note : Text)
    (rows : List Row) :
    (draft options docid record rows).noted note = noteSentence options docid note := rfl

/-! ### Comments -/

/-- The comment of a line is its first field. -/
theorem eq_column_of_ofText_eq_comment {text : Text} (h : Line.ofText line = .comment text) :
    text = column 0 line ∧ ['#'] <+: text := by
  obtain ⟨rest, hfields⟩ := exists_fields_eq_cons line
  rw [Line.ofText] at h
  split at h
  · cases h
  · simp only [hfields] at h
    split at h
    · rename_i hhash
      obtain rfl : column 0 line = text := Line.comment.inj h
      obtain ⟨tail, htail⟩ := List.head?_eq_some_iff.mp hhash
      exact ⟨rfl, tail, htail.symm⟩
    · split at h <;> cases h

/-- A line without a line feed has no comment or a note line as its comment. -/
theorem commentOf_cases (hline : '\n' ∉ line) :
    commentOf line = [] ∨ ∃ text, IsNoteLine text ∧ commentOf line = text ++ ['\n'] := by
  unfold commentOf
  split
  · rename_i text htext
    obtain ⟨rfl, hhash⟩ := eq_column_of_ofText_eq_comment htext
    exact .inr ⟨_, ⟨hhash, isPlain_column hline 0⟩, rfl⟩
  · exact .inl rfl

/-- **Comments are note lines.** -/
theorem exists_noteLines_comments (record : Text) :
    ∃ lines : List Text, (∀ line ∈ lines, IsNoteLine line) ∧
      comments record = lines.flatMap (· ++ ['\n']) := by
  have hlines : ∀ line ∈ List.splitOn '\n' record, '\n' ∉ line :=
    fun _ hline => not_mem_of_mem_splitOn hline
  rw [comments]
  generalize List.splitOn '\n' record = all at hlines
  induction all with
  | nil => exact ⟨[], fun _ hmem => absurd hmem List.not_mem_nil, rfl⟩
  | cons line all ih =>
    obtain ⟨hline, hall⟩ := List.forall_mem_cons.mp hlines
    obtain ⟨lines, hnotes, hcomments⟩ := ih hall
    rw [List.flatMap_cons, hcomments]
    rcases commentOf_cases hline with hnone | ⟨text, htext, hsome⟩
    · exact ⟨lines, hnotes, by rw [hnone, List.nil_append]⟩
    · exact ⟨text :: lines, List.forall_mem_cons.mpr ⟨htext, hnotes⟩,
        by rw [hsome, List.flatMap_cons]⟩

/-- The first line of the note of a long record. -/
def skipReason : Text := "#skip because token_size() > 100".toList

theorem skipNote_eq_flatMap (quoted : Text) :
    skipNote quoted = [skipReason, '#' :: quoted].flatMap (· ++ ['\n']) := by
  have hhead : "#skip because token_size() > 100\n#".toList = skipReason ++ ['\n', '#'] := by decide
  have hnote := congrArg (· ++ (quoted ++ ['\n'])) hhead
  rw [List.flatMap_cons, List.flatMap_cons, List.flatMap_nil, List.append_nil, List.append_assoc]
  exact (List.append_assoc _ _ _).trans (hnote.trans (List.append_assoc _ _ _))

/-- **The note of a long record** is made of two note lines. -/
theorem exists_noteLines_skipNote {quoted : Text} (h : quoted.IsPlain) :
    ∃ lines : List Text, lines ≠ [] ∧ (∀ line ∈ lines, IsNoteLine line) ∧
      skipNote quoted = lines.flatMap (· ++ ['\n']) := by
  have hreason : IsNoteLine skipReason := ⟨⟨skipReason.tail, by decide⟩, by decide⟩
  have hquoted : IsNoteLine ('#' :: quoted) :=
    ⟨⟨quoted, rfl⟩, Text.isPlain_append.mpr ⟨(by decide : Text.IsPlain ['#']), h⟩⟩
  exact ⟨_, List.cons_ne_nil _ _,
    List.forall_mem_cons.mpr ⟨hreason, List.forall_mem_singleton.mpr hquoted⟩,
    skipNote_eq_flatMap quoted⟩

/-! ### Notes read -/

/-- The text of the words of a record is plain. -/
theorem isPlain_text_draft (options : Options) (docid : Option Text) {rows : List Row}
    (h : readRows 1 (numberedLines record) = .ok rows) :
    (draft options docid record rows).text.IsPlain := by
  have hwords : ∀ word ∈ rows.map Row.word, Text.IsPlain word := by
    rw [(readRows_eq_ok h).1]
    refine List.forall_mem_map.mpr (List.forall_mem_map.mpr fun entry hentry => ?_)
    exact isPlain_column (lineFeed_not_mem_of_mem_tokenLines hentry) 1
  exact ⟨Text.not_mem_joined (by decide) fun word hword => (hwords word hword).tab_not_mem,
    Text.not_mem_joined (by decide) fun word hword => (hwords word hword).lineFeed_not_mem⟩

/-- **Where notes come from.** A note quotes the words of the record, or is made of its comments. -/
theorem note_of_read (hread : read options docid record = .ok (some s))
    (hnote : s.note = some note) :
    s = noteSentence options docid note ∧
      ((∃ rows, readRows 1 (numberedLines record) = .ok rows ∧
          note = skipNote (draft options docid record rows).text) ∨
        comments record ≠ [] ∧ note = comments record) := by
  obtain ⟨rows, hrows, hfinish⟩ := read_eq_ok_iff.mp hread
  obtain ⟨rfl, hcases⟩ := Draft.finish_eq_noted_iff.mp ⟨hfinish, hnote⟩
  refine ⟨noted_draft options docid record note rows, ?_⟩
  rcases hcases with ⟨-, hskip⟩ | ⟨-, hcomments, hsame⟩
  · exact .inl ⟨rows, hrows, hskip⟩
  · exact .inr ⟨hcomments, hsame⟩

/-- **Notes read.** A sentence with a note is the sentence of note lines. -/
theorem read_eq_noted (hread : read options docid record = .ok (some s))
    (hnote : s.note = some note) :
    s = noteSentence options docid note ∧
      ∃ lines : List Text, lines ≠ [] ∧ (∀ line ∈ lines, IsNoteLine line) ∧
        note = lines.flatMap (· ++ ['\n']) := by
  obtain ⟨hs, ⟨rows, hrows, rfl⟩ | ⟨hcomments, rfl⟩⟩ := note_of_read hread hnote
  · exact ⟨hs, exists_noteLines_skipNote (isPlain_text_draft options docid hrows)⟩
  · obtain ⟨lines, hlines, hsame⟩ := exists_noteLines_comments record
    refine ⟨hs, lines, ?_, hlines, hsame⟩
    rintro rfl
    exact hcomments hsame

/-- **Whatever is read is plain**, with a note or without. -/
theorem isPlain_of_mem_tokens (hread : read options docid record = .ok (some s)) :
    ∀ token ∈ s.tokens, token.IsPlain := by
  cases hnote : s.note with
  | none => exact (tokens_of_read hread hnote).2.2
  | some note =>
    rw [(read_eq_noted hread hnote).1]
    exact List.forall_mem_singleton.mpr (isPlain_encode (by decide : nounPlaceholder.IsPlain))

/-! ### Comment lines read -/

/-- **Comment line.** -/
structure IsCommentLine (line : Text) : Prop where
  hash : ['#'] <+: line
  lineFeed_not_mem : '\n' ∉ line

theorem IsCommentLine.isBlockLine (h : IsCommentLine line) : IsBlockLine line := by
  obtain ⟨⟨tail, rfl⟩, hfeed⟩ := h
  exact isBlockLine_cons (by decide) (by decide) fun hmem => hfeed (List.mem_cons_of_mem _ hmem)

/-- A comment line that loses a carriage return at its end is still one. -/
theorem IsCommentLine.dropReturn (h : IsCommentLine line) : IsCommentLine (dropReturn line) := by
  refine ⟨?_, fun hmem => h.lineFeed_not_mem (Text.dropReturn_subset line hmem)⟩
  obtain ⟨tail, rfl⟩ := h.hash
  rw [Corpus.dropReturn]
  split
  · rename_i hlast
    cases tail with
    | nil => exact absurd (Option.some.inj hlast) (by decide)
    | cons c tail => exact ⟨(c :: tail).dropLast, rfl⟩
  · exact List.prefix_append _ _

/-- The first column of a line is all of it, or stands before its first tab. -/
theorem column_zero_cases (line : Text) :
    '\t' ∉ line ∧ column 0 line = line ∨ ∃ rest, line = column 0 line ++ '\t' :: rest := by
  by_cases htab : '\t' ∈ line
  · obtain ⟨front, rest, rfl, hfront⟩ := List.eq_append_cons_of_mem htab
    refine .inr ⟨rest, ?_⟩
    rw [column, fields, List.splitOn_append_cons_self_of_not_mem hfront]
    rfl
  · refine .inl ⟨htab, ?_⟩
    rw [column, fields, List.splitOn_eq_singleton htab]
    rfl

/-- A line is its first column when it has no tab. -/
theorem column_zero_eq_self_iff : column 0 line = line ↔ '\t' ∉ line := by
  rcases column_zero_cases line with ⟨htab, hsame⟩ | ⟨rest, hline⟩
  · exact iff_of_true hsame htab
  · refine iff_of_false (fun hsame => tab_not_mem_column 0 line ?_) (not_not_intro ?_)
    · rw [hsame, hline]
      exact List.mem_append_right _ (List.mem_cons_self ..)
    · rw [hline]
      exact List.mem_append_right _ (List.mem_cons_self ..)

/-- The first column starts like its line. -/
theorem hash_column_zero (h : ['#'] <+: line) : ['#'] <+: column 0 line := by
  rcases column_zero_cases line with ⟨-, hsame⟩ | ⟨rest, hline⟩
  · rwa [hsame]
  · rw [hline] at h
    cases hcolumn : column 0 line with
    | nil =>
      rw [hcolumn] at h
      exact absurd (List.cons_prefix_cons.mp h).1 (by decide)
    | cons c tail =>
      rw [hcolumn] at h
      rw [(List.cons_prefix_cons.mp h).1]
      exact ⟨tail, rfl⟩

/-- A line is a comment when its first column starts with a hash sign. -/
theorem ofText_of_hash (h : ['#'] <+: column 0 line) : Line.ofText line = .comment (column 0 line) := by
  obtain ⟨rest, hfields⟩ := exists_fields_eq_cons line
  obtain ⟨tail, htail⟩ := h
  have hne : line ≠ [] := by
    rintro rfl
    cases htail
  have hhead : (column 0 line).head? = some '#' := by
    rw [← htail]
    rfl
  rw [Line.ofText, if_neg hne, hfields]
  exact if_pos hhead

/-- **The comment of a comment line** is its first column. -/
theorem ofText_of_isCommentLine (h : IsCommentLine line) :
    Line.ofText line = .comment (column 0 line) :=
  ofText_of_hash (hash_column_zero h.hash)

/-- A comment line is no token line. -/
theorem IsCommentLine.not_isTokenLine (h : IsCommentLine line) : ¬ IsTokenLine line :=
  fun htoken => htoken.not_comment (hash_column_zero h.hash)

/-- Lines that are no token lines have no rows. -/
theorem readRows_eq_nil {entries : List (Text × Nat)}
    (h : ∀ entry ∈ entries, ¬ IsTokenLine entry.1) (expected : Nat) :
    readRows expected entries = .ok [] := by
  induction entries with
  | nil => rfl
  | cons entry entries ih =>
    obtain ⟨hentry, hentries⟩ := List.forall_mem_cons.mp h
    rw [readRows_cons_of_not hentry, ih hentries]

/-- The comments of comment lines. -/
theorem flatMap_commentOf (h : ∀ line ∈ lines, IsCommentLine line) :
    lines.flatMap commentOf = (lines.map (column 0)).flatMap (· ++ ['\n']) := by
  rw [List.flatMap_map]
  exact List.flatMap_congr fun line hline => by rw [commentOf, ofText_of_isCommentLine (h line hline)]

/-- **Reading comment lines.** -/
theorem read_commentLines (hne : lines ≠ []) (h : ∀ line ∈ lines, IsCommentLine line) :
    read options docid (lines.flatMap (· ++ ['\n'])) =
      .ok (some (noteSentence options docid ((lines.map (column 0)).flatMap (· ++ ['\n'])))) := by
  have hsplit : List.splitOn '\n' (lines.flatMap (· ++ ['\n'])) = lines ++ [[]] :=
    Text.splitOn_lines fun line hline => (h line hline).lineFeed_not_mem
  have hrows : readRows 1 (numberedLines (lines.flatMap (· ++ ['\n']))) = .ok [] := by
    refine readRows_eq_nil (fun entry hentry => ?_) 1
    rw [numberedLines, hsplit] at hentry
    rcases List.mem_append.mp (List.fst_mem_of_mem_zipIdx hentry) with hmem | hmem
    · exact (h entry.1 hmem).not_isTokenLine
    · rw [List.mem_singleton.mp hmem]
      decide
  have hcomments : comments (lines.flatMap (· ++ ['\n'])) =
      (lines.map (column 0)).flatMap (· ++ ['\n']) := by
    rw [comments, hsplit, List.flatMap_append, flatMap_commentOf h]
    exact List.append_nil _
  have hnote : (lines.map (column 0)).flatMap (· ++ ['\n']) ≠ [] := by
    obtain ⟨line, rest, rfl⟩ := List.exists_cons_of_ne_nil hne
    simp
  have hfinish : (draft options docid (lines.flatMap (· ++ ['\n'])) []).finish =
      some (noteSentence options docid ((lines.map (column 0)).flatMap (· ++ ['\n']))) :=
    (Draft.finish_eq_noted_iff.mpr
      ⟨rfl, .inr ⟨rfl, by rwa [← hcomments] at hnote, hcomments.symm⟩⟩).1
  exact read_eq_ok_iff.mpr ⟨[], hrows, hfinish⟩

/-! ### Note lines read -/

theorem IsNoteLine.isCommentLine (h : IsNoteLine line) : IsCommentLine line :=
  ⟨h.hash, h.isPlain.lineFeed_not_mem⟩

theorem IsNoteLine.isBlockLine (h : IsNoteLine line) : IsBlockLine line :=
  h.isCommentLine.isBlockLine

theorem IsNoteLine.not_isTokenLine (h : IsNoteLine line) : ¬ IsTokenLine line :=
  h.isCommentLine.not_isTokenLine

/-- **Reading note lines.** -/
theorem read_noteLines (hne : lines ≠ []) (h : ∀ line ∈ lines, IsNoteLine line) :
    read options docid (lines.flatMap (· ++ ['\n'])) =
      .ok (some (noteSentence options docid (lines.flatMap (· ++ ['\n'])))) := by
  have hcolumns : lines.map (column 0) = lines :=
    (List.map_congr_left fun line hline =>
      column_zero_eq_self_iff.mpr (h line hline).isPlain.tab_not_mem).trans (List.map_id _)
  rw [read_commentLines hne fun line hline => (h line hline).isCommentLine, hcolumns]

end Corpus.Conll
