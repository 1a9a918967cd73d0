import Corpus.Proofs.Conll.Notes
import Corpus.Proofs.Record.Calls

/-!
# Notes that are read back

A sentence with a note is written as its note lines and an empty line, one block in which no line loses
anything as long as none ends in a carriage return.

* A note holds no character that stands neither in the record nor in the note of an empty text
  (`mem_of_mem_note`): comments are cut from the lines of the record, and the words that are quoted from
  its columns. A record without carriage returns has a note without them.
* So the note lines are the only record of what is written, and they are read as the same sentence.
-/

namespace Corpus.Conll

variable {options : Options} {docid : Option Text} {record line note : Text} {lines : List Text}
  {s : Sentence} {c : Char}

/-! ### Characters of a note -/

theorem mem_of_mem_commentOf (h : c ∈ commentOf line) : c = '\n' ∨ c ∈ line := by
  unfold commentOf at h
  split at h
  · rename_i text htext
    obtain ⟨rfl, -⟩ := eq_column_of_ofText_eq_comment htext
    rcases List.mem_append.mp h with h | h
    · exact .inr (column_subset 0 line h)
    · exact .inl (List.mem_singleton.mp h)
  · cases h

/-- Comments are cut from the record. -/
theorem mem_of_mem_comments (h : c ∈ comments record) : c = '\n' ∨ c ∈ record := by
  obtain ⟨line, hline, hc⟩ := List.mem_flatMap.mp h
  exact (mem_of_mem_commentOf hc).imp_right (Text.mem_of_mem_splitOn hline)

/-- The words of a record stand in it. -/
theorem mem_of_mem_text_draft {rows : List Row}
    (hrows : readRows 1 (numberedLines record) = .ok rows)
    (h : c ∈ (draft options docid record rows).text) : c = ' ' ∨ c ∈ record := by
  have hjoined : c ∈ Text.joined [' '] (rows.map Row.word) := h
  rcases Text.mem_of_mem_joined hjoined with hspace | ⟨word, hword, hc⟩
  · exact .inl hspace
  · rw [(readRows_eq_ok hrows).1, List.map_map] at hword
    obtain ⟨⟨line, number⟩, hentry, rfl⟩ := List.mem_map.mp hword
    have hline : line ∈ List.splitOn '\n' record :=
      List.fst_mem_of_mem_zipIdx (List.mem_of_mem_filter hentry)
    exact .inr (Text.mem_of_mem_splitOn hline (column_subset 1 line hc))

theorem mem_skipNote_iff {quoted : Text} : c ∈ skipNote quoted ↔ c ∈ skipNote [] ∨ c ∈ quoted := by
  simp only [skipNote_eq_flatMap, List.flatMap_cons, List.flatMap_nil, List.append_nil,
    List.mem_append, List.mem_cons, List.not_mem_nil, or_false]
  tauto

/-- **A note invents nothing** besides what is said of every long record. -/
theorem mem_of_mem_note (hread : read options docid record = .ok (some s))
    (hnote : s.note = some note) (h : c ∈ note) : c ∈ skipNote [] ∨ c ∈ record := by
  obtain ⟨-, ⟨rows, hrows, rfl⟩ | ⟨-, rfl⟩⟩ := note_of_read hread hnote
  · rcases mem_skipNote_iff.mp h with h | h
    · exact .inl h
    · refine (mem_of_mem_text_draft hrows h).imp_left fun hspace => ?_
      rw [hspace]
      decide
  · refine (mem_of_mem_comments h).imp_left fun hfeed => ?_
    rw [hfeed]
    decide

/-! ### Reading back -/

/-- Note lines without carriage returns are the only record of their block. -/
theorem records_noteLines (hlines : ∀ line ∈ lines, IsNoteLine line)
    (hreturn : '\r' ∉ lines.flatMap (· ++ ['\n'])) :
    (Stream.text (lines.flatMap (· ++ ['\n']) ++ ['\n'])).records .block =
      [lines.flatMap (· ++ ['\n'])] := by
  have hends : ∀ line ∈ lines, line.getLast? ≠ some '\r' := fun line hline hlast =>
    hreturn (List.mem_flatMap.mpr ⟨line, hline, List.mem_append_left _ (List.mem_of_getLast? hlast)⟩)
  rw [← blockOf_eq, Stream.records_blockOf fun line hline => (hlines line hline).isBlockLine,
    map_dropReturn_eq_self_iff.mpr hends]

/-- **Notes survive.** A record without carriage returns that is read as a sentence with a note: what
this sentence is written as holds one record, and the record is read as the same sentence. -/
theorem read_write_noted (hreturn : '\r' ∉ record)
    (hread : read options docid record = .ok (some s)) (hnote : s.note = some note) :
    ∃ written again, write options s = .ok written ∧
      ((Stream.text written).calls [RecordMode.block.name, RecordMode.block.name]).1 =
        [.ok (again, true), .ok ([], false)] ∧
      read options docid again = .ok (some s) := by
  obtain ⟨hs, lines, hne, hlines, rfl⟩ := read_eq_noted hread hnote
  have hreturn : '\r' ∉ lines.flatMap (· ++ ['\n']) := fun hmem =>
    (mem_of_mem_note hread hnote hmem).elim (by decide) hreturn
  refine ⟨lines.flatMap (· ++ ['\n']) ++ ['\n'], lines.flatMap (· ++ ['\n']), ?_, ?_, ?_⟩
  · rw [write, hnote]
  · have hcalls := Stream.calls_replicate .block
      (Stream.text (lines.flatMap (· ++ ['\n']) ++ ['\n']))
    rwa [records_noteLines hlines hreturn] at hcalls
  · rw [read_noteLines hne hlines, ← hs]

/-- A record of a comment and a hundred and one rows. -/
def longRecord : Text :=
  "# c\n".toList ++ (List.range 101).flatMap fun i =>
    Numeral.ofNat (i + 1) ++ "\té\t_\tN\tT\t_\t_\t_\n".toList

/-- The sentence of the long record, with both encodings. -/
def longSentence : Sentence :=
  noteSentence ⟨true, true⟩ (some ['d']) (skipNote (wordText (List.replicate 101 ['é'])))

/-- The long record is read as a note that survives. -/
theorem read_write_longRecord :
    '\r' ∉ longRecord ∧ read ⟨true, true⟩ (some ['d']) longRecord = .ok (some longSentence) ∧
      ∃ written again, write ⟨true, true⟩ longSentence = .ok written ∧
        ((Stream.text written).calls [RecordMode.block.name, RecordMode.block.name]).1 =
          [.ok (again, true), .ok ([], false)] ∧
        read ⟨true, true⟩ (some ['d']) again = .ok (some longSentence) := by
  have hreturn : '\r' ∉ longRecord := by decide +kernel
  have hread : read ⟨true, true⟩ (some ['d']) longRecord = .ok (some longSentence) := rfl
  exact ⟨hreturn, hread, read_write_noted hreturn hread rfl⟩

end Corpus.Conll
