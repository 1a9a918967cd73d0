import Corpus.Proofs.Conversion.Outcome
import Corpus.Proofs.Format.Unbroken
import Corpus.Proofs.Record.Calls

/-!
# The records of the output

What a conversion to a format has written is read back as one record for each sentence.

* The records of a line format have no line feed, so every sentence that is read from a record of the
  source is unbroken and is written as a whole record.
* By induction on the converted records, the records of the whole output are those of the sentences, in
  their order. This holds for placeholders as for any other sentence.
-/

namespace Corpus

/-- **The record of a sentence.** What is read back of the sentence as written: the text without its
last line feed and without the carriage returns directly before a line feed. -/
def Codec.IsRecordOf (codec : Codec) (s : Sentence) (record : Text) : Prop :=
  ∃ written, codec.write s = .ok written ∧ record ++ ['\n'] = written.dropReturns

/-- Records of a line format have no line feed. -/
theorem Codec.lineFeed_not_mem_of_mem_records {codec : Codec} {stream : Stream} {record : Text}
    (hmode : codec.format.mode = .line) (h : record ∈ codec.records stream) : '\n' ∉ record := by
  rw [Codec.records, hmode, Stream.records_eq] at h
  exact Text.lineFeed_not_mem_of_mem_lines h

namespace Conversion

variable {c : Conversion} {records : List Text} {text : Text} {n : Nat} {codec : Codec}

/-- The output of converted records. -/
theorem Converts.exists_forall₂_records (htarget : c.target = .format codec)
    (hrecords : c.source.format.mode = .line → ∀ record ∈ records, '\n' ∉ record)
    (h : c.Converts records text n) :
    ∃ sentences, c.source.readAll c.docid records = (sentences, none) ∧ sentences.length = n ∧
      List.Forall₂ codec.IsRecordOf sentences (codec.records (.text text)) := by
  induction h with
  | nil =>
    have hnone : codec.records (.text []) = [] := by
      rw [Codec.records, Stream.records_eq, Stream.lines_text, Text.lines_nil]
      cases codec.format.mode <;> rfl
    exact ⟨[], rfl, rfl, hnone ▸ .nil⟩
  | dropped hread _ ih =>
    obtain ⟨sentences, hall, hlength, hforall⟩ := ih fun hmode record hmem =>
      hrecords hmode record (List.mem_cons_of_mem _ hmem)
    refine ⟨sentences, ?_, hlength, hforall⟩
    rw [Codec.readAll, hread]
    simp only [hall]
    rfl
  | @written record _ s written text n hread hwrite _ ih =>
    obtain ⟨sentences, hall, hlength, hforall⟩ := ih fun hmode record hmem =>
      hrecords hmode record (List.mem_cons_of_mem _ hmem)
    have hunbroken : s.IsUnbroken :=
      Codec.isUnbroken_of_read (fun hmode => hrecords hmode record List.mem_cons_self) hread
    rw [htarget] at hwrite
    have hwhole : codec.format.mode.IsWhole written := Codec.isWhole_of_write hunbroken hwrite
    obtain ⟨first, hfirst, hsplit⟩ := hwhole.records_append text
    refine ⟨s :: sentences, ?_, congrArg (· + 1) hlength, ?_⟩
    · rw [Codec.readAll, hread]
      simp only [hall]
      rfl
    · rw [Codec.records, hsplit]
      exact .cons ⟨written, hwrite, hfirst⟩ hforall

/-- **The output keeps the records aligned.** When a conversion to a format succeeds with `n` sentences,
reading its output in the mode of this format gives `n` records and then no more, and each of them is
the record of the sentence in its place. -/
theorem run_output_records {stream : Stream} (htarget : c.target = .format codec)
    (hrun : c.run stream = { text, result := .ok n }) :
    ∃ sentences outputs,
      c.source.readAll c.docid (c.source.records stream) = (sentences, none) ∧
      sentences.length = n ∧
      ((Stream.text text).calls (List.replicate (n + 1) codec.format.mode.name)).1 =
        outputs.map (fun record => .ok (record, true)) ++ [.ok ([], false)] ∧
      List.Forall₂ codec.IsRecordOf sentences outputs := by
  obtain ⟨sentences, hall, hlength, hforall⟩ :=
    (run_eq_ok_iff.mp hrun).exists_forall₂_records htarget fun hmode record hmem =>
      Codec.lineFeed_not_mem_of_mem_records hmode hmem
  refine ⟨sentences, codec.records (.text text), hall, hlength, ?_, hforall⟩
  have hcount : n = (codec.records (.text text)).length := hlength.symm.trans hforall.length_eq
  rw [hcount]
  exact Stream.calls_replicate codec.format.mode (.text text)

/-- Two records of comments, the first of which has a carriage return before its tab, and what they are
written as. -/
def commentText : Text := "#a\r\tb\n\n#c\n".toList
def noteText : Text := "#a\r\n\n#c\n\n".toList

/-- Tab-separated records written anew on three workers. -/
def rewriteConll : Conversion :=
  { source := { format := .conll }, target := .format { format := .conll }, workers := 3 }

/-- The notes of two placeholders are two records; a carriage return is lost at the end of a line. -/
theorem run_output_records_commentText :
    rewriteConll.target = .format { format := .conll } ∧
      rewriteConll.run (.text commentText) = { text := noteText, result := .ok 2 } ∧
      ∃ sentences outputs,
        rewriteConll.source.readAll rewriteConll.docid
          (rewriteConll.source.records (.text commentText)) = (sentences, none) ∧
        sentences.length = 2 ∧
        ((Stream.text noteText).calls (List.replicate 3 RecordMode.block.name)).1 =
          outputs.map (fun record => .ok (record, true)) ++ [.ok ([], false)] ∧
        List.Forall₂ (Codec.IsRecordOf { format := .conll }) sentences outputs := by
  have hrecords : rewriteConll.source.records (.text commentText) =
      ["#a\r\tb\n".toList, "#c\n".toList] := by decide +kernel
  have hfirst : rewriteConll.source.read rewriteConll.docid "#a\r\tb\n".toList =
      .ok (some (Conll.noteSentence {} (some []) "#a\r\n".toList)) := rfl
  have hsecond : rewriteConll.source.read rewriteConll.docid "#c\n".toList =
      .ok (some (Conll.noteSentence {} (some []) "#c\n".toList)) := rfl
  have hconverts : rewriteConll.Converts ["#a\r\tb\n".toList, "#c\n".toList] noteText 2 :=
    .written hfirst rfl (.written hsecond rfl .nil)
  have hrun : rewriteConll.run (.text commentText) = { text := noteText, result := .ok 2 } :=
    run_eq_ok_iff.mpr (hrecords ▸ hconverts)
  have htarget : rewriteConll.target = .format { format := .conll } := rfl
  exact ⟨htarget, hrun, run_output_records htarget hrun⟩

end Conversion

end Corpus
