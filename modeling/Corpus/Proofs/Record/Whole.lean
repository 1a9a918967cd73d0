import Corpus.Proofs.Record.Block
import Corpus.Proofs.Record.Boundary

/-!
# Records that are written

What is written of a sentence is read back as one record when a record ends where it ends and none
ends before.

* In the mode `line` this is one line. In the mode `block` it is block lines and an empty line.
* Such texts end at a boundary, so that the records of several of them, one after another, are those of
  each of them.
* A record read back is what was written without the last line feed. Only carriage returns are lost that
  stand directly before a line feed.
-/

namespace Corpus

/-! ### Carriage returns -/

/-- **Without returns at line ends.** The carriage returns that stand directly before a line feed are
dropped. -/
def Text.dropReturns : Text → Text
  | [] => []
  | c :: text =>
    if c = '\r' ∧ text.head? = some '\n' then dropReturns text else c :: dropReturns text

variable {line rest : Text} {lines : List Text}

/-- Line by line this is what reading drops. -/
theorem Text.dropReturns_append_cons (h : '\n' ∉ line) (rest : Text) :
    dropReturns (line ++ '\n' :: rest) = dropReturn line ++ '\n' :: dropReturns rest := by
  induction line with
  | nil => rfl
  | cons c line ih =>
    have hline : '\n' ∉ line := fun hmem => h (List.mem_cons_of_mem _ hmem)
    cases line with
    | nil =>
      by_cases hc : c = '\r'
      · rw [hc]
        rfl
      · have hkeep : dropReturn [c] = [c] :=
          dropReturn_eq_self_iff.mpr fun hlast => hc (Option.some.inj hlast)
        rw [hkeep, List.singleton_append, List.singleton_append, dropReturns, if_neg (hc ·.1)]
        rfl
    | cons d line =>
      -- the character after `c` is no line feed, so `c` is kept on both sides
      have hd : (d :: line ++ '\n' :: rest).head? ≠ some '\n' := fun hhead =>
        hline (Option.some.inj hhead ▸ List.mem_cons_self)
      have hkeep : dropReturn (c :: d :: line) = c :: dropReturn (d :: line) := by
        rw [dropReturn, dropReturn, List.getLast?_cons_cons]
        split <;> rfl
      rw [hkeep, List.cons_append, dropReturns, if_neg (hd ·.2), ih hline]
      rfl

theorem Text.dropReturns_lines (h : ∀ line ∈ lines, '\n' ∉ line) :
    dropReturns (lines.flatMap (· ++ ['\n'])) = (lines.map dropReturn).flatMap (· ++ ['\n']) := by
  induction lines with
  | nil => rfl
  | cons line lines ih =>
    obtain ⟨hline, hlines⟩ := List.forall_mem_cons.mp h
    rw [List.flatMap_cons, List.append_assoc, List.singleton_append,
      dropReturns_append_cons hline, ih hlines, List.map_cons, List.flatMap_cons, List.append_assoc]
    rfl

/-! ### Whole records -/

/-- **Whole record.** In the mode `line` a line, and in the mode `block` the text of a block. -/
inductive RecordMode.IsWhole : RecordMode → Text → Prop
  | line {line : Text} : '\n' ∉ line → IsWhole .line (line ++ ['\n'])
  | block {lines : List Text} : (∀ line ∈ lines, IsBlockLine line) → IsWhole .block (blockOf lines)

variable {mode : RecordMode} {written : Text}

/-- A whole record ends at a boundary. -/
theorem RecordMode.IsWhole.endsAt (h : mode.IsWhole written) : mode.EndsAt written := by
  cases h with
  | line => exact .inr (List.suffix_append _ _)
  | @block lines _ =>
    refine .inr ⟨lines.flatMap (· ++ ['\n']), [], ?_, ?_, List.not_mem_nil, rfl⟩
    · rw [blockOf_eq, List.append_nil]
    · obtain rfl | ⟨front, last, rfl⟩ := List.eq_nil_or_concat lines
      · exact .inl rfl
      · rw [List.concat_eq_append, List.flatMap_append, List.flatMap_singleton, ← List.append_assoc]
        exact .inr (List.suffix_append _ _)

/-- **A whole record is one record.** -/
theorem RecordMode.IsWhole.records (h : mode.IsWhole written) :
    ∃ record, (Stream.text written).records mode = [record] ∧
      record ++ ['\n'] = written.dropReturns := by
  cases h with
  | @line line hline =>
    refine ⟨dropReturn line, ?_, (Text.dropReturns_append_cons hline []).symm⟩
    rw [Stream.records_eq, Stream.lines_text, Text.lines_append_cons hline, Text.lines_nil]
    rfl
  | @block lines hlines =>
    refine ⟨(lines.map dropReturn).flatMap (· ++ ['\n']), ?_, ?_⟩
    · have hblocks : ∀ block ∈ [lines], ∀ line ∈ block, IsBlockLine line :=
        List.forall_mem_singleton.mpr hlines
      have hrecords := Stream.records_blocks hblocks
      rwa [List.flatMap_singleton, List.map_singleton] at hrecords
    · have hfeeds : ∀ line ∈ lines ++ [[]], '\n' ∉ line :=
        List.forall_mem_append.mpr ⟨fun line hline => (hlines line hline).lineFeed_not_mem,
          List.forall_mem_singleton.mpr List.not_mem_nil⟩
      rw [blockOf, Text.dropReturns_lines hfeeds, List.map_append, List.flatMap_append]
      rfl

/-- **Whole records at the front** of a text are read one by one. -/
theorem RecordMode.IsWhole.records_append (h : mode.IsWhole written) (rest : Text) :
    ∃ record, record ++ ['\n'] = written.dropReturns ∧
      (Stream.text (written ++ rest)).records mode =
        record :: (Stream.text rest).records mode := by
  obtain ⟨record, hrecords, hrecord⟩ := h.records
  exact ⟨record, hrecord, by rw [Stream.records_append h.endsAt, hrecords, List.singleton_append]⟩

end Corpus
