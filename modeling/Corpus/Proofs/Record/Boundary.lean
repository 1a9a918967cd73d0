import Corpus.Proofs.Record.Lines

/-!
# Record boundaries

A text can be cut where a record has ended, and the records on either side are those of the text.

* In the mode `line` a record has ended after each line feed. In the mode `block` it has ended after an
  empty line; the end of the last line of a block is no such place, as more lines may follow.
* The lines of both parts are the lines of the text, and these are cut into records at the boundary.
-/

namespace Corpus

/-- **Ending at a boundary.** An empty text does. In the mode `line` any other text has to end in a line
feed, and in the mode `block` in a line that is empty or holds one carriage return. -/
def RecordMode.EndsAt : RecordMode → Text → Prop
  | line, text => text = [] ∨ ['\n'] <:+ text
  | block, text => text = [] ∨ ∃ before blank, text = before ++ blank ++ ['\n'] ∧
      (before = [] ∨ ['\n'] <:+ before) ∧ '\n' ∉ blank ∧ dropReturn blank = []

variable {mode : RecordMode} {front : Text}

/-- A text that ends at a boundary consists of whole lines. -/
theorem RecordMode.EndsAt.eq_nil_or_lineFeed (h : mode.EndsAt front) :
    front = [] ∨ ['\n'] <:+ front := by
  cases mode with
  | line => exact h
  | block =>
    obtain rfl | ⟨before, blank, rfl, -⟩ := h
    · exact .inl rfl
    · exact .inr (List.suffix_append _ _)

/-- A text that ends at a boundary of blocks has an empty line as its last one. -/
theorem RecordMode.EndsAt.lines_block (h : block.EndsAt front) :
    front.lines = [] ∨ [[]] <:+ front.lines := by
  obtain rfl | ⟨before, blank, rfl, hbefore, hline, hblank⟩ := h
  · exact .inl Text.lines_nil
  · refine .inr ⟨before.lines, ?_⟩
    rw [List.append_assoc, Text.lines_append hbefore, Text.lines_append_cons hline, hblank,
      Text.lines_nil]

/-- **Records on either side of a boundary.** -/
theorem Stream.records_append (h : mode.EndsAt front) (rest : Text) :
    (text (front ++ rest)).records mode =
      (text front).records mode ++ (text rest).records mode := by
  have hlines : (text (front ++ rest)).lines = (text front).lines ++ (text rest).lines :=
    Text.lines_append h.eq_nil_or_lineFeed rest
  rw [records_eq, records_eq, records_eq, hlines]
  cases mode with
  | line => rfl
  | block =>
    rw [lines_text, RecordMode.recordsIn, cutAt_append h.lines_block, List.map_append]
    rfl

end Corpus
