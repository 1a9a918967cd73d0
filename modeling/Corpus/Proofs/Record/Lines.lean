import Corpus.Proofs.Text.Cutting
import Corpus.Proofs.Text.Decoding
import Corpus.Record

/-!
# The lines of a stream

What a stream still holds is a text, be it read as text or as bytes, and this text has lines. Reading
depends on nothing else.

* `nextLine?_cases`: the next line of a stream is the first of its lines, and the stream after it has
  the other ones. This is the only place where text and bytes are told apart.
* A block is what stands before the first empty line, or all lines. So two streams with the same lines
  give the same record and have the same lines after it.
* All records of a stream are its lines, or its lines cut at the empty ones.
-/

namespace Corpus

/-! ### Lines of a text -/

/-- **The lines of a text.** A line that ends in a line feed loses one carriage return before it. What
stands after the last line feed is a line as it is, unless it is empty. -/
def Text.lines (text : Text) : List Text := cutAt '\n' dropReturn text

namespace Text

@[simp] theorem lines_nil : lines [] = [] := cutAt_nil

theorem lines_append_cons {line : Text} (h : '\n' ∉ line) (rest : Text) :
    lines (line ++ '\n' :: rest) = dropReturn line :: lines rest :=
  cutAt_of_not_mem_append h rest

/-- Lines with a line feed each lose a carriage return. -/
theorem lines_flatMap {parts : List Text} (h : ∀ line ∈ parts, '\n' ∉ line) :
    lines (parts.flatMap (· ++ ['\n'])) = parts.map dropReturn := by
  have hcut : cutAt '\n' dropReturn (parts.flatMap (· ++ ['\n']) ++ []) = parts.map dropReturn ++ [] :=
    cutAt_flatMap_append h []
  rwa [List.append_nil, List.append_nil] at hcut

theorem lines_of_not_mem {line : Text} (hne : line ≠ []) (h : '\n' ∉ line) : lines line = [line] :=
  cutAt_of_not_mem hne h

/-- **Lines after a line feed** are lines on their own. -/
theorem lines_append {front : Text} (h : front = [] ∨ ['\n'] <:+ front) (rest : Text) :
    lines (front ++ rest) = lines front ++ lines rest :=
  cutAt_append h rest

theorem dropReturn_subset (line : Text) : dropReturn line ⊆ line := by
  rw [dropReturn]
  split
  · exact List.dropLast_subset _
  · exact List.Subset.refl _

/-- No line holds a line feed. -/
theorem lineFeed_not_mem_of_mem_lines {text line : Text} (h : line ∈ lines text) : '\n' ∉ line := by
  rcases List.mem_append.mp h with hended | hlast
  · obtain ⟨piece, hpiece, rfl⟩ := List.mem_map.mp hended
    have hpiece := not_mem_of_mem_splitOn (List.dropLast_subset _ hpiece)
    exact fun hmem => hpiece (dropReturn_subset piece hmem)
  · have hpiece := Option.mem_toList.mp (List.mem_filter.mp hlast).1
    exact not_mem_of_mem_splitOn (List.mem_of_getLast? hpiece)

end Text

/-! ### What a record is in terms of lines -/

/-- **A record served.** The lines that are consumed for a record, those that are left, the record and
whether there was one. In the mode `line` it is the next line. In the mode `block` it is all lines
before the first empty one, which is consumed with them, or all that there are; each of them is followed
by a line feed. There is no record when no line is left. -/
inductive RecordMode.Serves : RecordMode → (consumed left : List Text) → Text → Bool → Prop
  | line (line : Text) (left : List Text) : Serves .line [line] left line true
  | ended {block : List Text} (left : List Text) :
      [] ∉ block → Serves .block (block ++ [[]]) left (block.flatMap (· ++ ['\n'])) true
  | last {block : List Text} :
      block ≠ [] → [] ∉ block → Serves .block block [] (block.flatMap (· ++ ['\n'])) true
  | exhausted (mode : RecordMode) : Serves mode [] [] [] false

/-- **All records in lines.** In the mode `line` every line is one. In the mode `block` the lines are
cut at the empty ones. -/
def RecordMode.recordsIn : RecordMode → List Text → List Text
  | line, lines => lines
  | block, lines => (cutAt [] id lines).map fun part => part.flatMap (· ++ ['\n'])

/-- The first record stands before the records in the lines that are left. -/
theorem RecordMode.Serves.recordsIn {mode : RecordMode} {consumed left : List Text} {record : Text}
    (h : mode.Serves consumed left record true) :
    mode.recordsIn (consumed ++ left) = record :: mode.recordsIn left := by
  cases h with
  | line => rfl
  | ended left hblock =>
    rw [List.append_assoc, List.singleton_append, RecordMode.recordsIn,
      cutAt_of_not_mem_append hblock]
    rfl
  | last hne hblock =>
    rw [List.append_nil, RecordMode.recordsIn, cutAt_of_not_mem hne hblock]
    rfl

/-- There is no record exactly when no line was left, and then it is empty. -/
theorem RecordMode.Serves.more_eq_false_iff {mode : RecordMode} {consumed left : List Text}
    {record : Text} {more : Bool} (h : mode.Serves consumed left record more) :
    (more = false ↔ consumed ++ left = []) ∧ (more = false → record = []) := by
  cases h with
  | line => exact ⟨by simp, nofun⟩
  | ended left hblock => exact ⟨by simp, nofun⟩
  | last hne hblock => exact ⟨by simp [hne], nofun⟩
  | exhausted => exact ⟨by simp, fun _ => rfl⟩

namespace Stream

variable {s other : Stream} {mode : RecordMode}

/-! ### Line by line -/

/-- **What a stream still holds.** -/
def content : Stream → Text
  | text rest => rest
  | bytes rest => Utf8.decodeLossy rest

/-- The lines that a stream still holds. -/
def lines (s : Stream) : List Text := s.content.lines

@[simp] theorem lines_text (t : Text) : (text t).lines = t.lines := rfl

/-- **The next line** is the first of the lines. -/
theorem nextLine?_cases (s : Stream) :
    s.nextLine? = none ∧ s.lines = [] ∨
      ∃ line rest, s.nextLine? = some (line, rest) ∧ s.lines = line :: rest.lines := by
  match s with
  | text [] => exact .inl ⟨rfl, rfl⟩
  | bytes [] => exact .inl ⟨rfl, by rw [lines, content, Utf8.decodeLossy, Utf8.units]; rfl⟩
  | text (c :: cs) =>
    refine .inr ?_
    cases hbreak : breakAt '\n' (c :: cs) with
    | none =>
      refine ⟨c :: cs, text [], by simp only [nextLine?, hbreak], ?_⟩
      exact Text.lines_of_not_mem (List.cons_ne_nil _ _) (breakAt_eq_none_iff.mp hbreak)
    | some parts =>
      obtain ⟨line, rest⟩ := parts
      obtain ⟨hsplit, hline⟩ := breakAt_eq_some_iff.mp hbreak
      refine ⟨dropReturn line, text rest, by simp only [nextLine?, hbreak], ?_⟩
      rw [lines, content, hsplit]
      exact Text.lines_append_cons hline rest
  | bytes (b :: bs) =>
    refine .inr ?_
    cases hbreak : breakAt 0x0A (b :: bs) with
    | none =>
      have hlast := Utf8.lineFeed_not_mem_decodeLossy (breakAt_eq_none_iff.mp hbreak)
      refine ⟨Utf8.decodeLossy (b :: bs), bytes [], by simp only [nextLine?, hbreak], ?_⟩
      rw [lines, content, Text.lines_of_not_mem (Utf8.decodeLossy_ne_nil (List.cons_ne_nil _ _)) hlast]
      rfl
    | some parts =>
      obtain ⟨line, rest⟩ := parts
      obtain ⟨hsplit, hline⟩ := breakAt_eq_some_iff.mp hbreak
      refine ⟨dropReturn (Utf8.decodeLossy line), bytes rest, by simp only [nextLine?, hbreak], ?_⟩
      rw [lines, content, hsplit, Utf8.decodeLossy_append_lineFeed]
      exact Text.lines_append_cons (Utf8.lineFeed_not_mem_decodeLossy hline) _

/-! ### Record by record -/

/-- **A block read** is what stands before the first empty line, or all lines. -/
theorem blockLines_of_breakAt (s : Stream) :
    (∀ block left, breakAt [] s.lines = some (block, left) →
      s.blockLines.1 = block ∧ s.blockLines.2.1 = true ∧ s.blockLines.2.2.lines = left) ∧
    (breakAt [] s.lines = none →
      s.blockLines.1 = s.lines ∧ s.blockLines.2.1 = false ∧ s.blockLines.2.2.lines = []) := by
  fun_induction blockLines s with
  | case1 s hnone =>
    obtain ⟨-, hlines⟩ | ⟨line, rest, hsome, -⟩ := nextLine?_cases s
    · rw [hlines]
      refine ⟨fun block left hparts => ?_, fun _ => ⟨rfl, rfl, rfl⟩⟩
      cases hparts
    · cases hnone.symm.trans hsome
  | case2 s rest hempty =>
    obtain ⟨hnone, -⟩ | ⟨line, rest', hsome, hlines⟩ := nextLine?_cases s
    · cases hempty.symm.trans hnone
    · obtain ⟨rfl, rfl⟩ := Prod.mk.inj (Option.some.inj (hempty.symm.trans hsome))
      have hbreak : breakAt [] s.lines = some ([], rest.lines) := by
        rw [hlines, breakAt, if_pos rfl]
      rw [hbreak]
      refine ⟨fun block left hparts => ?_, fun hparts => ?_⟩
      · obtain ⟨rfl, rfl⟩ := Prod.mk.inj (Option.some.inj hparts)
        exact ⟨rfl, rfl, rfl⟩
      · cases hparts
  | case3 s line rest hne hnext _ later ended rest' hlater ih =>
    obtain ⟨hnone, -⟩ | ⟨line', rest'', hsome, hlines⟩ := nextLine?_cases s
    · cases hnext.symm.trans hnone
    · obtain ⟨rfl, rfl⟩ := Prod.mk.inj (Option.some.inj (hnext.symm.trans hsome))
      rw [hlater] at ih
      obtain ⟨hended, hopen⟩ := ih
      rw [hlines, breakAt, if_neg hne]
      refine ⟨fun block left hparts => ?_, fun hparts => ?_⟩
      · obtain ⟨⟨block', left'⟩, hbreak, hsame⟩ := Option.map_eq_some_iff.mp hparts
        obtain ⟨rfl, rfl⟩ := Prod.mk.inj hsame
        obtain ⟨rfl, rfl, rfl⟩ := hended _ _ hbreak
        exact ⟨rfl, rfl, rfl⟩
      · obtain ⟨hblock, rfl, hleft⟩ := hopen (Option.map_eq_none_iff.mp hparts)
        exact ⟨congrArg (line :: ·) hblock, rfl, hleft⟩

/-- **A record read** is served from the lines. -/
theorem serves_readRecord (mode : RecordMode) (s : Stream) :
    ∃ consumed, s.lines = consumed ++ (s.readRecord mode).rest.lines ∧
      mode.Serves consumed (s.readRecord mode).rest.lines (s.readRecord mode).record
        (s.readRecord mode).more := by
  cases mode with
  | line =>
    rw [readRecord, readLine]
    obtain ⟨hnone, hlines⟩ | ⟨line, rest, hsome, hlines⟩ := nextLine?_cases s
    · rw [hnone]
      simp only [hlines]
      exact ⟨[], rfl, .exhausted .line⟩
    · rw [hsome]
      exact ⟨[line], hlines, .line line rest.lines⟩
  | block =>
    rw [readRecord, readBlock]
    obtain ⟨hended, hopen⟩ := blockLines_of_breakAt s
    cases hbreak : breakAt [] s.lines with
    | some parts =>
      obtain ⟨block, left⟩ := parts
      obtain ⟨hlines, hblock⟩ := breakAt_eq_some_iff.mp hbreak
      obtain ⟨hread, hempty, hleft⟩ := hended block left hbreak
      simp only [hread, hempty, hleft, Bool.true_or]
      refine ⟨block ++ [[]], ?_, .ended left hblock⟩
      rw [hlines, List.append_assoc, List.singleton_append]
    | none =>
      obtain ⟨hread, hempty, hleft⟩ := hopen hbreak
      simp only [hread, hempty, hleft, Bool.false_or]
      refine ⟨s.lines, (List.append_nil _).symm, ?_⟩
      cases hlines : s.lines with
      | nil => exact .exhausted .block
      | cons line lines =>
        exact .last (List.cons_ne_nil _ _) (hlines ▸ breakAt_eq_none_iff.mp hbreak)

/-- **Only the lines count.** Streams with the same lines give the same record and have the same lines
after it. -/
theorem readRecord_congr (h : s.lines = other.lines) (mode : RecordMode) :
    (s.readRecord mode).record = (other.readRecord mode).record ∧
      (s.readRecord mode).more = (other.readRecord mode).more ∧
      (s.readRecord mode).rest.lines = (other.readRecord mode).rest.lines := by
  cases mode with
  | line =>
    simp only [readRecord, readLine]
    obtain ⟨hnone, hlines⟩ | ⟨line, rest, hsome, hlines⟩ := nextLine?_cases s
    · obtain ⟨hnone', hlines'⟩ | ⟨line', rest', hsome', hlines'⟩ := nextLine?_cases other
      · rw [hnone, hnone']
        exact ⟨rfl, rfl, h⟩
      · rw [← h, hlines] at hlines'
        cases hlines'
    · obtain ⟨hnone', hlines'⟩ | ⟨line', rest', hsome', hlines'⟩ := nextLine?_cases other
      · rw [← h, hlines] at hlines'
        cases hlines'
      · rw [← h, hlines] at hlines'
        rw [hsome, hsome']
        exact ⟨(List.cons.inj hlines').1, rfl, (List.cons.inj hlines').2⟩
  | block =>
    simp only [readRecord, readBlock]
    obtain ⟨hended, hopen⟩ := blockLines_of_breakAt s
    obtain ⟨hended', hopen'⟩ := blockLines_of_breakAt other
    rw [← h] at hended' hopen'
    cases hbreak : breakAt [] s.lines with
    | some parts =>
      obtain ⟨hread, hempty, hleft⟩ := hended parts.1 parts.2 hbreak
      obtain ⟨hread', hempty', hleft'⟩ := hended' parts.1 parts.2 hbreak
      rw [hread, hempty, hleft, hread', hempty', hleft']
      exact ⟨rfl, rfl, rfl⟩
    | none =>
      obtain ⟨hread, hempty, hleft⟩ := hopen hbreak
      obtain ⟨hread', hempty', hleft'⟩ := hopen' hbreak
      rw [hread, hempty, hleft, hread', hempty', hleft']
      exact ⟨rfl, rfl, rfl⟩

/-- The next record is the first of all records. -/
theorem record_of_records_eq_cons {record : Text} {later : List Text}
    (h : s.records mode = record :: later) : (s.readRecord mode).record = record := by
  rw [records] at h
  split at h
  · exact (List.cons.inj h).1
  · cases h

/-- **All records of a stream** are the records in its lines. -/
theorem records_eq (mode : RecordMode) (s : Stream) : s.records mode = mode.recordsIn s.lines := by
  fun_induction records mode s with
  | case1 s reading hmore _ ih =>
    obtain ⟨consumed, hlines, hserves⟩ := serves_readRecord mode s
    rw [hmore] at hserves
    rw [ih, hlines, hserves.recordsIn]
  | case2 s reading hnone =>
    obtain ⟨consumed, hlines, hserves⟩ := serves_readRecord mode s
    have hover := hserves.more_eq_false_iff.1.mp (Bool.eq_false_iff.mpr hnone)
    rw [hlines, hover]
    cases mode <;> rfl

end Stream

end Corpus
