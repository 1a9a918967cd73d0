import Corpus.Proofs.Record.Lines

/-!
# Blocks of a text

Lines and an empty one after them are read as one record of the mode `block`; what stands after the
empty line is left.

* A block line holds no line feed and is not empty once a carriage return at its end is dropped.
* A record line is a block line without a carriage return at its end, so that it is read as it stands.
* The records of a text that consists of blocks are the blocks, and their lines can be told from the
  text (`blocks_inj`).
-/

namespace Corpus

/-- **Block line.** A line that does not end a block. -/
structure IsBlockLine (line : Text) : Prop where
  lineFeed_not_mem : '\n' ∉ line
  dropReturn_ne_nil : dropReturn line ≠ []

/-- **Record line.** A line that is read from a text as it stands there and does not end a block. -/
structure IsRecordLine (line : Text) : Prop where
  nonempty : line ≠ []
  lineFeed_not_mem : '\n' ∉ line
  no_return_at_end : line.getLast? ≠ some '\r'

theorem dropReturn_eq_self_iff {line : Text} :
    dropReturn line = line ↔ line.getLast? ≠ some '\r' := by
  rw [dropReturn]
  split
  · rename_i hreturn
    have hlength : 0 < line.length := by
      refine List.length_pos_iff.mpr ?_
      rintro rfl
      cases hreturn
    refine iff_of_false (fun hsame => ?_) fun hne => hne hreturn
    have hshort := congrArg List.length hsame
    rw [List.length_dropLast] at hshort
    omega
  · rename_i hreturn
    exact iff_of_true rfl hreturn

theorem IsBlockLine.ne_nil {line : Text} (h : IsBlockLine line) : line ≠ [] := by
  rintro rfl
  exact h.dropReturn_ne_nil rfl

theorem IsRecordLine.isBlockLine {line : Text} (h : IsRecordLine line) : IsBlockLine line where
  lineFeed_not_mem := h.lineFeed_not_mem
  dropReturn_ne_nil := (dropReturn_eq_self_iff.mpr h.no_return_at_end).symm ▸ h.nonempty

/-- A line that starts with a visible character does not end a block. -/
theorem isBlockLine_cons {c : Char} {line : Text} (hfeed : c ≠ '\n') (hreturn : c ≠ '\r')
    (h : '\n' ∉ line) : IsBlockLine (c :: line) := by
  refine ⟨List.not_mem_cons_of_ne_of_not_mem hfeed.symm h, ?_⟩
  rw [dropReturn]
  split
  · rename_i hlast
    cases line with
    | nil => exact absurd (Option.some.inj hlast) hreturn
    | cons d line => exact List.cons_ne_nil _ _
  · exact List.cons_ne_nil _ _

/-- Lines lose nothing when none ends in a carriage return. -/
theorem map_dropReturn_eq_self_iff {lines : List Text} :
    lines.map dropReturn = lines ↔ ∀ line ∈ lines, line.getLast? ≠ some '\r' := by
  induction lines with
  | nil => exact iff_of_true rfl fun _ hline => nomatch hline
  | cons line lines ih =>
    rw [List.map_cons, List.cons.injEq, dropReturn_eq_self_iff, ih, List.forall_mem_cons]

/-! ### Texts of blocks -/

/-- **The text of a block.** Its lines and an empty line, each with its line feed. -/
def blockOf (lines : List Text) : Text := (lines ++ [[]]).flatMap (· ++ ['\n'])

theorem blockOf_eq (lines : List Text) : blockOf lines = lines.flatMap (· ++ ['\n']) ++ ['\n'] :=
  List.flatMap_append

variable {blocks others : List (List Text)}

theorem lineFeed_not_mem_of_mem_blocks (h : ∀ lines ∈ blocks, ∀ line ∈ lines, IsBlockLine line) :
    ∀ line ∈ blocks.flatMap (· ++ [[]]), '\n' ∉ line := by
  intro line hline
  obtain ⟨lines, hblock, hline⟩ := List.mem_flatMap.mp hline
  rcases List.mem_append.mp hline with hline | hline
  · exact (h lines hblock line hline).lineFeed_not_mem
  · rw [List.mem_singleton.mp hline]
    exact List.not_mem_nil

theorem flatMap_blockOf (blocks : List (List Text)) :
    blocks.flatMap blockOf = (blocks.flatMap (· ++ [[]])).flatMap (· ++ ['\n']) :=
  List.flatMap_assoc.symm

/-- **The records of blocks.** -/
theorem Stream.records_blocks (h : ∀ lines ∈ blocks, ∀ line ∈ lines, IsBlockLine line) :
    (text (blocks.flatMap blockOf)).records .block =
      blocks.map fun lines => (lines.map dropReturn).flatMap (· ++ ['\n']) := by
  have hlines : (text (blocks.flatMap blockOf)).lines =
      (blocks.map (List.map dropReturn)).flatMap (· ++ [[]]) ++ [] := by
    rw [lines_text, flatMap_blockOf, Text.lines_flatMap (lineFeed_not_mem_of_mem_blocks h),
      List.map_flatMap, List.flatMap_map, List.append_nil]
    simp only [List.map_append]
    rfl
  have hparts : ∀ part ∈ blocks.map (List.map dropReturn), [] ∉ part := by
    refine List.forall_mem_map.mpr fun lines hblock hempty => ?_
    obtain ⟨line, hline, hnil⟩ := List.mem_map.mp hempty
    exact (h lines hblock line hline).dropReturn_ne_nil hnil
  rw [records_eq, hlines, RecordMode.recordsIn, cutAt_flatMap_append hparts, cutAt_nil,
    List.append_nil, List.map_id, List.map_map]
  rfl

/-- The text of a block is one record. -/
theorem Stream.records_blockOf {lines : List Text} (h : ∀ line ∈ lines, IsBlockLine line) :
    (text (blockOf lines)).records .block = [(lines.map dropReturn).flatMap (· ++ ['\n'])] := by
  have hrecords := records_blocks (List.forall_mem_singleton.mpr h)
  rwa [List.flatMap_singleton, List.map_singleton] at hrecords

/-- Record lines are read back from the text of a block as they stand. -/
theorem Stream.record_blockOf {lines : List Text} (h : ∀ line ∈ lines, IsRecordLine line) :
    ((text (blockOf lines)).readRecord .block).record = lines.flatMap (· ++ ['\n']) := by
  have hrecords := records_blockOf fun line hline => (h line hline).isBlockLine
  rw [map_dropReturn_eq_self_iff.mpr fun line hline => (h line hline).no_return_at_end] at hrecords
  exact record_of_records_eq_cons hrecords

/-- **The lines of blocks.** -/
theorem splitOn_blocks (h : ∀ lines ∈ blocks, ∀ line ∈ lines, IsBlockLine line) :
    List.splitOn '\n' (blocks.flatMap blockOf) = blocks.flatMap (· ++ [[]]) ++ [[]] := by
  rw [flatMap_blockOf, Text.splitOn_lines (lineFeed_not_mem_of_mem_blocks h)]

/-- What holds of an empty line holds of all lines of the text when it holds of those of the blocks. -/
theorem forall_mem_splitOn_blocks_iff {p : Text → Prop} (hempty : p [])
    (h : ∀ lines ∈ blocks, ∀ line ∈ lines, IsBlockLine line) :
    (∀ line ∈ List.splitOn '\n' (blocks.flatMap blockOf), p line) ↔
      ∀ lines ∈ blocks, ∀ line ∈ lines, p line := by
  rw [splitOn_blocks h]
  constructor
  · intro hall lines hlines line hline
    refine hall line (List.mem_append_left _ (List.mem_flatMap.mpr ⟨lines, hlines, ?_⟩))
    exact List.mem_append_left _ hline
  · intro hall line hline
    rcases List.mem_append.mp hline with hline | hline
    · obtain ⟨lines, hlines, hline⟩ := List.mem_flatMap.mp hline
      rcases List.mem_append.mp hline with hline | hline
      · exact hall lines hlines line hline
      · rw [List.mem_singleton.mp hline]
        exact hempty
    · rw [List.mem_singleton.mp hline]
      exact hempty

/-- **Blocks are determined by their text.** -/
theorem blocks_inj (hblocks : ∀ lines ∈ blocks, ∀ line ∈ lines, IsBlockLine line)
    (hothers : ∀ lines ∈ others, ∀ line ∈ lines, IsBlockLine line) :
    blocks.flatMap blockOf = others.flatMap blockOf ↔ blocks = others := by
  -- the lines of the text split into blocks at the empty ones
  have hsplit {blocks : List (List Text)}
      (h : ∀ lines ∈ blocks, ∀ line ∈ lines, IsBlockLine line) :
      List.splitOn [] (List.splitOn '\n' (blocks.flatMap blockOf)).dropLast = blocks ++ [[]] := by
    rw [splitOn_blocks h, List.dropLast_concat]
    exact splitOn_flatMap_concat fun lines hlines hempty => (h lines hlines [] hempty).ne_nil rfl
  refine ⟨fun hsame => ?_, congrArg _⟩
  exact List.append_cancel_right ((hsplit hblocks).symm.trans (hsame ▸ hsplit hothers))

end Corpus
