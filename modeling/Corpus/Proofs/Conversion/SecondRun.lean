import Corpus.Proofs.Conll.SecondPass
import Corpus.Proofs.Conversion.Outcome

/-!
# Converting the result of a conversion again

A conversion from tab-separated records to tab-separated records writes blocks. Each of them is a
record of the second conversion, which reads and writes it again, so that the second conversion
succeeds with as many sentences as the first.

* It comes to the same text when the lines of the text are stable, and then only.
* Rows with an empty feature column are left out of account.
-/

namespace Corpus

open Conll (IsWritten IsStable IsTokenLine column)

/-- A conversion of tab-separated records to tab-separated records. -/
def Conversion.rewriting (options : Options) (docid : Option Text) (workers : Int) : Conversion :=
  { source := { format := .conll, options }
    target := .format { format := .conll, options }
    docid
    workers }

namespace Conversion

variable {options : Options} {docid : Option Text} {workers : Int} {records : List Text}
  {blocks : List (List Text)} {text : Text} {n : Nat}

/-- **A conversion writes blocks**, one for each sentence. -/
theorem Converts.exists_blocks (h : (rewriting options docid workers).Converts records text n) :
    ∃ blocks : List (List Text), blocks.length = n ∧ (∀ lines ∈ blocks, IsWritten options lines) ∧
      text = blocks.flatMap blockOf := by
  induction h with
  | nil => exact ⟨[], rfl, nofun, rfl⟩
  | dropped _ _ ih => exact ih
  | written hread hwrite _ ih =>
    obtain ⟨blocks, rfl, hblocks, rfl⟩ := ih
    obtain ⟨lines, hlines, rfl⟩ := Conll.exists_isWritten hread hwrite
    exact ⟨lines :: blocks, rfl, List.forall_mem_cons.mpr ⟨hlines, hblocks⟩, rfl⟩

/-- **Blocks are converted again**, each to a block. -/
theorem exists_converts_blocks (h : ∀ lines ∈ blocks, IsWritten options lines) (docid : Option Text)
    (workers : Int) :
    ∃ again : List (List Text), (∀ lines ∈ again, IsWritten options lines) ∧
      (rewriting options docid workers).Converts
        (blocks.map fun lines => (lines.map dropReturn).flatMap (· ++ ['\n']))
        (again.flatMap blockOf) blocks.length ∧
      ((∀ lines ∈ blocks, ∀ line ∈ lines, IsTokenLine line → column 5 line ≠ []) →
        (again = blocks ↔ ∀ lines ∈ blocks, IsStable options lines)) := by
  induction blocks with
  | nil =>
    refine ⟨[], nofun, .nil, fun _ => ?_⟩
    exact iff_of_true rfl nofun
  | cons lines blocks ih =>
    obtain ⟨hlines, hblocks⟩ := List.forall_mem_cons.mp h
    obtain ⟨first, ⟨s, hread, hwrite⟩, hfirst, hsame⟩ := hlines.exists_rewritten docid
    obtain ⟨again, hagain, hconverts, hrest⟩ := ih hblocks
    refine ⟨first :: again, List.forall_mem_cons.mpr ⟨hfirst, hagain⟩,
      .written hread hwrite hconverts, fun hfeatures => ?_⟩
    obtain ⟨hfeature, hfeatures⟩ := List.forall_mem_cons.mp hfeatures
    rw [List.cons.injEq, hsame hfeature, hrest hfeatures, List.forall_mem_cons]

/-- The lines of a text of blocks are stable when those of each block are. -/
theorem isStable_splitOn_blocks_iff (h : ∀ lines ∈ blocks, ∀ line ∈ lines, IsBlockLine line) :
    IsStable options (List.splitOn '\n' (blocks.flatMap blockOf)) ↔
      ∀ lines ∈ blocks, IsStable options lines := by
  have hreturn := forall_mem_splitOn_blocks_iff (p := fun line => line.getLast? ≠ some '\r')
    nofun h
  have hkeeps := forall_mem_splitOn_blocks_iff
    (p := fun line => IsTokenLine line → ¬ Conll.LosesAttribute options (Conll.tokenOf line))
    (fun hline => absurd rfl hline.nonempty) h
  constructor
  · intro hstable lines hlines
    exact ⟨hreturn.mp hstable.no_return lines hlines, hkeeps.mp hstable.keeps lines hlines⟩
  · intro hstable
    exact ⟨hreturn.mpr fun lines hlines => (hstable lines hlines).no_return,
      hkeeps.mpr fun lines hlines => (hstable lines hlines).keeps⟩

/-- **The second run.** What a conversion between tab-separated records has written can be converted
again under the same options, with the same number of sentences. Unless a row has an empty feature
column, the text is the same exactly when its lines are stable. -/
theorem run_rewriting_again {stream : Stream}
    (hrun : (rewriting options docid workers).run stream = { text, result := .ok n }) :
    ∃ again, (rewriting options docid workers).run (.text text) = { text := again, result := .ok n } ∧
      ((∀ line ∈ List.splitOn '\n' text, IsTokenLine line → column 5 line ≠ []) →
        (again = text ↔ IsStable options (List.splitOn '\n' text))) := by
  obtain ⟨blocks, rfl, hblocks, rfl⟩ := (run_eq_ok_iff.mp hrun).exists_blocks
  obtain ⟨again, hagain, hconverts, hsame⟩ := exists_converts_blocks hblocks docid workers
  have hlines := fun lines hmem => (hblocks lines hmem).isBlockLine
  have hlines' := fun lines hmem => (hagain lines hmem).isBlockLine
  have hrecords : (rewriting options docid workers).source.records (.text (blocks.flatMap blockOf)) =
      blocks.map fun lines => (lines.map dropReturn).flatMap (· ++ ['\n']) :=
    Stream.records_blocks hlines
  refine ⟨again.flatMap blockOf, run_eq_ok_iff.mpr (hrecords ▸ hconverts), fun hfeatures => ?_⟩
  rw [forall_mem_splitOn_blocks_iff (p := fun line => IsTokenLine line → column 5 line ≠ [])
    (fun hline => absurd rfl hline.nonempty) hlines] at hfeatures
  rw [blocks_inj hlines' hlines, hsame hfeatures, isStable_splitOn_blocks_iff hlines]

/-- A comment in a field of its own, and a row with two plus signs at the end of the category, a
feature without a value and a negative head. -/
def roughStream : Stream :=
  .text "#a\tb\r\n\r\n1\tb\t_\tN++\tT\tx=|y\t-3\t_".toList

/-- What they are written as with joined categories. -/
def smoothText : Text := "#a\n\n1\tb\t_\tN\t++T\ty\t0\t_\t_\t_\n\n".toList

/-- What was written once is written again. -/
theorem run_smoothText :
    (rewriting ⟨true, false⟩ (some []) 1).run roughStream = { text := smoothText, result := .ok 2 } ∧
      (rewriting ⟨true, false⟩ (some []) 1).run (.text smoothText) =
        { text := smoothText, result := .ok 2 } := by
  have hrecords : (rewriting ⟨true, false⟩ (some []) 1).source.records roughStream =
      ["#a\tb\n".toList, "1\tb\t_\tN++\tT\tx=|y\t-3\t_\n".toList] := by
    decide +kernel
  have hrun : (rewriting ⟨true, false⟩ (some []) 1).run roughStream =
      { text := smoothText, result := .ok 2 } := by
    rw [run_eq_ok_iff, hrecords, ← sequential_eq_ok_iff]
    rfl
  obtain ⟨again, hagain, hsame⟩ := run_rewriting_again hrun
  obtain rfl := (hsame (by decide)).mpr ⟨by decide, by decide⟩
  exact ⟨hrun, hagain⟩

/-- A token without a tag that has two attributes of the name of a repeated one, one, and none. -/
def twoTags : Text := "1\ta\t_\t_\t_\tfPOS=x|fPOS=y\t0\t_\t_\t_\n\n".toList
def oneTag : Text := "1\ta\t_\t_\t_\tfPOS=x\t0\t_\t_\t_\n\n".toList
def noTag : Text := "1\ta\t_\t_\t_\t_\t0\t_\t_\t_\n\n".toList

/-- With repeated tags, each run takes one off where there is none to repeat. -/
theorem run_twoTags :
    (rewriting ⟨false, true⟩ (some []) 1).run (.text twoTags) = { text := oneTag, result := .ok 1 } ∧
      (rewriting ⟨false, true⟩ (some []) 1).run (.text oneTag) =
        { text := noTag, result := .ok 1 } ∧
      noTag ≠ oneTag := by
  have hrecords : (rewriting ⟨false, true⟩ (some []) 1).source.records (.text twoTags) =
      [twoTags.dropLast] := by decide +kernel
  have hrecords' : (rewriting ⟨false, true⟩ (some []) 1).source.records (.text oneTag) =
      [oneTag.dropLast] := by decide +kernel
  refine ⟨?_, ?_, by decide⟩
  · rw [run_eq_ok_iff, hrecords, ← sequential_eq_ok_iff]
    rfl
  · rw [run_eq_ok_iff, hrecords', ← sequential_eq_ok_iff]
    rfl

end Conversion

end Corpus
