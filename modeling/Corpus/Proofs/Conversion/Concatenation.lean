import Corpus.Proofs.Conversion.Agreement
import Corpus.Proofs.Record.Boundary

/-!
# Converting two texts at once

A record is converted in the same way whatever stands before and after it. So two texts, the first of
which ends at a record boundary, are converted together as one after the other.

* Records that are converted one after the other are converted together, with both texts and the sum of
  the numbers. A record that fails ends the run where it ended it before.
* The records of both texts are those of the first and those of the second.
-/

namespace Corpus.Conversion

variable {c : Conversion} {records others : List Text} {text other : Text} {m n : Nat} {e : Error}

/-- **Converted records** are converted together. -/
theorem Converts.append (h : c.Converts records text m) (h' : c.Converts others other n) :
    c.Converts (records ++ others) (text ++ other) (m + n) := by
  induction h with
  | nil => rwa [List.nil_append, List.nil_append, Nat.zero_add]
  | dropped hread _ ih => exact .dropped hread ih
  | written hread hwrite _ ih =>
    rw [List.append_assoc, Nat.add_right_comm]
    exact .written hread hwrite ih

/-- Records in turn after converted ones. -/
theorem sequential_append_of_error (h : c.Converts records text m)
    (h' : c.sequential others = { text := other, result := .error e }) :
    c.sequential (records ++ others) = { text := text ++ other, result := .error e } := by
  obtain ⟨before, record, after, n, rfl, hbefore, hfails⟩ := sequential_eq_error_iff.mp h'
  rw [← List.append_assoc]
  exact sequential_of_fails (h.append hbefore) hfails

/-- Records that come after an error are not reached. -/
theorem sequential_append_of_error_front
    (h : c.sequential records = { text, result := .error e }) (others : List Text) :
    c.sequential (records ++ others) = { text, result := .error e } := by
  obtain ⟨before, record, after, n, rfl, hbefore, hfails⟩ := sequential_eq_error_iff.mp h
  rw [List.append_assoc, List.cons_append]
  exact sequential_of_fails hbefore hfails

/-- **Records are converted independently** of what surrounds them. Let the first of two texts end at a
record boundary. When both are converted, they are converted together to the one output after the other,
with the sum of the numbers. An error in the first text is the error of both with the same output, and
an error in the second one comes after the output of the first. -/
theorem run_append {front rest : Text} (hworkers : c.workers = 1)
    (hfront : c.source.format.mode.EndsAt front) :
    (∀ first m second n, c.run (.text front) = { text := first, result := .ok m } →
      c.run (.text rest) = { text := second, result := .ok n } →
      c.run (.text (front ++ rest)) = { text := first ++ second, result := .ok (m + n) }) ∧
    (∀ first e, c.run (.text front) = { text := first, result := .error e } →
      c.run (.text (front ++ rest)) = { text := first, result := .error e }) ∧
    (∀ first m second e, c.run (.text front) = { text := first, result := .ok m } →
      c.run (.text rest) = { text := second, result := .error e } →
      c.run (.text (front ++ rest)) = { text := first ++ second, result := .error e }) := by
  have hrun (stream : Stream) : c.run stream = c.sequential (c.source.records stream) := by
    have hsame : { c with workers := 1 } = c := by rw [← hworkers]
    rw [← run_one_worker, hsame]
  have hrecords : c.source.records (.text (front ++ rest)) =
      c.source.records (.text front) ++ c.source.records (.text rest) :=
    Stream.records_append hfront rest
  simp only [hrun, hrecords]
  refine ⟨fun first m second n hfirst hsecond => ?_, fun first e hfirst => ?_,
    fun first m second e hfirst hsecond => ?_⟩
  · exact sequential_of_converts
      ((sequential_eq_ok_iff.mp hfirst).append (sequential_eq_ok_iff.mp hsecond))
  · exact sequential_append_of_error_front hfirst _
  · exact sequential_append_of_error (sequential_eq_ok_iff.mp hfirst) hsecond

/-- A record with an empty line after it that ends in a carriage return. -/
def oneWordBlock : Text := oneWordRecord ++ "\r\n".toList

/-- One worker for the records. -/
def toJsonInTurn : Conversion := { toJson with workers := 1 }

/-- The record twice, and the record before one that is refused. -/
theorem run_append_oneWordBlock :
    toJsonInTurn.workers = 1 ∧ toJsonInTurn.source.format.mode.EndsAt oneWordBlock ∧
      toJsonInTurn.run (.text oneWordBlock) = { text := oneWordLine, result := .ok 1 } ∧
      toJsonInTurn.run (.text badHeadRecord) = { text := [], result := .error badHead } ∧
      toJsonInTurn.run (.text (oneWordBlock ++ oneWordBlock)) =
        { text := oneWordLine ++ oneWordLine, result := .ok 2 } ∧
      toJsonInTurn.run (.text (oneWordBlock ++ badHeadRecord)) =
        { text := oneWordLine, result := .error badHead } := by
  have hends : toJsonInTurn.source.format.mode.EndsAt oneWordBlock :=
    .inr ⟨oneWordRecord, ['\r'], by decide, .inr (by decide), by decide, by decide⟩
  have hfirst : toJsonInTurn.source.records (.text oneWordBlock) = [oneWordRecord] := by
    decide +kernel
  have hsecond : toJsonInTurn.source.records (.text badHeadRecord) = [badHeadRecord] := by
    decide +kernel
  have hconverts : toJsonInTurn.Converts [oneWordRecord] oneWordLine 1 :=
    List.append_nil oneWordLine ▸ .written (s := oneWord) rfl rfl .nil
  have hrun : toJsonInTurn.run (.text oneWordBlock) = { text := oneWordLine, result := .ok 1 } :=
    run_eq_ok_iff.mpr (hfirst ▸ hconverts)
  have hbroken : toJsonInTurn.run (.text badHeadRecord) =
      { text := [], result := .error badHead } := by
    rw [toJsonInTurn, run_one_worker]
    exact (congrArg toJson.sequential hsecond).trans (sequential_of_fails .nil (.inl rfl))
  have htwice := (run_append rfl hends).1 oneWordLine 1 oneWordLine 1 hrun hrun
  have hended := (run_append rfl hends).2.2 oneWordLine 1 [] badHead hrun hbroken
  rw [List.append_nil] at hended
  exact ⟨rfl, hends, hrun, hbroken, htwice, hended⟩

end Corpus.Conversion
