import Corpus.Proofs.Conversion.Outcome
import Corpus.Proofs.Conversion.Writable

/-!
# Workers agree with reading in turn

A conversion on workers is compared with the same conversion on one.

* What was read can be written, so a run in turn can only end at a record that is refused
  (`Fails.read`). This is where the digit limit is used: no text has so many bytes that their number
  cannot be written.
* On workers that record ends the run with the same error, in whatever order the records are finished.
  Those after it need not be finished at all.
-/

namespace Corpus

namespace Conversion

variable {c : Conversion} {records before after : List Text} {record text : Text} {n : Nat}
  {e : Error} {order : List Nat} {stream : Stream}

/-- **Running a conversion on workers that finish in the given order.** -/
def runInOrder (c : Conversion) (order : List Nat) (stream : Stream) : Output :=
  let records := c.source.records stream
  if c.isParallel then c.parallel order records else c.sequential records

theorem run_eq_runInOrder (c : Conversion) (stream : Stream) :
    c.run stream = c.runInOrder (List.range (c.source.records stream).length) stream := rfl

/-- Reading in turn does not depend on the number of workers. -/
theorem sequential_withWorkers (c : Conversion) (workers : Int) (records : List Text) :
    { c with workers }.sequential records = c.sequential records := by
  induction records with
  | nil => rfl
  | cons record records ih => simp only [sequential, ih]

/-- With one worker records are read and written in turn. -/
theorem run_one_worker (c : Conversion) (stream : Stream) :
    { c with workers := 1 }.run stream = c.sequential (c.source.records stream) := by
  have hinTurn : ¬ { c with workers := 1 }.isParallel = true := of_decide_eq_false rfl
  rw [run, if_neg hinTurn]
  exact sequential_withWorkers c 1 _

/-- With several workers everything is read first. -/
theorem runInOrder_workers (hworkers : 2 ≤ c.workers) :
    c.runInOrder order stream = c.parallel order (c.source.records stream) := by
  have hparallel : c.isParallel = true := decide_eq_true (by omega)
  rw [runInOrder, if_pos hparallel]

/-- **Finished records.** Every record before which none is refused has been finished. Records after
the first refused one may have been finished or given up. -/
def HasFinished (c : Conversion) (order : List Nat) (records : List Text) : Prop :=
  ∀ before record after, records = before ++ record :: after →
    (∀ earlier ∈ before, ∃ found, c.source.read c.docid earlier = .ok found) →
    before.length ∈ order

/-- **Sizes that can be shown.** JSON shows places in the text, so the number of its bytes has to be
within the digit limit. -/
def HasShownSizes (c : Conversion) (records : List Text) : Prop :=
  c.target = .json → ∀ record ∈ records, ∀ s, c.source.read c.docid record = .ok (some s) →
    s.text.byteLength < 10 ^ Numeral.digitLimit

/-! ### Records that are converted -/

/-- Converted records have been read. -/
theorem Converts.forall_read (h : c.Converts records text n) :
    ∀ record ∈ records, ∃ found, c.source.read c.docid record = .ok found := by
  induction h with
  | nil => exact fun _ hmem => nomatch hmem
  | dropped hread _ ih => exact List.forall_mem_cons.mpr ⟨⟨_, hread⟩, ih⟩
  | written hread _ _ ih => exact List.forall_mem_cons.mpr ⟨⟨_, hread⟩, ih⟩

/-- When the records at the front have been read, they and the next one have been finished. -/
theorem HasFinished.mem_of_le (horder : c.HasFinished order (before ++ record :: after))
    (hread : ∀ earlier ∈ before, ∃ found, c.source.read c.docid earlier = .ok found) :
    ∀ i ≤ before.length, i ∈ order := by
  intro i hi
  have hlength : (before.take i).length = i := List.length_take_of_le hi
  have hfront : ∀ earlier ∈ before.take i, ∃ found, c.source.read c.docid earlier = .ok found :=
    fun earlier hmem => hread earlier (List.mem_of_mem_take hmem)
  cases hdrop : before.drop i ++ record :: after with
  | nil => exact absurd hdrop (List.append_ne_nil_of_right_ne_nil _ (List.cons_ne_nil _ _))
  | cons next rest =>
    rw [← hlength]
    refine horder (before.take i) next rest ?_ hfront
    rw [← hdrop, ← List.append_assoc, List.take_append_drop]

/-- When all records have been read, all have been finished. -/
theorem HasFinished.mem_of_lt (horder : c.HasFinished order records)
    (hread : ∀ record ∈ records, ∃ found, c.source.read c.docid record = .ok found) :
    ∀ i < records.length, i ∈ order := by
  intro i hi
  have hsplit : records = records.take i ++ records[i] :: records.drop (i + 1) := by
    rw [← List.drop_eq_getElem_cons hi, List.take_append_drop]
  have hmem := horder _ _ _ hsplit fun earlier hmem => hread earlier (List.mem_of_mem_take hmem)
  rwa [List.length_take_of_le (Nat.le_of_lt hi)] at hmem

/-- Up to the first refused record is enough. -/
theorem hasFinished_of_refused (hread : c.source.read c.docid record = .error e)
    (h : ∀ i ≤ before.length, i ∈ order) : c.HasFinished order (before ++ record :: after) := by
  intro front next rest hsplit hfront
  by_cases hle : front.length ≤ before.length
  · exact h _ hle
  · have hplace : front[before.length]? = some record := by
      rw [← List.getElem?_append_left (Nat.lt_of_not_le hle), ← hsplit,
        List.getElem?_append_right (Nat.le_refl _), Nat.sub_self, List.getElem?_cons_zero]
    obtain ⟨found, hfound⟩ := hfront record (List.mem_of_getElem? hplace)
    rw [hread] at hfound
    cases hfound

/-! ### Records that end a run -/

/-- **A record that ends a run is refused.** -/
theorem Fails.read (h : c.Fails record e) (hmem : record ∈ records)
    (hsize : c.HasShownSizes records) : c.source.read c.docid record = .error e := by
  rcases h with hread | ⟨s, hread, hwrite⟩
  · exact hread
  · obtain ⟨text, htext⟩ :=
      Target.exists_write hread fun htarget => hsize htarget record hmem s hread
    rw [htext] at hwrite
    cases hwrite

/-- **Agreement.** With several workers, finishing in any order, a conversion comes to what it comes
to with one worker. Where reading in turn succeeds, the text and the number of sentences are the same.
Where it fails, it has written the sentences of the records before the first refused one, whose error
it gives; with several workers the error is the same and nothing has been written. -/
theorem runInOrder_agrees (hworkers : 2 ≤ c.workers)
    (horder : c.HasFinished order (c.source.records stream))
    (hsize : c.HasShownSizes (c.source.records stream)) :
    (∀ text n, { c with workers := 1 }.run stream = { text, result := .ok n } →
      c.runInOrder order stream = { text, result := .ok n }) ∧
    (∀ text e, { c with workers := 1 }.run stream = { text, result := .error e } →
      c.runInOrder order stream = { text := [], result := .error e } ∧
      ∃ before record after n, c.source.records stream = before ++ record :: after ∧
        c.Converts before text n ∧ c.source.read c.docid record = .error e) := by
  rw [run_one_worker, runInOrder_workers hworkers]
  refine ⟨fun text n hrun => ?_, fun text e hrun => ?_⟩
  · have hconverts := sequential_eq_ok_iff.mp hrun
    exact parallel_of_converts hconverts (horder.mem_of_lt hconverts.forall_read)
  · obtain ⟨before, record, after, n, hrecords, hconverts, hfails⟩ :=
      sequential_eq_error_iff.mp hrun
    rw [hrecords] at horder hsize ⊢
    have hrefused : c.source.read c.docid record = .error e :=
      hfails.read (List.mem_append_right _ List.mem_cons_self) hsize
    exact ⟨parallel_of_refused hconverts hrefused (horder.mem_of_le hconverts.forall_read),
      before, record, after, n, rfl, hconverts, hrefused⟩

/-- A record of one word, and one whose head is no number. -/
def oneWordRecord : Text := "1\ta\t_\t_\t_\t_\t0\t_\n".toList
def badHeadRecord : Text := "1\tb\t_\t_\t_\t_\tx\t_\n".toList

/-- What the first is read as, and the sentence as JSON. -/
def oneWord : Sentence :=
  { docid := some [], text := ['a'], tokens := [{ word := ['a'], start := 0, last := 0 }] }
def oneWordLine : Text :=
  "\x7b\"docid\": \"\", \"text\": \"a\", \"tokens\": [".toList ++
    "\x7b\"word\": \"a\", \"start\": 0, \"end\": 0, \"id\": 1\x7d]\x7d\n".toList

/-- Why the second is refused. -/
def badHead : Error :=
  .malformed
    { reason := .notInteger .head (['x'] : Text), line := badHeadRecord.dropLast, lineNumber := some 1 }

/-- A record that is read, an empty one, one that is refused, and a comment. -/
def brokenStream : Stream :=
  .text (oneWordRecord ++ "\n\n".toList ++ badHeadRecord ++ "\n#c\n".toList)

/-- From tab-separated records to JSON on three workers. -/
def toJson : Conversion :=
  { source := { format := .conll }, target := .json, docid := some [], workers := 3 }

/-- One worker writes the first sentence and stops. Three workers finish the refused record before the
empty one and give the comment up; nothing is written. -/
theorem runInOrder_brokenStream :
    2 ≤ toJson.workers ∧
      toJson.HasFinished [1, 2, 0] (toJson.source.records brokenStream) ∧
      toJson.HasShownSizes (toJson.source.records brokenStream) ∧
      { toJson with workers := 1 }.run brokenStream =
        { text := oneWordLine, result := .error badHead } ∧
      toJson.runInOrder [1, 2, 0] brokenStream = { text := [], result := .error badHead } := by
  have hrecords : toJson.source.records brokenStream =
      [oneWordRecord] ++ [[]] ++ badHeadRecord :: ["#c\n".toList] := by decide +kernel
  have hfirst : toJson.source.read toJson.docid oneWordRecord = .ok (some oneWord) := rfl
  have hempty : toJson.source.read toJson.docid [] = .ok none := rfl
  have hrefused : toJson.source.read toJson.docid badHeadRecord = .error badHead := rfl
  have hcomment : toJson.source.read toJson.docid "#c\n".toList =
      .ok (some (Conll.noteSentence {} (some []) "#c\n".toList)) := rfl
  have hline : toJson.target.write oneWord = .ok oneWordLine := by rfl
  have hconverts : toJson.Converts ([oneWordRecord] ++ [[]]) oneWordLine 1 :=
    List.append_nil oneWordLine ▸ .written hfirst hline (.dropped hempty .nil)
  have hrun : { toJson with workers := 1 }.run brokenStream =
      { text := oneWordLine, result := .error badHead } := by
    rw [run_one_worker, hrecords]
    exact sequential_of_fails hconverts (.inl hrefused)
  have hfinished : toJson.HasFinished [1, 2, 0] (toJson.source.records brokenStream) := by
    rw [hrecords]
    exact hasFinished_of_refused hrefused (by decide)
  have hsize : toJson.HasShownSizes (toJson.source.records brokenStream) := by
    have hlimit : 7 < 10 ^ Numeral.digitLimit :=
      Nat.lt_of_lt_of_le (by decide : 7 < 10 ^ 1) (Nat.pow_le_pow_right (by decide) (by decide))
    rw [hrecords]
    refine fun _ => List.forall_mem_cons.mpr ⟨fun s hread => ?_, List.forall_mem_cons.mpr
      ⟨fun s hread => ?_, List.forall_mem_cons.mpr ⟨fun s hread => ?_,
        List.forall_mem_singleton.mpr fun s hread => ?_⟩⟩⟩
    · obtain rfl := Option.some.inj (Except.ok.inj (hfirst.symm.trans hread))
      exact Nat.lt_trans (by decide) hlimit
    · cases hempty.symm.trans hread
    · cases hrefused.symm.trans hread
    · obtain rfl := Option.some.inj (Except.ok.inj (hcomment.symm.trans hread))
      exact hlimit
  exact ⟨by decide, hfinished, hsize, hrun,
    ((runInOrder_agrees (by decide) hfinished hsize).2 _ _ hrun).1⟩

end Conversion

end Corpus
