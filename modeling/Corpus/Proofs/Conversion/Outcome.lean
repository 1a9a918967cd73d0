import Corpus.Conversion

/-!
# What a conversion comes to

Records are converted when each is read and what is read is written. This is said as a relation
between records, the text that is written and the number of sentences, and every way of running a
conversion is related to it.

* Records that are converted are a successful run, in turn and on workers.
* A run in turn ends at the first record that is refused or cannot be written, with the records before
  it converted.
* On workers a refused record ends the run before anything is written. Only the records up to the
  first refused one need to have been finished for that.
-/

namespace Corpus.Conversion

variable {c : Conversion} {records before after : List Text} {record text : Text} {n : Nat}
  {e : Error} {order : List Nat}

/-- **Converted records.** All of them are read and their sentences written one after another. A
record without content is dropped. -/
inductive Converts (c : Conversion) : List Text → Text → Nat → Prop
  | nil : Converts c [] [] 0
  | dropped {record : Text} {records : List Text} {text : Text} {n : Nat} :
      c.source.read c.docid record = .ok none → Converts c records text n →
      Converts c (record :: records) text n
  | written {record : Text} {records : List Text} {s : Sentence} {first text : Text} {n : Nat} :
      c.source.read c.docid record = .ok (some s) → c.target.write s = .ok first →
      Converts c records text n → Converts c (record :: records) (first ++ text) (n + 1)

/-- **The record that ends a run**: it is refused, or its sentence cannot be written. -/
def Fails (c : Conversion) (record : Text) (e : Error) : Prop :=
  c.source.read c.docid record = .error e ∨
    ∃ s, c.source.read c.docid record = .ok (some s) ∧ c.target.write s = .error e

/-! ### In turn -/

theorem sequential_of_converts (h : c.Converts records text n) :
    c.sequential records = { text, result := .ok n } := by
  induction h with
  | nil => rfl
  | dropped hread _ ih => rw [sequential, hread]; exact ih
  | written hread hwrite _ ih =>
    rw [sequential, hread]
    simp only [hwrite, ih]
    rfl

theorem sequential_of_fails (h : c.Converts before text n) (hfails : c.Fails record e) :
    c.sequential (before ++ record :: after) = { text, result := .error e } := by
  induction h with
  | nil =>
    rcases hfails with hread | ⟨s, hread, hwrite⟩
    · rw [List.nil_append, sequential, hread]
    · rw [List.nil_append, sequential, hread]
      simp only [hwrite]
  | dropped hread _ ih => rw [List.cons_append, sequential, hread]; exact ih
  | written hread hwrite _ ih =>
    rw [List.cons_append, sequential, hread]
    simp only [hwrite, ih]
    rfl

/-- **The two ends of a run in turn.** All records are converted, or those before one that fails. -/
theorem converts_or_fails (c : Conversion) (records : List Text) :
    (∃ text n, c.Converts records text n) ∨
      ∃ before record after text n e, records = before ++ record :: after ∧
        c.Converts before text n ∧ c.Fails record e := by
  induction records with
  | nil => exact .inl ⟨[], 0, .nil⟩
  | cons record records ih =>
    cases hread : c.source.read c.docid record with
    | error e => exact .inr ⟨[], record, records, [], 0, e, rfl, .nil, .inl hread⟩
    | ok found =>
      cases found with
      | none =>
        rcases ih with ⟨text, n, h⟩ | ⟨before, bad, after, text, n, e, rfl, h, hfails⟩
        · exact .inl ⟨text, n, .dropped hread h⟩
        · exact .inr ⟨record :: before, bad, after, text, n, e, rfl, .dropped hread h, hfails⟩
      | some s =>
        cases hwrite : c.target.write s with
        | error e => exact .inr ⟨[], record, records, [], 0, e, rfl, .nil, .inr ⟨s, hread, hwrite⟩⟩
        | ok first =>
          rcases ih with ⟨text, n, h⟩ | ⟨before, bad, after, text, n, e, rfl, h, hfails⟩
          · exact .inl ⟨first ++ text, n + 1, .written hread hwrite h⟩
          · exact .inr ⟨record :: before, bad, after, first ++ text, n + 1, e, rfl,
              .written hread hwrite h, hfails⟩

/-- **Success in turn.** -/
theorem sequential_eq_ok_iff :
    c.sequential records = { text, result := .ok n } ↔ c.Converts records text n := by
  refine ⟨fun h => ?_, sequential_of_converts⟩
  rcases converts_or_fails c records with
    ⟨text', n', hall⟩ | ⟨before, record, after, text', n', e, rfl, hbefore, hfails⟩
  · rw [sequential_of_converts hall, Output.mk.injEq, Except.ok.injEq] at h
    exact h.1 ▸ h.2 ▸ hall
  · rw [sequential_of_fails hbefore hfails, Output.mk.injEq] at h
    cases h.2

/-- **Failure in turn.** -/
theorem sequential_eq_error_iff :
    c.sequential records = { text, result := .error e } ↔
      ∃ before record after n, records = before ++ record :: after ∧
        c.Converts before text n ∧ c.Fails record e := by
  constructor
  · intro h
    rcases converts_or_fails c records with
      ⟨text', n', hall⟩ | ⟨before, record, after, text', n', e', rfl, hbefore, hfails⟩
    · rw [sequential_of_converts hall, Output.mk.injEq] at h
      cases h.2
    · rw [sequential_of_fails hbefore hfails, Output.mk.injEq, Except.error.injEq] at h
      obtain ⟨rfl, rfl⟩ := h
      exact ⟨before, record, after, n', rfl, hbefore, hfails⟩
  · rintro ⟨before, record, after, n, rfl, hbefore, hfails⟩
    exact sequential_of_fails hbefore hfails

/-! ### On workers -/

/-- The sentences of converted records are delivered and written. -/
theorem deliver_of_converts (h : c.Converts records text n) :
    ∃ sentences, deliver (records.map (c.source.read c.docid)) = .ok sentences ∧
      c.target.writeAll sentences = { text, result := .ok n } := by
  induction h with
  | nil => exact ⟨[], rfl, rfl⟩
  | dropped hread _ ih =>
    obtain ⟨sentences, hdeliver, hwrite⟩ := ih
    refine ⟨sentences, ?_, hwrite⟩
    rw [List.map_cons, hread, deliver, hdeliver]
    rfl
  | @written _ _ s _ _ _ hread hfirst _ ih =>
    obtain ⟨sentences, hdeliver, hwrite⟩ := ih
    refine ⟨s :: sentences, ?_, ?_⟩
    · rw [List.map_cons, hread, deliver, hdeliver]
      rfl
    · rw [Target.writeAll, hfirst]
      simp only [hwrite]
      rfl

/-- Records whose sentences are delivered and written are converted. -/
theorem converts_of_deliver {sentences : List Sentence}
    (h : deliver (records.map (c.source.read c.docid)) = .ok sentences)
    (hwrite : c.target.writeAll sentences = { text, result := .ok n }) :
    c.Converts records text n := by
  induction records generalizing sentences text n with
  | nil =>
    obtain rfl : [] = sentences := Except.ok.inj h
    rw [Target.writeAll, Output.mk.injEq, Except.ok.injEq] at hwrite
    obtain ⟨rfl, rfl⟩ := hwrite
    exact .nil
  | cons record records ih =>
    rw [List.map_cons] at h
    cases hread : c.source.read c.docid record with
    | error e =>
      rw [hread] at h
      cases h
    | ok found =>
      rw [hread, deliver] at h
      cases hrest : deliver (records.map (c.source.read c.docid)) with
      | error e =>
        rw [hrest] at h
        cases h
      | ok rest =>
        rw [hrest] at h
        obtain rfl := Except.ok.inj h
        cases found with
        | none => exact .dropped hread (ih hrest hwrite)
        | some s =>
          have hwrite : c.target.writeAll (s :: rest) = { text, result := .ok n } := hwrite
          rw [Target.writeAll] at hwrite
          cases hfirst : c.target.write s with
          | error e =>
            rw [hfirst, Output.mk.injEq] at hwrite
            cases hwrite.2
          | ok first =>
            rw [hfirst, Output.mk.injEq] at hwrite
            obtain ⟨rfl, hcount⟩ := hwrite
            cases hlater : (c.target.writeAll rest).result with
            | error e =>
              rw [hlater] at hcount
              cases hcount
            | ok m =>
              rw [hlater] at hcount
              obtain rfl := Except.ok.inj hcount
              exact .written hread hfirst (ih hrest (by rw [← hlater]))

/-- The first refused record ends the delivery, whatever comes after it. -/
theorem deliver_of_refused (h : c.Converts before text n)
    (rest : List (Except Error (Option Sentence))) :
    deliver (before.map (c.source.read c.docid) ++ .error e :: rest) = .error e := by
  induction h with
  | nil => rfl
  | dropped hread _ ih =>
    rw [List.map_cons, hread, List.cons_append, deliver, ih]
    rfl
  | written hread _ _ ih =>
    rw [List.map_cons, hread, List.cons_append, deliver, ih]
    rfl

theorem parallel_of_converts (h : c.Converts records text n)
    (horder : ∀ i, i < records.length → i ∈ order) :
    c.parallel order records = { text, result := .ok n } := by
  obtain ⟨sentences, hdeliver, hwrite⟩ := deliver_of_converts h
  rw [parallel, Workers.inOrder_eq_map _ _ horder, hdeliver]
  exact hwrite

theorem parallel_of_refused (h : c.Converts before text n)
    (hread : c.source.read c.docid record = .error e)
    (horder : ∀ i, i ≤ before.length → i ∈ order) :
    c.parallel order (before ++ record :: after) = { text := [], result := .error e } := by
  have hfront : before ++ record :: after = (before ++ [record]) ++ after := by
    rw [List.append_assoc, List.singleton_append]
  obtain ⟨rest, hresults⟩ :=
    Workers.exists_inOrder_append (c.source.read c.docid) (before ++ [record]) after
      fun i hi => horder i (by simpa [Nat.lt_succ_iff] using hi)
  rw [parallel, hfront, hresults, List.map_append, List.map_singleton, hread, List.append_assoc,
    List.singleton_append, deliver_of_refused h rest]

/-- **Success.** With any number of workers a run succeeds when all records are converted. -/
theorem run_eq_ok_iff {stream : Stream} :
    c.run stream = { text, result := .ok n } ↔ c.Converts (c.source.records stream) text n := by
  rw [run]
  split
  · constructor
    · intro h
      rw [parallel, Workers.inOrder_eq_map _ _ fun i hi => List.mem_range.mpr hi] at h
      split at h
      · rw [Output.mk.injEq] at h
        cases h.2
      · rename_i hdeliver
        exact converts_of_deliver hdeliver h
    · exact fun h => parallel_of_converts h fun i hi => List.mem_range.mpr hi
  · exact sequential_eq_ok_iff

end Corpus.Conversion
