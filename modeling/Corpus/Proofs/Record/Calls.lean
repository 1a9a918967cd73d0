import Corpus.Proofs.Record.Lines

/-!
# Calls for records

Records are asked for one after another, each in the mode of some name, and the modes may change from
one call to the next.

* Each call is answered from the lines that the calls before it have left, in front. A name of no mode
  is refused and leaves all lines.
* So a session is a division of the lines among the calls, `Session`. By induction on the calls every
  stream has one, and when no line is left the answers stay the same.
* Answers depend on the lines only. Bytes have the lines of the text that they are decoded to, so they
  are answered like this text.
-/

namespace Corpus

/-! ### Modes by name -/

namespace RecordMode

theorem ofName_name (mode : RecordMode) : ofName mode.name = .ok mode := by
  cases mode <;> rfl

/-- A name is that of a mode, or refused. -/
theorem ofName_cases (name : Text) :
    (∃ mode : RecordMode, name = mode.name) ∨
      (∀ mode : RecordMode, name ≠ mode.name) ∧ ofName name = .error (.unknownMode name) := by
  rw [ofName]
  cases hfind : [block, line].find? fun mode => mode.name = name with
  | some mode => exact .inl ⟨mode, by simpa [eq_comm] using List.find?_some hfind⟩
  | none =>
    refine .inr ⟨fun mode hname => ?_, rfl⟩
    have hmem : mode ∈ [block, line] := by cases mode <;> decide
    exact absurd hname.symm (by simpa using List.find?_eq_none.mp hfind mode hmem)

end RecordMode

/-! ### Sessions -/

/-- **Session.** Names that are asked for, the lines at the start, the answers, and the lines at the
end. A call in a mode consumes the lines in front that its record is served from. -/
inductive Session :
    List Text → (lines : List Text) → List (Except Error (Text × Bool)) → (left : List Text) → Prop
  | done (lines : List Text) : Session [] lines [] lines
  | served {mode : RecordMode} {names consumed left last : List Text} {record : Text} {more : Bool}
      {answers : List (Except Error (Text × Bool))} :
      mode.Serves consumed left record more → Session names left answers last →
      Session (mode.name :: names) (consumed ++ left) (.ok (record, more) :: answers) last
  | refused {name : Text} {names lines last : List Text}
      {answers : List (Except Error (Text × Bool))} :
      (∀ mode : RecordMode, name ≠ mode.name) → Session names lines answers last →
      Session (name :: names) lines (.error (.unknownMode name) :: answers) last

namespace Stream

variable {s other : Stream} {mode : RecordMode} {names : List Text}

/-- **Calls in turn**: the answers, and the stream after them. -/
def calls : Stream → List Text → List (Except Error (Text × Bool)) × Stream
  | s, [] => ([], s)
  | s, name :: names =>
    let (answer, rest) := s.call name
    let (answers, last) := calls rest names
    (answer :: answers, last)

/-- A call in a mode reads a record. -/
theorem calls_name_cons (mode : RecordMode) (s : Stream) (names : List Text) :
    s.calls (mode.name :: names) =
      (.ok ((s.readRecord mode).record, (s.readRecord mode).more) ::
        ((s.readRecord mode).rest.calls names).1, ((s.readRecord mode).rest.calls names).2) := by
  rw [calls, call, RecordMode.ofName_name]

/-- A refused call leaves the stream. -/
theorem calls_refused_cons {name : Text} {e : Error} (h : RecordMode.ofName name = .error e)
    (s : Stream) (names : List Text) :
    s.calls (name :: names) = (.error e :: (s.calls names).1, (s.calls names).2) := by
  rw [calls, call, h]

/-- **Every stream has a session** for every list of names. -/
theorem session_calls (names : List Text) (s : Stream) :
    Session names s.lines (s.calls names).1 (s.calls names).2.lines := by
  induction names generalizing s with
  | nil => exact .done s.lines
  | cons name names ih =>
    obtain ⟨mode, rfl⟩ | ⟨hname, hrefused⟩ := RecordMode.ofName_cases name
    · obtain ⟨consumed, hlines, hserves⟩ := serves_readRecord mode s
      rw [calls_name_cons, hlines]
      exact .served hserves (ih _)
    · rw [calls_refused_cons hrefused]
      exact .refused hname (ih s)

/-- **After the last line** every record is empty and there is none. -/
theorem calls_of_lines_eq_nil (h : s.lines = []) (names : List Text) :
    (s.calls names).1 =
      names.map fun name => (RecordMode.ofName name).map fun _ => (([] : Text), false) := by
  induction names generalizing s with
  | nil => rfl
  | cons name names ih =>
    obtain ⟨mode, rfl⟩ | ⟨-, hrefused⟩ := RecordMode.ofName_cases name
    · obtain ⟨consumed, hlines, hserves⟩ := serves_readRecord mode s
      have hover := hlines.symm.trans h
      have hnone := hserves.more_eq_false_iff.1.mpr hover
      rw [calls_name_cons, List.map_cons, RecordMode.ofName_name,
        hserves.more_eq_false_iff.2 hnone, hnone, ih (List.append_eq_nil_iff.mp hover).2]
      rfl
    · rw [calls_refused_cons hrefused, List.map_cons, hrefused, ih h]
      rfl

/-- **Streams with the same lines answer alike.** -/
theorem calls_congr (h : s.lines = other.lines) (names : List Text) :
    (s.calls names).1 = (other.calls names).1 := by
  induction names generalizing s other with
  | nil => rfl
  | cons name names ih =>
    obtain ⟨mode, rfl⟩ | ⟨-, hrefused⟩ := RecordMode.ofName_cases name
    · obtain ⟨hrecord, hmore, hrest⟩ := readRecord_congr h mode
      rw [calls_name_cons, calls_name_cons, hrecord, hmore, ih hrest]
    · rw [calls_refused_cons hrefused, calls_refused_cons hrefused, ih h]

/-- **Asking until there is no record** gives all records of the stream. -/
theorem calls_replicate (mode : RecordMode) (s : Stream) :
    (s.calls (List.replicate ((s.records mode).length + 1) mode.name)).1 =
      (s.records mode).map (fun record => .ok (record, true)) ++ [.ok ([], false)] := by
  fun_induction records mode s with
  | case1 s reading hmore _ ih =>
    rw [List.length_cons, List.replicate_succ, calls_name_cons, hmore, List.map_cons, ih,
      List.cons_append]
  | case2 s reading hnone =>
    have hnone : (s.readRecord mode).more = false := Bool.eq_false_iff.mpr hnone
    obtain ⟨consumed, hlines, hserves⟩ := serves_readRecord mode s
    rw [List.length_nil, List.replicate_succ, calls_name_cons,
      hserves.more_eq_false_iff.2 hnone, hnone]
    rfl

/-- The records of the mode `block` together are the lines that are not empty. -/
theorem flatten_records_block (s : Stream) :
    (s.records .block).flatten = (s.lines.filter (· ≠ [])).flatMap (· ++ ['\n']) := by
  rw [records_eq, RecordMode.recordsIn, ← flatten_cutAt, ← List.flatMap_def,
    List.flatten_eq_flatMap, List.flatMap_assoc]
  rfl

/-- **No line is lost, repeated or merged.** Whatever is asked for, the calls divide the lines of the
stream among themselves, in order. A mode has no record exactly when no line is left, and then nothing
comes after. Asking in one mode ends after all records, which hold all lines, in the mode `block` all
that are not empty. -/
theorem calls_divide_lines (s : Stream) (names : List Text) :
    Session names s.lines (s.calls names).1 (s.calls names).2.lines ∧
    (∀ mode, (((s.calls names).2.readRecord mode).more = false ↔ (s.calls names).2.lines = []) ∧
      (((s.calls names).2.readRecord mode).more = false →
        ((s.calls names).2.readRecord mode).record = [] ∧
        ∀ later, (((s.calls names).2.readRecord mode).rest.calls later).1 =
          later.map fun name => (RecordMode.ofName name).map fun _ => ([], false))) ∧
    (∀ mode, (s.calls (List.replicate ((s.records mode).length + 1) mode.name)).1 =
      (s.records mode).map (fun record => .ok (record, true)) ++ [.ok ([], false)]) ∧
    s.records .line = s.lines ∧
    (s.records .block).flatten = (s.lines.filter (· ≠ [])).flatMap (· ++ ['\n']) := by
  refine ⟨session_calls names s, fun mode => ?_, fun mode => calls_replicate mode s,
    records_eq .line s, flatten_records_block s⟩
  obtain ⟨consumed, hlines, hserves⟩ := serves_readRecord mode (s.calls names).2
  obtain ⟨hnone, hempty⟩ := hserves.more_eq_false_iff
  refine ⟨hlines ▸ hnone, fun hmore => ⟨hempty hmore, fun later => ?_⟩⟩
  exact calls_of_lines_eq_nil (List.append_eq_nil_iff.mp (hnone.mp hmore)).2 later

/-- **Bytes are answered like their text.** Bytes that are cut into lines first and decoded line by line
give the same answers to all calls as the text that they are decoded to as a whole. -/
theorem calls_bytes_eq (bytes : List UInt8) (names : List Text) :
    ((Stream.bytes bytes).calls names).1 = ((text (Utf8.decodeLossy bytes)).calls names).1 := by
  have hlines : (Stream.bytes bytes).lines = (text (Utf8.decodeLossy bytes)).lines := rfl
  exact calls_congr hlines names

end Stream

end Corpus
