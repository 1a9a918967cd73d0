import Corpus.Proofs.CommandLine.Files
import Corpus.Proofs.Conll.Acceptance

/-!
# Malformed input

A run between two files whose input keeps to the digit limit, and whose output takes what is written, ends
with code 0, or with code 1 and a message.

* Within the digit limit a record is read unless it is malformed, and then it is refused as such. The
  other formats read everything.
* What was read can be written. So a run ends at a malformed record or has converted all records.
* A number of more digits is refused in another way, which nobody catches: such a run has no exit code
  (`run_idSituation`).
-/

namespace Corpus

namespace Conll

variable {options : Options} {docid : Option Text} {record : Text}

/-- A record that is not malformed is read. Being a text, it has words with an encoding. -/
theorem exists_read_of_not_isMalformed
    (hlimit : ∀ entry ∈ rawTokenLines record, KeepsDigitLimit entry.1) (h : ¬ IsMalformed record) :
    ∃ found, read options docid record = .ok found := by
  cases hread : read options docid record with
  | ok found => exact ⟨found, rfl⟩
  | error e =>
    have hraw := read_eq_error_iff.mp hread
    rw [readRaw_of_not_isMalformed hlimit h] at hraw
    obtain ⟨texts, htexts⟩ := encodedWords_of_forall (List.forall_mem_map.mpr (forall_word_ofText record))
    cases hraw.symm.trans htexts

/-- A malformed record is refused as such. -/
theorem exists_read_of_isMalformed
    (hlimit : ∀ entry ∈ rawTokenLines record, KeepsDigitLimit entry.1) (h : IsMalformed record) :
    ∃ malformed, read options docid record = .error (.malformed malformed) := by
  obtain ⟨k, line, number, hfirst⟩ := h.exists_isFirstBad
  obtain ⟨check, -, hread⟩ := readRaw_of_isFirstBad hlimit hfirst
  exact ⟨_, read_eq_error_iff.mpr hread⟩

/-! ### Numbers beyond the digit limit -/

/-- A row with this id, one word and no head. -/
def rowOfId (id : Text) : Text := id ++ '\t' :: "a\t_\t_\t_\t_\t0\t_".toList

section LongId

variable {id : Text} (hdigits : Numeral.IsDigits id)

include hdigits

theorem not_mem_of_isDigits {c : Char} (hc : c.isDigit = false) : c ∉ id := fun hmem =>
  Bool.false_ne_true (hc.symm.trans (hdigits.2 c hmem))

theorem not_mem_rowOfId {c : Char} (hc : c.isDigit = false) (hrow : c ∉ rowOfId []) :
    c ∉ rowOfId id :=
  List.not_mem_append (not_mem_of_isDigits hdigits hc) hrow

theorem fields_rowOfId :
    fields (rowOfId id) = [id, ['a'], ['_'], ['_'], ['_'], ['_'], ['0'], ['_']] := by
  rw [fields, rowOfId,
    List.splitOn_append_cons_self_of_not_mem (not_mem_of_isDigits hdigits (by decide))]
  exact congrArg (id :: ·) (by decide)

theorem isTokenLine_rowOfId : IsTokenLine (rowOfId id) := by
  have hcolumn : column 0 (rowOfId id) = id := by
    rw [column, fields_rowOfId hdigits]
    rfl
  exact isTokenLine_of_isDigits (hcolumn.symm ▸ hdigits)

theorem numberedLines_rowOfId :
    numberedLines (rowOfId id ++ ['\n']) = [(rowOfId id, 1), ([], 2)] := by
  rw [numberedLines, List.splitOn_append_cons_self_of_not_mem
    (not_mem_rowOfId hdigits (by decide) (by decide))]
  rfl

/-- A row whose id has another value than 1 is malformed at the start of a record. -/
theorem isMalformed_rowOfId (hvalue : Numeral.value id ≠ 1) :
    IsMalformed (rowOfId id ++ ['\n'] : Text) := by
  refine ⟨0, (rowOfId id, 1), ?_, fun hgood => hvalue ?_⟩
  · rw [rawTokenLines_ofText, tokenLines, ← numberedLines, numberedLines_rowOfId hdigits,
      tokenLinesOf_cons (isTokenLine_rowOfId hdigits)]
    rfl
  · have hid := hgood.id
    rw [rawColumn_ofText, column, fields_rowOfId hdigits, RawText.satisfies_ofText] at hid
    exact hid.2

/-- A number field of too many digits is refused for its length. -/
theorem readNumber_of_isDigits (field : NumberField) (hlong : Numeral.digitLimit < id.length) :
    readNumber field id = .error (.numeral (.tooLongToRead id.length)) := by
  have hinteger : Numeral.isInteger id = true := by
    rw [Numeral.isInteger, hdigits.digits_eq]
    exact Numeral.isNatural_iff.mpr hdigits
  rw [readNumber, if_neg hdigits.1, if_pos hinteger, Numeral.read, hdigits.digits_eq,
    if_neg (Nat.not_le.mpr hlong)]

/-- A row with an id of too many digits is refused for the length of the id. -/
theorem read_rowOfId {options : Options} {docid : Option Text}
    (hlong : Numeral.digitLimit < id.length) :
    read options docid (rowOfId id ++ ['\n']) = .error (.numeral (.tooLongToRead id.length)) := by
  have hrow : Row.ofFields 1 (fields (rowOfId id)) =
      .error (.numeral (.tooLongToRead id.length)) := by
    rw [fields_rowOfId hdigits, Row.ofFields, readNumber_of_isDigits hdigits _ hlong]
  rw [read, numberedLines_rowOfId hdigits, readRows_cons (isTokenLine_rowOfId hdigits), hrow]
  rfl

/-- The row is one line of a block. -/
theorem isRecordLine_rowOfId : IsRecordLine (rowOfId id) where
  nonempty := (isTokenLine_rowOfId hdigits).nonempty
  lineFeed_not_mem := not_mem_rowOfId hdigits (by decide) (by decide)
  no_return_at_end hlast :=
    not_mem_rowOfId hdigits (by decide) (by decide) (List.mem_of_getLast? hlast)

end LongId

end Conll

/-! ### Formats -/

section Codec

variable {codec : Codec} {record : Text}

/-- **A record that a format refuses.** -/
def Codec.Refuses (codec : Codec) (record : Text) : Prop :=
  codec.format = .conll ∧ Conll.IsMalformed record

/-- The numbers of a record keep to the digit limit, as far as the format reads numbers. -/
def Codec.KeepsDigitLimit (codec : Codec) (record : Text) : Prop :=
  codec.format = .conll → ∀ entry ∈ Conll.rawTokenLines record, Conll.KeepsDigitLimit entry.1

/-- Within the digit limit a record is read unless the format refuses it. -/
theorem Codec.exists_read (docid : Option Text) (hformat : codec.format ≠ .lines)
    (hlimit : codec.KeepsDigitLimit record) (h : ¬ codec.Refuses record) :
    ∃ found, codec.read docid record = .ok found := by
  obtain ⟨format, options⟩ := codec
  cases format with
  | conll =>
    exact Conll.exists_read_of_not_isMalformed (hlimit rfl) fun hmalformed => h ⟨rfl, hmalformed⟩
  | tokenized => exact ⟨_, rfl⟩
  | characters => exact ⟨_, rfl⟩
  | english => exact ⟨_, rfl⟩
  | lines => exact absurd rfl hformat

/-- A record that a format refuses is malformed for its reader. -/
theorem Codec.exists_read_of_refuses (docid : Option Text) (hlimit : codec.KeepsDigitLimit record)
    (h : codec.Refuses record) :
    ∃ malformed, codec.read docid record = .error (.malformed malformed) := by
  obtain ⟨format, options⟩ := codec
  obtain ⟨rfl, hmalformed⟩ := h
  exact Conll.exists_read_of_isMalformed (hlimit rfl) hmalformed

end Codec

/-! ### Conversions -/

namespace Conversion

variable {c : Conversion} {stream : Stream}

/-- A refused record ends a run with its error, on workers and in turn. -/
theorem exists_run_of_refused {before after : List Text} {record text : Text} {n : Nat} {e : Error}
    (hrecords : c.source.records stream = before ++ record :: after)
    (hconverts : c.Converts before text n) (hread : c.source.read c.docid record = .error e) :
    ∃ left, c.run stream = { text := left, result := .error e } := by
  rw [run]
  split
  · rw [hrecords]
    refine ⟨[], parallel_of_refused hconverts hread fun i hi => List.mem_range.mpr ?_⟩
    rw [List.length_append, List.length_cons]
    omega
  · rw [hrecords]
    exact ⟨text, sequential_of_fails hconverts (.inl hread)⟩

/-- **The two ends of a run.** Within the digit limit a conversion succeeds when the source format
refuses no record, and ends at a malformed record otherwise. -/
theorem run_cases (hformat : c.source.format ≠ .lines)
    (hlimit : ∀ record ∈ c.source.records stream, c.source.KeepsDigitLimit record)
    (hsize : c.HasShownSizes (c.source.records stream)) :
    ((∀ record ∈ c.source.records stream, ¬ c.source.Refuses record) ∧
        ∃ text n, c.run stream = { text, result := .ok n }) ∨
      ((∃ record ∈ c.source.records stream, c.source.Refuses record) ∧
        ∃ text malformed, c.run stream = { text, result := .error (.malformed malformed) }) := by
  rcases converts_or_fails c (c.source.records stream) with
    ⟨text, n, hconverts⟩ | ⟨before, record, after, text, n, e, hrecords, hconverts, hfails⟩
  · refine .inl ⟨fun record hrecord hrefuses => ?_, text, n, run_eq_ok_iff.mpr hconverts⟩
    obtain ⟨found, hread⟩ := hconverts.forall_read record hrecord
    obtain ⟨malformed, hrefused⟩ :=
      Codec.exists_read_of_refuses c.docid (hlimit record hrecord) hrefuses
    cases hread.symm.trans hrefused
  · have hrecord : record ∈ c.source.records stream := by
      rw [hrecords]
      exact List.mem_append_right _ List.mem_cons_self
    have hrefused := hfails.read hrecord hsize
    have hrefuses : c.source.Refuses record := by
      by_contra hnot
      obtain ⟨found, hread⟩ :=
        Codec.exists_read c.docid hformat (hlimit record hrecord) hnot
      cases hread.symm.trans hrefused
    obtain ⟨malformed, hmalformed⟩ :=
      Codec.exists_read_of_refuses c.docid (hlimit record hrecord) hrefuses
    obtain rfl := Except.error.inj (hrefused.symm.trans hmalformed)
    obtain ⟨left, hrun⟩ := exists_run_of_refused hrecords hconverts hrefused
    exact .inr ⟨⟨record, hrecord, hrefuses⟩, left, malformed, hrun⟩

end Conversion

/-! ### Runs -/

namespace CommandLine

variable {situation : Situation} {commandLine : List RawText} {arguments : Arguments}
  {options : Options} {source target : Text} {conversion : Conversion} {P Q : Place}

/-- **No malformed input breaks a run off.** A run between two files whose input keeps to the digit
limit, and whose output takes what is written, has an exit code. It is 1 when the source format refuses
some record, and then the run tells an error; it is 0 otherwise. -/
theorem run_ends
    (hrequest : Request.ofCommandLine commandLine = .ok (.run .convert arguments))
    (hload : (situation.load arguments).options = .ok options)
    (hsource : source ∈ arguments.source) (htarget : target ∈ arguments.target)
    (hconversion : arguments.conversion source target options = .ok conversion)
    (hinput : endpoint situation.files.openToRead arguments.input = .ok (.file P))
    (houtput : endpoint situation.files.openToWrite arguments.output = .ok (.file Q)) (hne : P ≠ Q)
    (htakes : arguments.Takes situation.files conversion.target Q
      (conversion.run (.text (inputText situation.files P))).text)
    (hlimit : ∀ record ∈ conversion.source.records (.text (inputText situation.files P)),
      conversion.source.KeepsDigitLimit record)
    (hsize : conversion.HasShownSizes
      (conversion.source.records (.text (inputText situation.files P)))) :
    let outcome := situation.run commandLine
    let records := conversion.source.records (.text (inputText situation.files P))
    (outcome.code = some 0 ∨ outcome.code = some 1) ∧ outcome.escaped = none ∧
      (outcome.code = some 1 ↔ ∃ record ∈ records, conversion.source.Refuses record) ∧
      (outcome.code = some 1 → ∃ message, EndsInError message outcome.diagnostics) := by
  intro outcome records
  rcases Conversion.run_cases (source_ne_lines hconversion) hlimit hsize with
    ⟨hnone, text, n, hconvert⟩ | ⟨hsome, text, malformed, hconvert⟩
  · obtain ⟨hcode, hescaped, -⟩ := run_succeeds hrequest hload hsource htarget hconversion hinput
      houtput hne hconvert (by rwa [hconvert] at htakes)
    rw [hcode, hescaped]
    refine ⟨.inl rfl, rfl, iff_of_false nofun ?_, nofun⟩
    rintro ⟨record, hrecord, hrefuses⟩
    exact hnone record hrecord hrefuses
  · obtain ⟨hcode, hescaped, hmessage, -⟩ := run_refuses hrequest hload hsource htarget hconversion
      hinput houtput hne hconvert (by rwa [hconvert] at htakes)
    rw [hcode, hescaped]
    exact ⟨.inr rfl, rfl, iff_of_true rfl hsome, fun _ => ⟨malformed.message, hmessage⟩⟩

/-- From the one file to the other, without a task and without a format. -/
def plainLine : List RawText :=
  ["-i", "in", "-o", "out"].map fun word => RawText.ofText word.toList

/-- What the command line asks for. -/
def plainArguments : Arguments := { input := some "in".toList, output := some "out".toList }

/-- The conversion between the files. -/
def plainConversion : Conversion :=
  { source := { format := .conll }, target := .format { format := .conll } }

/-- The file with a record that is refused ends in a message. -/
theorem run_ends_plainLine :
    Request.ofCommandLine plainLine = .ok (.run .convert plainArguments) ∧
      (brokenSituation.load plainArguments).options = .ok {} ∧
      (brokenSituation.run plainLine).code = some 1 ∧
      (brokenSituation.run plainLine).escaped = none ∧
      ∃ message, EndsInError message (brokenSituation.run plainLine).diagnostics := by
  have hrequest : Request.ofCommandLine plainLine = .ok (.run .convert plainArguments) := rfl
  have hload : (brokenSituation.load plainArguments).options = .ok {} := rfl
  have hconversion : plainArguments.conversion Format.conll.name Format.conll.name {} =
      .ok plainConversion := rfl
  have hinput : endpoint brokenSituation.files.openToRead plainArguments.input =
      .ok (.file ["in".toList]) := rfl
  have houtput : endpoint brokenSituation.files.openToWrite plainArguments.output =
      .ok (.file ["out".toList]) := rfl
  have hne : (["in".toList] : Place) ≠ ["out".toList] := by decide
  have htext : inputText brokenSituation.files ["in".toList] = brokenText := rfl
  have hrecords : plainConversion.source.records
      (.text (inputText brokenSituation.files ["in".toList])) =
      [Conversion.oneWordRecord, [], Conversion.badHeadRecord, "#c\n".toList] := by
    rw [htext]
    decide +kernel
  have hlimit : ∀ record ∈ [Conversion.oneWordRecord, [], Conversion.badHeadRecord, "#c\n".toList],
      plainConversion.source.KeepsDigitLimit record := by
    have hall : ∀ record ∈ [Conversion.oneWordRecord, [], Conversion.badHeadRecord, "#c\n".toList],
        ∀ entry ∈ Conll.rawTokenLines record, Conll.KeepsDigitLimit entry.1 := by decide
    exact fun record hrecord _ => hall record hrecord
  have hmalformed : Conll.IsMalformed Conversion.badHeadRecord :=
    ⟨0, (Conversion.badHeadRecord.dropLast, 1), rfl, by decide⟩
  rw [← hrecords] at hlimit
  obtain ⟨-, hescaped, hcode, hmessage⟩ := run_ends hrequest hload rfl rfl hconversion hinput houtput
    hne ⟨.inl rfl, rfl⟩ hlimit nofun
  rw [hrecords] at hcode
  have hcode := hcode.mpr ⟨Conversion.badHeadRecord, by simp, rfl, hmalformed⟩
  exact ⟨hrequest, hload, hcode, hescaped, hmessage hcode⟩

/-- A file with a row of this id. -/
def idSituation (id : Text) : Situation :=
  { environment := { home := some "/h".toList }
    files :=
      { nodes := [(["in".toList], .file (Utf8.encode (blockOf [Conll.rowOfId id])))] } }

/-- **A long id breaks a run off.** -/
theorem run_idSituation {id : Text} (hdigits : Numeral.IsDigits id)
    (hlong : Numeral.digitLimit < id.length) :
    ((idSituation id).run plainLine).code = none ∧
      ((idSituation id).run plainLine).escaped = some (.numeral (.tooLongToRead id.length)) := by
  have hrecordLine := Conll.isRecordLine_rowOfId hdigits
  have hreturn : '\r' ∉ blockOf [Conll.rowOfId id] := by
    have hrow : '\r' ∉ Conll.rowOfId id :=
      Conll.not_mem_rowOfId hdigits (by decide) (by decide)
    simp [blockOf, hrow]
  have htext : inputText (idSituation id).files ["in".toList] = blockOf [Conll.rowOfId id] :=
    inputText_eq rfl hreturn
  have hrecords : plainConversion.source.records
      (.text (inputText (idSituation id).files ["in".toList])) = [Conll.rowOfId id ++ ['\n']] := by
    rw [htext]
    refine (Stream.records_blockOf
      (List.forall_mem_singleton.mpr hrecordLine.isBlockLine)).trans ?_
    rw [List.map_singleton, dropReturn_eq_self_iff.mpr hrecordLine.no_return_at_end,
      List.flatMap_singleton]
  have hread : plainConversion.source.read plainConversion.docid (Conll.rowOfId id ++ ['\n']) =
      .error (.numeral (.tooLongToRead id.length)) := Conll.read_rowOfId hdigits hlong
  obtain ⟨left, hrun⟩ := Conversion.exists_run_of_refused (hrecords.trans (List.nil_append _).symm)
    .nil hread
  have hrequest : Request.ofCommandLine plainLine = .ok (.run .convert plainArguments) := rfl
  have hload : ((idSituation id).load plainArguments).options = .ok {} := rfl
  have hconversion : plainArguments.conversion Format.conll.name Format.conll.name {} =
      .ok plainConversion := rfl
  have hinput : endpoint (idSituation id).files.openToRead plainArguments.input =
      .ok (.file ["in".toList]) := rfl
  have houtput : endpoint (idSituation id).files.openToWrite plainArguments.output =
      .ok (.file ["out".toList]) := rfl
  obtain ⟨hcode, hescaped, -⟩ := run_breaks_off hrequest hload rfl rfl hconversion hinput houtput
    (by decide) hrun ⟨.inl rfl, rfl⟩ nofun
  exact ⟨hcode, hescaped⟩

/-- A number of one digit more than may be read. -/
def longId : Text := '2' :: List.replicate Numeral.digitLimit '0'

/-- A row with this id is malformed at the start of a record, but its run has no code. -/
theorem run_longId :
    Conll.IsMalformed (Conll.rowOfId longId ++ ['\n'] : Text) ∧
      ((idSituation longId).run plainLine).code = none ∧
      ((idSituation longId).run plainLine).escaped = some (.numeral (.tooLongToRead 4301)) := by
  have hdigits : Numeral.IsDigits longId := by
    refine ⟨List.cons_ne_nil _ _, List.forall_mem_cons.mpr ⟨rfl, fun c hc => ?_⟩⟩
    rw [List.eq_of_mem_replicate hc]
    rfl
  have hlength : longId.length = 4301 := by
    rw [longId, List.length_cons, List.length_replicate]
    rfl
  have hvalue : Numeral.value longId ≠ 1 := by
    have hlarge := Numeral.le_ofDigitChars (List.replicate Numeral.digitLimit '0')
      (10 * 0 + ('2'.toNat - '0'.toNat))
    have hstart : 10 * 0 + ('2'.toNat - '0'.toNat) = 2 := rfl
    rw [Numeral.value_eq_ofDigitChars (Numeral.head?_ne_hyphen (Numeral.isNatural_iff.mpr hdigits)),
      longId, Nat.ofDigitChars_cons]
    omega
  have hrun := run_idSituation hdigits (by rw [hlength]; decide)
  rw [hlength] at hrun
  exact ⟨Conll.isMalformed_rowOfId hdigits hvalue, hrun⟩

end CommandLine

end Corpus
