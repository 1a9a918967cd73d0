import Corpus.Proofs.CommandLine.Malformed

/-!
# Converting a file in place

The output is opened, and with it emptied, before the input is read. When both are one file, nothing
is left to read.

* What can be read can be written where this is granted, so such a run meets no fault
  (`endpoint_inPlace`).
* The input that it converts is the empty text (`input_emptied_self`), which has no records. The run
  ends with code 0 and leaves an empty file (`run_in_place`).
-/

namespace Corpus

/-- Nothing is converted to nothing. -/
theorem Conversion.run_empty (c : Conversion) : c.run (.text []) = { text := [], result := .ok 0 } := by
  have hrecords : c.source.records (.text []) = [] := by
    rw [Codec.records, Stream.records_eq, Stream.lines_text, Text.lines_nil]
    cases c.source.format <;> rfl
  rw [run_eq_ok_iff, hrecords]
  exact .nil

/-- Only the empty text has no bytes. -/
theorem Utf8.encode_eq_nil_iff {text : Text} : encode text = [] ↔ text = [] := by
  constructor
  · intro h
    have hdecode := decodeLossy_encode text
    rw [h] at hdecode
    exact hdecode.symm
  · rintro rfl
    rfl

namespace CommandLine

/-- The arguments with the input as the output. -/
def Arguments.inPlace (arguments : Arguments) : Arguments :=
  { arguments with output := arguments.input }

variable {situation : Situation} {commandLine inPlaceLine : List RawText} {arguments : Arguments}
  {options : Options} {source target : Text} {conversion : Conversion} {files : FileTree} {P Q : Place}

/-- **A file that is opened for reading can be opened for writing** where this is granted. -/
theorem endpoint_inPlace (h : endpoint files.openToRead arguments.input = .ok (.file P))
    (hgranted : (files.access P).write = none) :
    endpoint files.openToWrite arguments.inPlace.output = .ok (.file P) := by
  change endpoint files.openToWrite arguments.input = _
  cases hargument : arguments.input with
  | none =>
    rw [hargument] at h
    cases h
  | some argument =>
    rw [hargument, endpoint] at h
    rw [endpoint]
    split at h
    · cases h
    · rename_i hfile
      rw [if_neg hfile]
      cases hopened : files.openToRead (Path.ofRaw argument) with
      | error e =>
        rw [hopened] at h
        cases h
      | ok place =>
        rw [hopened] at h
        obtain rfl := Endpoint.file.inj (Except.ok.inj h)
        rw [FileTree.openToWrite_of_openToRead hopened hgranted]
        exact h

/-- **Opening the output empties the input** when they are one file. -/
theorem input_emptied_self (hplace : P ≠ []) (hfile : situation.files.isDevice P = false) :
    situation.input ((Endpoint.file P).emptied situation.files) (.file P) = { text := [] } := by
  have hcontent : (situation.files.write P []).content P = [] := by
    rw [FileTree.content, FileTree.node?_write_self hplace hfile, FileTree.taken_nil]
    rfl
  rw [Situation.input, Endpoint.emptied, hcontent]
  rfl

/-- **A run from a file to itself leaves an empty file.** It ends with code 0 whatever the file has
held, and no other file has changed. So the file holds what a run to another file would have left
there only when this is nothing. -/
theorem run_in_place
    (hrequest : Request.ofCommandLine commandLine = .ok (.run .convert arguments))
    (hinPlace : Request.ofCommandLine inPlaceLine = .ok (.run .convert arguments.inPlace))
    (hload : (situation.load arguments).options = .ok options)
    (hsource : source ∈ arguments.source) (htarget : target ∈ arguments.target)
    (hconversion : arguments.conversion source target options = .ok conversion)
    (hinput : endpoint situation.files.openToRead arguments.input = .ok (.file P))
    (hgranted : (situation.files.access P).write = none)
    (hfile : situation.files.isDevice P = false)
    (houtput : endpoint situation.files.openToWrite arguments.output = .ok (.file Q)) (hne : P ≠ Q) :
    let outcome := situation.run inPlaceLine
    outcome.code = some 0 ∧ outcome.files.node? P = some (.file []) ∧
      (∀ place, place ≠ P → outcome.files.node? place = situation.files.node? place) ∧
      ∀ text, (conversion.run (.text (inputText situation.files P))).text = text →
        arguments.Takes situation.files conversion.target Q text →
        situation.files.isDevice Q = false →
        (outcome.files.node? P = (situation.run commandLine).files.node? Q ↔ text = []) := by
  intro outcome
  have hself := endpoint_inPlace hinput hgranted
  have hplace : P ≠ [] := ne_nil_of_endpoint hself
  have hrun : outcome = converted arguments.inPlace conversion target (situation.files.write P [])
      ((situation.load arguments).log ++ [optionsEntry options]) (.file P) { text := [] } := by
    have hopened := Situation.run_eq_converted hinPlace hload hsource htarget hconversion hinput hself
    rw [input_emptied_self hplace hfile] at hopened
    exact hopened
  have hempty : (arguments.inPlace.converting conversion target { text := [] }).1 =
      { text := [], result := .ok 0 } :=
    (fst_converting target (.inr (congrArg Output.text conversion.run_empty))).trans
      conversion.run_empty
  have hroom : (Endpoint.file P).overflow? (situation.files.write P []) [] = none :=
    FileTree.overflow?_nil
  -- The file is emptied when it is opened, and then nothing is written to it.
  have hfiles : outcome.files = (situation.files.write P []).write P [] := by
    rw [hrun, files_converted, hempty]
    rfl
  have hnode : outcome.files.node? P = some (.file []) := by
    rw [hfiles, FileTree.node?_write_self hplace ((FileTree.isDevice_write hplace []).trans hfile),
      FileTree.taken_nil]
  refine ⟨?_, hnode, fun place hother => ?_, fun text htext htakes hregular => ?_⟩
  · rw [hrun]
    exact (converted_ok hempty hroom).1
  · rw [hfiles, FileTree.node?_write_of_ne hother, FileTree.node?_write_of_ne hother]
  · obtain ⟨result, hconvert⟩ : ∃ result, conversion.run (.text (inputText situation.files P)) =
        { text, result } := ⟨(conversion.run _).result, by rw [← htext]⟩
    obtain ⟨-, -, hleaves⟩ :=
      run_taken hrequest hload hsource htarget hconversion hinput houtput hne hconvert htakes
    rw [hnode, hleaves hregular, Option.some.injEq, Node.file.injEq, eq_comm, Utf8.encode_eq_nil_iff]

/-- From the file to itself, without a task and without a format. -/
def selfLine : List RawText := ["-i", "in", "-o", "in"].map fun word => RawText.ofText word.toList

/-- A file with a record of one word. -/
def wordSituation : Situation :=
  { environment := { home := some "/h".toList }
    files :=
      { nodes :=
          [(["in".toList], .file (Utf8.encode (Conversion.oneWordRecord ++ ['\n'])))] } }

/-- The record as it is written, with all its columns. -/
def oneWordRow : Text := "1\ta\t_\t_\t_\t_\t0\t_\t_\t_\n\n".toList

/-- **A file that is lost.** To another file its record is written, in place nothing is. -/
theorem run_in_place_wordSituation :
    (wordSituation.run plainLine).code = some 0 ∧
      (wordSituation.run plainLine).files.node? ["out".toList] =
        some (.file (Utf8.encode oneWordRow)) ∧
      (wordSituation.run selfLine).code = some 0 ∧
      (wordSituation.run selfLine).files.node? ["in".toList] = some (.file []) ∧
      (wordSituation.run selfLine).files.node? ["in".toList] ≠
        (wordSituation.run plainLine).files.node? ["out".toList] := by
  have hrequest : Request.ofCommandLine plainLine = .ok (.run .convert plainArguments) := rfl
  have hinPlace : Request.ofCommandLine selfLine = .ok (.run .convert plainArguments.inPlace) := rfl
  have hload : (wordSituation.load plainArguments).options = .ok {} := rfl
  have hconversion : plainArguments.conversion Format.conll.name Format.conll.name {} =
      .ok plainConversion := rfl
  have hinput : endpoint wordSituation.files.openToRead plainArguments.input =
      .ok (.file ["in".toList]) := rfl
  have houtput : endpoint wordSituation.files.openToWrite plainArguments.output =
      .ok (.file ["out".toList]) := rfl
  have hne : (["in".toList] : Place) ≠ ["out".toList] := by decide
  have htext : inputText wordSituation.files ["in".toList] = Conversion.oneWordRecord ++ ['\n'] := rfl
  have hrecords : plainConversion.source.records (.text (Conversion.oneWordRecord ++ ['\n'])) =
      [Conversion.oneWordRecord] := by
    decide +kernel
  have hconverts : plainConversion.Converts [Conversion.oneWordRecord] oneWordRow 1 :=
    List.append_nil oneWordRow ▸ .written (s := Conversion.oneWord) rfl rfl .nil
  have hrun : plainConversion.run (.text (inputText wordSituation.files ["in".toList])) =
      { text := oneWordRow, result := .ok 1 } := by
    rw [htext]
    exact Conversion.run_eq_ok_iff.mpr (hrecords ▸ hconverts)
  have htakes : plainArguments.Takes wordSituation.files plainConversion.target ["out".toList]
      oneWordRow := ⟨.inl rfl, rfl⟩
  obtain ⟨hwritten, -, hleaves⟩ :=
    run_succeeds hrequest hload rfl rfl hconversion hinput houtput hne hrun htakes
  obtain ⟨hcode, hempty, -, hsame⟩ :=
    run_in_place hrequest hinPlace hload rfl rfl hconversion hinput rfl rfl houtput hne
  have hlost := hsame oneWordRow (congrArg Output.text hrun) htakes rfl
  exact ⟨hwritten, hleaves rfl, hcode, hempty, fun heq => absurd (hlost.mp heq) (by decide)⟩

end CommandLine

end Corpus
