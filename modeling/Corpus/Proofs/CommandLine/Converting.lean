import Corpus.CommandLine.Run
import Corpus.Proofs.Conversion.Agreement
import Corpus.Proofs.Dictionary.History
import Corpus.Proofs.Files.Tree

/-!
# What a command line that converts comes to

* Once the formats are known, the options loaded and both endpoints opened, a run is the conversion of
  the input (`run_eq_converted`).
* A conversion into a file leaves its text in this file and nothing anywhere else. Its result decides
  the exit code, and an error that is told stands in a line of its own behind the log. An output that is
  not taken in full leaves no code, whatever the result was.
* The text is that of the conversion, unless no line of it has an encoding (`fst_converting`).
* Nothing but a numeral beyond the digit limit keeps a sentence from being written. So the error of a
  malformed row comes from reading.
-/

namespace Corpus

variable {e : Error}

/-! ### Errors of a conversion -/

/-- Every registered format has a reader. -/
theorem Registry.format_ne_lines_of_find? {name : Text} {entry : FormatEntry}
    (h : standard.find? name = some entry) : entry.format ≠ .lines := by
  have hall : ∀ entry ∈ Dictionary.values standard, entry.format ≠ .lines := by decide +kernel
  rw [find?] at h
  split at h
  · cases h
  · exact hall entry (List.mem_map_of_mem (Dictionary.mem_of_get? h))

namespace Conversion

variable {c : Conversion} {stream : Stream} {text : Text}
  {malformed : Conll.FormatError}

end Conversion

namespace CommandLine

/-! ### Diagnostics -/

/-- **A text that ends in the line of an error.** -/
def EndsInError (message : RawText) (text : Text) : Prop :=
  ∃ before, (before = [] ∨ ['\n'] <:+ before) ∧ text = before ++ errorLine message

/-- What is logged is whole lines. -/
theorem logLines_ends (level : Log.Level) (entries : List Log.Entry) :
    logLines level entries = [] ∨ ['\n'] <:+ logLines level entries := by
  rw [logLines]
  rcases List.eq_nil_or_concat (Log.atLeast level entries) with hnil | ⟨before, entry, hlast⟩
  · rw [hnil]
    exact .inl rfl
  · rw [hlast, List.concat_eq_append, List.flatMap_append, List.flatMap_singleton]
    exact .inr ((List.suffix_append _ _).trans (List.suffix_append _ _))

theorem endsInError_logLines (level : Log.Level) (entries : List Log.Entry) (message : RawText) :
    EndsInError message (logLines level entries ++ errorLine message) :=
  ⟨_, logLines_ends level entries, rfl⟩

/-! ### The outcome of a conversion -/

section Converted

variable {arguments : Arguments} {c : Conversion} {targetName text : Text} {files : FileTree}
  {before : List Log.Entry} {place : Place} {endpoint : Endpoint} {input : Input} {output : Output}

/-- **The lines of a text are taken**: they have an encoding, or there are none. -/
def Arguments.TakesLines (arguments : Arguments) (target : Target) (text : Text) : Prop :=
  arguments.lineRefusal? target = none ∨ text = []

/-- **What a conversion comes to** when its lines are taken. -/
theorem fst_converting (targetName : Text) (h : arguments.TakesLines c.target (c.run (.text text)).text) :
    (arguments.converting c targetName { text }).1 = c.run (.text text) := by
  rw [Arguments.converting]
  cases hrefusal : arguments.lineRefusal? c.target with
  | none => rfl
  | some refusal =>
    rcases h with hnone | hnil
    · cases hrefusal.symm.trans hnone
    · exact congrArg Prod.fst (if_pos hnil)

/-- A conversion into a file writes this file. -/
theorem files_converted :
    (converted arguments c targetName files before (.file place) input).files =
      files.write place (Utf8.encode (arguments.converting c targetName input).1.text) := by
  have hclosed (outcome : Outcome) (refusal : Option Refusal) :
      (outcome.closed refusal).files = outcome.files := by cases refusal <;> rfl
  have hended (outcome : Outcome) (result : Except Error Nat) :
      (outcome.ended result).files = outcome.files := by
    cases result with
    | ok n => rfl
    | error e => cases e <;> rfl
  exact (hclosed _ _).trans (hended _ _)

/-- What is taken is closed as it ended. -/
theorem converted_eq_ended (houtput : (arguments.converting c targetName input).1 = output)
    (hroom : endpoint.overflow? files output.text = none) :
    converted arguments c targetName files before endpoint input =
      (written (logLines arguments.level (before ++ (arguments.converting c targetName input).2)) files
        output endpoint).ended output.result := by
  subst houtput
  rw [converted]
  simp only [hroom]
  rfl

/-- A conversion that succeeds ends with code 0. -/
theorem converted_ok {n : Nat}
    (houtput : (arguments.converting c targetName input).1 = { text, result := .ok n })
    (hroom : endpoint.overflow? files text = none) :
    (converted arguments c targetName files before endpoint input).code = some 0 ∧
      (converted arguments c targetName files before endpoint input).escaped = none := by
  rw [converted_eq_ended houtput hroom]
  cases endpoint <;> exact ⟨rfl, rfl⟩

/-- A malformed record ends a run with code 1 and is told. -/
theorem converted_malformed {e : Conll.FormatError}
    (houtput : (arguments.converting c targetName input).1 = { text, result := .error (.malformed e) })
    (hroom : endpoint.overflow? files text = none) :
    (converted arguments c targetName files before endpoint input).code = some 1 ∧
      (converted arguments c targetName files before endpoint input).escaped = none ∧
      EndsInError e.message
        (converted arguments c targetName files before endpoint input).diagnostics := by
  rw [converted_eq_ended houtput hroom]
  cases endpoint <;> exact ⟨rfl, rfl, endsInError_logLines _ _ _⟩

/-- **Any other error** ends a run without a code. -/
theorem converted_escaped (he : ∀ malformed, e ≠ .malformed malformed)
    (houtput : (arguments.converting c targetName input).1 = { text, result := .error e })
    (hroom : endpoint.overflow? files text = none) :
    (converted arguments c targetName files before endpoint input).code = none ∧
      (converted arguments c targetName files before endpoint input).escaped = some e := by
  rw [converted_eq_ended houtput hroom]
  cases e with
  | malformed malformed => exact absurd rfl (he malformed)
  | _ => cases endpoint <;> exact ⟨rfl, rfl⟩

end Converted

/-! ### Running -/

variable {situation : Situation} {commandLine : List RawText} {arguments : Arguments}
  {options : Options} {source target : Text} {conversion : Conversion} {input output : Endpoint}

/-- **The conversion of the arguments**: a codec for the source, a target, and a number of workers. -/
theorem exists_of_conversion (h : arguments.conversion source target options = .ok conversion) :
    ∃ codec found workers, Registry.standard.codec source options = .ok codec ∧
      Target.ofName target options = .ok found ∧ arguments.workers = some workers ∧
      conversion =
        { source := codec, target := found, docid := arguments.docid.map RawText.shown, workers } := by
  rw [Arguments.conversion] at h
  split at h
  · cases h
  · rename_i workers hworkers
    rw [Conversion.ofNames] at h
    cases hsource : Registry.standard.codec source options with
    | error e =>
      rw [hsource] at h
      cases h
    | ok codec =>
      cases htarget : Target.ofName target options with
      | error e =>
        rw [hsource, htarget] at h
        cases h
      | ok found =>
        rw [hsource, htarget] at h
        exact ⟨codec, found, workers, rfl, rfl, hworkers, (Except.ok.inj h).symm⟩

/-- A codec is that of a registered format. -/
theorem exists_find?_of_codec {name : Text} {codec : Codec}
    (h : Registry.standard.codec name options = .ok codec) :
    ∃ entry, Registry.standard.find? name = some entry ∧
      codec = { format := entry.format, options } := by
  rw [Registry.codec] at h
  split at h
  · rename_i entry hentry
    exact ⟨entry, hentry, (Except.ok.inj h).symm⟩
  · cases h

/-- A conversion is made between formats that there are. -/
theorem isSome_find?_of_conversion
    (h : arguments.conversion source target options = .ok conversion) :
    (Registry.standard.find? source).isSome ∧
      (target.lower = jsonName ∨ (Registry.standard.find? target).isSome) := by
  obtain ⟨codec, found, workers, hcodec, hfound, -, -⟩ := exists_of_conversion h
  obtain ⟨entry, hentry, -⟩ := exists_find?_of_codec hcodec
  refine ⟨Option.isSome_of_mem hentry, ?_⟩
  rw [Target.ofName] at hfound
  split at hfound
  · rename_i hjson
    exact .inl hjson
  · cases htarget : Registry.standard.codec target options with
    | error e =>
      rw [htarget] at hfound
      cases hfound
    | ok targetCodec =>
      obtain ⟨targetEntry, htargetEntry, -⟩ := exists_find?_of_codec htarget
      exact .inr (Option.isSome_of_mem htargetEntry)

/-- A conversion is from a format with a reader. -/
theorem source_ne_lines (h : arguments.conversion source target options = .ok conversion) :
    conversion.source.format ≠ .lines := by
  obtain ⟨codec, found, workers, hcodec, -, -, rfl⟩ := exists_of_conversion h
  obtain ⟨entry, hentry, rfl⟩ := exists_find?_of_codec hcodec
  exact Registry.format_ne_lines_of_find? hentry

/-- **The run of a conversion** with both endpoints opened. -/
theorem Situation.run_eq_converted
    (hrequest : Request.ofCommandLine commandLine = .ok (.run .convert arguments))
    (hload : (situation.load arguments).options = .ok options)
    (hsource : source ∈ arguments.source) (htarget : target ∈ arguments.target)
    (hconversion : arguments.conversion source target options = .ok conversion)
    (hinput : endpoint situation.files.openToRead arguments.input = .ok input)
    (houtput : endpoint situation.files.openToWrite arguments.output = .ok output) :
    situation.run commandLine =
      converted arguments conversion target (output.emptied situation.files)
        ((situation.load arguments).log ++ [optionsEntry options]) output
        (situation.input (output.emptied situation.files) input) := by
  obtain ⟨hfound, hwritable⟩ := isSome_find?_of_conversion hconversion
  have hknown : arguments.source.filter (fun name => (Registry.standard.find? name).isSome) =
      some source := by
    rw [Option.mem_def.mp hsource, Option.filter_some, if_pos hfound]
  have hthere : ¬ (target.lower ≠ jsonName ∧ (Registry.standard.find? target).isNone) := by
    rintro ⟨hjson, hnone⟩
    rcases hwritable with hsame | hsome
    · exact hjson hsame
    · rw [Option.isNone_iff_eq_none.mp hnone] at hsome
      cases hsome
  rw [run, hrequest]
  simp only [answer, convert, hknown, Option.mem_def.mp htarget, if_neg hthere, convertBetween, hload,
    hinput, houtput, hconversion]

end CommandLine

end Corpus
