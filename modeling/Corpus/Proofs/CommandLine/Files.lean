import Corpus.Proofs.CommandLine.Converting
import Corpus.Proofs.Text.Encoding

/-!
# What a run does to the files

A run that converts touches its output file only, and this only once both endpoints have been opened.

* A format that is not there and a fault of the file system end a run before that
  (`convert_of_unknown`, `convert_of_fault`).
* After that the output has been emptied, and it is written once more with what the conversion has come
  to. The input is read in between: it is another file and has not changed.
* What is written has to be taken: its lines need an encoding, and the output needs room for them. An
  output that does not take it ends a run without a code, and a device keeps nothing.
* There is one lemma for each way in which a run between two files ends, from `run_succeeds` to
  `run_unwritten`.
-/

namespace Corpus.CommandLine

variable {situation : Situation} {commandLine : List RawText} {arguments : Arguments}
  {options : Options} {source target : Text} {conversion : Conversion} {P Q place : Place}

/-- **The text of an input file.** -/
def inputText (files : FileTree) (place : Place) : Text :=
  unifyNewlines (Utf8.decodeLossy (files.content place))

/-- A text without carriage returns has its line feeds already. -/
theorem unifyNewlines_eq_self {text : Text} (h : '\r' ∉ text) : unifyNewlines text = text := by
  fun_induction unifyNewlines text with
  | case1 => rfl
  | case2 rest ih => exact absurd List.mem_cons_self h
  | case3 rest hnot ih => exact absurd List.mem_cons_self h
  | case4 c rest hnot hnot' ih => rw [ih fun hmem => h (List.mem_cons_of_mem _ hmem)]

/-- A text without carriage returns is read from its file as it is. -/
theorem inputText_eq {text : Text} {files : FileTree}
    (hcontent : files.content place = Utf8.encode text) (hreturn : '\r' ∉ text) :
    inputText files place = text := by
  rw [inputText, hcontent, Utf8.decodeLossy_encode, unifyNewlines_eq_self hreturn]

/-! ### Before anything is opened -/

/-- An output file is not at the root. -/
theorem ne_nil_of_endpoint {argument : Option RawText} {files : FileTree}
    (h : endpoint files.openToWrite argument = .ok (.file Q)) : Q ≠ [] := by
  cases argument with
  | none => cases h
  | some argument =>
    rw [endpoint] at h
    split at h
    · cases h
    · cases hopened : files.openToWrite (Path.ofRaw argument) with
      | error e =>
        rw [hopened] at h
        cases h
      | ok place =>
        rw [hopened] at h
        obtain rfl := Endpoint.file.inj (Except.ok.inj h)
        exact FileTree.ne_nil_of_openToWrite hopened

/-- Emptying the output leaves the input. -/
theorem input_emptied (hne : P ≠ Q) :
    situation.input ((Endpoint.file Q).emptied situation.files) (.file P) =
      { text := inputText situation.files P } := by
  rw [Situation.input, Endpoint.emptied, FileTree.content_write_of_ne hne]
  rfl

/-- **A text is taken** by an output file: its lines have an encoding, and there is room for it. -/
structure Arguments.Takes (arguments : Arguments) (files : FileTree) (target : Target) (Q : Place)
    (text : Text) : Prop where
  lines : arguments.TakesLines target text
  room : files.overflow? Q (Utf8.encode text) = none

/-- **What a run leaves in an output file.** A device keeps nothing of what has been written to it. -/
def Leaves (before after : FileTree) (Q : Place) (bytes : List UInt8) : Prop :=
  before.isDevice Q = false → after.node? Q = some (.file bytes)

section BetweenFiles

variable (hrequest : Request.ofCommandLine commandLine = .ok (.run .convert arguments))
  (hload : (situation.load arguments).options = .ok options)
  (hsource : source ∈ arguments.source) (htarget : target ∈ arguments.target)
  (hconversion : arguments.conversion source target options = .ok conversion)
  (hinput : endpoint situation.files.openToRead arguments.input = .ok (.file P))
  (houtput : endpoint situation.files.openToWrite arguments.output = .ok (.file Q)) (hne : P ≠ Q)

include hrequest hload hsource htarget hconversion hinput houtput hne

/-- **The run of a conversion between two files.** -/
theorem run_between_files :
    situation.run commandLine =
      converted arguments conversion target (situation.files.write Q [])
        ((situation.load arguments).log ++ [optionsEntry options]) (.file Q)
        { text := inputText situation.files P } := by
  rw [Situation.run_eq_converted hrequest hload hsource htarget hconversion hinput houtput,
    input_emptied hne]
  rfl

/-- The files afterwards, of which the output has been emptied and written. -/
theorem files_run {output : Output}
    (hcomes : (arguments.converting conversion target { text := inputText situation.files P }).1 =
      output) :
    (situation.run commandLine).files =
      (situation.files.write Q []).write Q (Utf8.encode output.text) := by
  rw [run_between_files hrequest hload hsource htarget hconversion hinput houtput hne,
    files_converted, hcomes]

/-- **The output file** holds what there is room for. -/
theorem leaves_output {output : Output}
    (hcomes : (arguments.converting conversion target { text := inputText situation.files P }).1 =
      output) :
    Leaves situation.files (situation.run commandLine).files Q
      (situation.files.taken Q (Utf8.encode output.text)) := by
  have hplace : Q ≠ [] := ne_nil_of_endpoint houtput
  rw [files_run hrequest hload hsource htarget hconversion hinput houtput hne hcomes]
  intro hdevice
  rw [← FileTree.isDevice_write hplace []] at hdevice
  rw [FileTree.node?_write_self hplace hdevice, FileTree.taken_write]

/-- **A text that is taken** is what the conversion comes to, and what the output file holds. -/
theorem run_taken {text : Text} {result : Except Error Nat}
    (hconvert : conversion.run (.text (inputText situation.files P)) = { text, result })
    (htakes : arguments.Takes situation.files conversion.target Q text) :
    (arguments.converting conversion target { text := inputText situation.files P }).1 =
        { text, result } ∧
      (Endpoint.file Q).overflow? (situation.files.write Q []) text = none ∧
      Leaves situation.files (situation.run commandLine).files Q (Utf8.encode text) := by
  have hcomes : (arguments.converting conversion target
      { text := inputText situation.files P }).1 = { text, result } :=
    (fst_converting target (hconvert.symm ▸ htakes.lines)).trans hconvert
  refine ⟨hcomes, FileTree.overflow?_write.trans htakes.room, ?_⟩
  have hleaves :=
    leaves_output hrequest hload hsource htarget hconversion hinput houtput hne hcomes
  rwa [FileTree.taken_eq_self htakes.room] at hleaves

/-- **A conversion that succeeds**, into a file that takes its text. -/
theorem run_succeeds {text : Text} {n : Nat}
    (hconvert : conversion.run (.text (inputText situation.files P)) = { text, result := .ok n })
    (htakes : arguments.Takes situation.files conversion.target Q text) :
    (situation.run commandLine).code = some 0 ∧ (situation.run commandLine).escaped = none ∧
      Leaves situation.files (situation.run commandLine).files Q (Utf8.encode text) := by
  obtain ⟨hcomes, hroom, hleaves⟩ :=
    run_taken hrequest hload hsource htarget hconversion hinput houtput hne hconvert htakes
  refine and_assoc.mp ⟨?_, hleaves⟩
  rw [run_between_files hrequest hload hsource htarget hconversion hinput houtput hne]
  exact converted_ok hcomes hroom

/-- **A conversion that ends at a malformed row**, into a file that takes its text. -/
theorem run_refuses {text : Text} {e : Conll.FormatError}
    (hconvert : conversion.run (.text (inputText situation.files P)) =
      { text, result := .error (.malformed e) })
    (htakes : arguments.Takes situation.files conversion.target Q text) :
    (situation.run commandLine).code = some 1 ∧ (situation.run commandLine).escaped = none ∧
      EndsInError e.message (situation.run commandLine).diagnostics ∧
      Leaves situation.files (situation.run commandLine).files Q (Utf8.encode text) := by
  obtain ⟨hcomes, hroom, hleaves⟩ :=
    run_taken hrequest hload hsource htarget hconversion hinput houtput hne hconvert htakes
  have hconverted := run_between_files hrequest hload hsource htarget hconversion hinput houtput hne
  obtain ⟨hcode, hescaped, hmessage⟩ := converted_malformed hcomes hroom
  exact ⟨(congrArg Outcome.code hconverted).trans hcode,
    (congrArg Outcome.escaped hconverted).trans hescaped,
    (congrArg Outcome.diagnostics hconverted).symm ▸ hmessage, hleaves⟩

/-- **A conversion that ends in another error**, into a file that takes its text. -/
theorem run_breaks_off {text : Text} {e : Error}
    (hconvert : conversion.run (.text (inputText situation.files P)) = { text, result := .error e })
    (htakes : arguments.Takes situation.files conversion.target Q text)
    (he : ∀ malformed, e ≠ .malformed malformed) :
    (situation.run commandLine).code = none ∧ (situation.run commandLine).escaped = some e ∧
      Leaves situation.files (situation.run commandLine).files Q (Utf8.encode text) := by
  obtain ⟨hcomes, hroom, hleaves⟩ :=
    run_taken hrequest hload hsource htarget hconversion hinput houtput hne hconvert htakes
  refine and_assoc.mp ⟨?_, hleaves⟩
  rw [run_between_files hrequest hload hsource htarget hconversion hinput houtput hne]
  exact converted_escaped he hcomes hroom

end BetweenFiles

/-- A record that is read, an empty one, one that is refused, and a comment. -/
def brokenText : Text :=
  Conversion.oneWordRecord ++ "\n\n".toList ++ Conversion.badHeadRecord ++ "\n#c\n".toList

/-- The text in a file beside another one, and no configuration file. -/
def brokenSituation : Situation :=
  { environment := { home := some "/h".toList }
    files :=
      { nodes :=
          [(["in".toList], .file (Utf8.encode brokenText)), (["old".toList], .file [0x61])] } }

end Corpus.CommandLine
