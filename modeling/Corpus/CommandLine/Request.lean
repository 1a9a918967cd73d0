import Corpus.CommandLine.Matching
import Corpus.Format
import Corpus.Number.Numeral
import Corpus.Options.Reading

/-!
# Requests

What a command line asks for: help, the version, the list of formats, or a conversion.

* The task comes first. A command line that starts with an option which is neither help nor version
  means the task `convert`.
* The arguments of a task are told apart by the options of that task; what is left over is an error.
-/

namespace Corpus.CommandLine

/-- How the program is called. -/
def programName : Text := "python -m textformats".toList

/-- The version of the program. -/
def version : Text := "1.0.0".toList

/-- **Task.** -/
inductive Task where
  | convert
  | formats
  deriving DecidableEq

namespace Task

/-- How a task is called. -/
def name : Task → Text
  | convert => "convert".toList
  | formats => "formats".toList

/-- The tasks that there are. -/
def all : List Task := [convert, formats]

/-- The task of a name. -/
def ofName? (text : RawText) : Option Task := all.find? fun task => task.name = text

/-- How the program is called for a task. -/
def program (task : Task) : Text := programName ++ ' ' :: task.name

end Task

/-- **What an option means.** -/
inductive Meaning where
  | help
  | version
  | debug
  | verbose
  | input
  | output
  | source
  | target
  | encoding (key : OptionKey)
  | config
  | docid
  | workers
  deriving DecidableEq

/-- An option of these names. -/
def spec (names : List String) (takesValue : Bool) (meaning : Meaning) : OptionSpec Meaning :=
  { names := names.map String.toList, takesValue, meaning }

/-- The options in front of a task. -/
def frontOptions : List (OptionSpec Meaning) :=
  [spec ["-h", "--help"] false .help, spec ["--version", "-V"] false .version]

/-- The options of every task. -/
def commonOptions : List (OptionSpec Meaning) :=
  [spec ["-h", "--help"] false .help, spec ["--debug"] false .debug,
   spec ["--verbose"] false .verbose]

/-- **The options of a task.** -/
def Task.options : Task → List (OptionSpec Meaning)
  | formats => commonOptions
  | convert =>
    commonOptions ++
    [spec ["--input", "-i"] true .input, spec ["--output", "-o"] true .output,
     spec ["--from"] true .source, spec ["--to"] true .target,
     spec ["--join-category-to-pos"] true (.encoding .joinCategoryToPos),
     spec ["--add-pos-as-attribute"] true (.encoding .addPosAsAttribute),
     spec ["--config"] true .config, spec ["--docid"] true .docid, spec ["--workers"] true .workers]

/-- **Choice of an encoding**: left to the configuration, asked for without a value, or made. -/
inductive EncodingChoice where
  | configured
  | withoutValue
  | made (state : Bool)
  deriving DecidableEq

/-- **Arguments of a task.** A hyphen stands for the standard input or output. `none` is the value of an
option that was left without one. Paths and the id of a document are raw text; formats are known by the
texts they are asked for by. -/
structure Arguments where
  debug : Bool := false
  verbose : Bool := false
  input : Option RawText := some [.char '-']
  output : Option RawText := some [.char '-']
  source : Option Text := some Format.conll.name
  target : Option Text := some Format.conll.name
  joinCategoryToPos : EncodingChoice := .configured
  addPosAsAttribute : EncodingChoice := .configured
  config : Option RawText := none
  docid : Option RawText := some []
  workers : Option Int := some 1
  deriving DecidableEq

/-- The arguments with a choice of an encoding. -/
def Arguments.choose (arguments : Arguments) (key : OptionKey) (choice : EncodingChoice) : Arguments :=
  match key with
  | .joinCategoryToPos => { arguments with joinCategoryToPos := choice }
  | .addPosAsAttribute => { arguments with addPosAsAttribute := choice }

/-- **Request.** -/
inductive Request where
  | help (task : Option Task)
  | version
  | run (task : Task) (arguments : Arguments)
  deriving DecidableEq

/-- **Why there is nothing to run**: the command line is in error, or asks for information. -/
inductive Stop where
  | usage (error : UsageError)
  | request (request : Request)

/-- The number of workers that raw text asks for. -/
def readWorkers? (raw : RawText) : Option Int := raw.toText.toOption.bind Numeral.readLoose?

/-- **The effect of a setting** on the arguments of a task. No format has a name with a lone surrogate, nor
one with a backslash, so that the name of a format is kept as it is shown. -/
def effect (task : Task) (arguments : Arguments) (setting : Setting Meaning) :
    Except Stop Arguments :=
  let complain (message : Text) : Except Stop Arguments :=
    .error (.usage (complaint task.program setting.spec message))
  let value := setting.value
  match setting.spec.meaning with
  | .help => .error (.request (.help (some task)))
  | .version => .error (.request .version)
  | .debug => .ok { arguments with debug := true }
  | .verbose => .ok { arguments with verbose := true }
  | .input => .ok { arguments with input := value }
  | .output => .ok { arguments with output := value }
  | .source => .ok { arguments with source := value.map RawText.shown }
  | .target => .ok { arguments with target := value.map RawText.shown }
  | .encoding key =>
    match value.map fun raw => Json.truth (.string raw) with
    | none => .ok (arguments.choose key .withoutValue)
    | some (.ok state) => .ok (arguments.choose key (.made state))
    | some (.error e) => complain e.message.shown
  | .config => .ok { arguments with config := value }
  | .docid => .ok { arguments with docid := value }
  | .workers =>
    match value with
    | none => .ok { arguments with workers := none }
    | some raw =>
      match readWorkers? raw with
      | some workers => .ok { arguments with workers := some workers }
      | none => complain ("invalid int value: ".toList ++ raw.quoted)

/-- A usage error of the program as a whole. -/
def misuse (message : Text) : UsageError := { program := programName, message }

/-- The arguments of a task. -/
def taskRequest (task : Task) (arguments : List RawText) : Except Stop Request := do
  let kinds ← (classifyAll task.program task.options arguments).mapError .usage
  let (found, leftOver) ← enact task.program task.options .usage (effect task) {} kinds
  if leftOver = [] then return .run task found
  else
    throw (.usage (misuse ("unrecognized arguments: ".toList ++ Text.joined [' '] (leftOver.map RawText.shown))))

/-- The command line with its task in front. -/
def withTask : List RawText → List RawText
  | [] => []
  | first :: rest =>
    if first.head? = some (.char '-') ∧ (named? frontOptions first).isNone then
      Task.convert.name :: first :: rest
    else first :: rest

/-- The request of a command line, or what stops it. -/
def requestOf (commandLine : List RawText) : Except Stop Request := do
  let commandLine := withTask commandLine
  let _ ← (classifyAll programName frontOptions commandLine).mapError .usage
  match commandLine with
  | [] =>
    throw (.usage (misuse ("No task specified. Use one of: ".toList ++
      Text.joined ", ".toList (Task.all.map Task.name))))
  | first :: rest =>
    match named? frontOptions first with
    | some (_, spec) => return if spec.meaning = .version then .version else .help none
    | none =>
      match Task.ofName? first with
      | some task => taskRequest task rest
      | none =>
        throw (.usage (misuse ("argument task: invalid choice: ".toList ++ first.quoted ++
          " (choose from ".toList ++
          Text.joined ", ".toList (Task.all.map fun task => RawText.quoted task.name) ++ [')'])))

/-- **Reading a command line.** -/
def Request.ofCommandLine (commandLine : List RawText) : Except UsageError Request :=
  match requestOf commandLine with
  | .ok request => .ok request
  | .error (.request request) => .ok request
  | .error (.usage e) => .error e

end Corpus.CommandLine
