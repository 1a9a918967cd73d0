import Corpus.CommandLine.Request
import Corpus.CommandLine.Table
import Corpus.Conversion
import Corpus.Options.Config

/-!
# Running a command line

A run turns a command line, an environment, a file tree and the standard input into an outcome: exit
code, standard output and error, and the file tree afterwards.

* The formats are looked up first, then the options are loaded, then the input is opened, then the
  output. Opening the output empties it; the input is read only after that.
* Files are read as UTF-8 with replacement, the standard input as strict UTF-8 and portion by portion.
  In both, a carriage return with or without a line feed ends a line like a line feed.
* A malformed record ends the run with code 1. What was written before stays written. Any other error
  escapes, and there is no code.
* What has been opened is read to its end. What is written to a file is handed over when the file is
  closed. If the system does not take all of it, this is an error that escapes, whatever the conversion
  has come to; the log of such a run is that of the whole conversion.
* Output is encoded in UTF-8. The id of a document may have no encoding; the first line that would repeat
  it is then an error that escapes.
-/

namespace Corpus.CommandLine

/-- **What a run starts from.** -/
structure Situation where
  environment : Environment := {}
  files : FileTree := {}
  standardInput : List UInt8 := []

/-- **Outcome.** `sent` is what a device has been given, and `escaped` an error that nobody caught. -/
structure Outcome where
  code : Option Nat
  output : Text := []
  diagnostics : Text := []
  files : FileTree
  sent : Option (Place × List UInt8) := none
  escaped : Option Error := none

/-- Every end of a line as a line feed. -/
def unifyNewlines : Text → Text
  | [] => []
  | '\r' :: '\n' :: rest => '\n' :: unifyNewlines rest
  | '\r' :: rest => '\n' :: unifyNewlines rest
  | c :: rest => c :: unifyNewlines rest

/-! ### Diagnostics -/

/-- The lines of log entries of a level or above. -/
def logLines (level : Log.Level) (entries : List Log.Entry) : Text :=
  (Log.atLeast level entries).flatMap fun entry => "[textformats] ".toList ++ entry.line ++ ['\n']

/-- The line of an error. -/
def errorLine (message : RawText) : Text := "Error: ".toList ++ message.shown ++ ['\n']

/-- The level at which a run logs. -/
def Arguments.level (arguments : Arguments) : Log.Level :=
  if arguments.debug then .debug else if arguments.verbose then .info else .warning

/-! ### The task `formats` -/

/-- **The list of formats.** -/
def formatsTable : Text :=
  table (["Format", "Aliases", "Records", "Description"].map String.toList)
    (Registry.standard.entries.map fun entry =>
      [entry.name, Text.joined ", ".toList entry.aliases, entry.mode, entry.description])

/-! ### The task `convert` -/

/-- **A place to read from or to write to**: a standard stream, or a file. -/
inductive Endpoint where
  | standard
  | file (place : Place)

/-- The endpoint of a path argument. -/
def endpoint (opened : Path → Except Error Place) : Option RawText → Except Error Endpoint
  | none => .error .noPath
  | some argument =>
    if argument = [.char '-'] then .ok .standard
    else (opened (Path.ofRaw argument)).map .file

/-- The value of an option in a message; an empty list stands for no value. -/
def shownValue (value : Option RawText) : Text := (value.map RawText.shown).getD "[]".toList

/-- What a choice of an encoding puts over the configuration. -/
def EncodingChoice.override : EncodingChoice → Json
  | configured => .null
  | withoutValue => .array []
  | made state => .bool state

/-- The options that the arguments give, as entries over those of the configuration. -/
def Arguments.overrides (arguments : Arguments) : List (RawText × Json) :=
  [(OptionKey.joinCategoryToPos.name, arguments.joinCategoryToPos.override),
   (OptionKey.addPosAsAttribute.name, arguments.addPosAsAttribute.override)]

/-- The argument for the path of the configuration file. The empty one gives none. -/
def Arguments.configArgument (arguments : Arguments) : Option RawText :=
  arguments.config.filter (· ≠ [])

/-- The configuration of a run. -/
def Situation.configuration (situation : Situation) (arguments : Arguments) :
    Except Error Config.Contents :=
  Config.read situation.files situation.environment (arguments.configArgument.map Path.ofRaw)

/-- **The options of a run**, and what is logged while they are loaded. -/
structure Loaded where
  options : Except Error Options
  log : List Log.Entry

/-- Loading the options. -/
def Situation.load (situation : Situation) (arguments : Arguments) : Loaded :=
  match situation.configuration arguments with
  | .error e => { options := .error e, log := [] }
  | .ok contents =>
    let entries := Options.merge arguments.overrides contents.entries
    { options := Options.ofEntries {} entries, log := contents.log ++ Options.log entries }

/-- The entry that tells the options. -/
def optionsEntry (options : Options) : Log.Entry :=
  { level := .debug
    source := "textformats".toList
    text := "Format options: ".toList ++ options.shown }

/-- **Input**: its text, and whether it breaks off after it. -/
structure Input where
  text : Text
  broken : Bool := false

/-- The number of bytes of a portion of the standard input. -/
def portionSize : Nat := 8192

/-- The standard input. A carriage return before a portion that cannot be decoded may be half of the
end of a line and is not taken for one. -/
def Situation.standardText (situation : Situation) : Input :=
  let (text, whole) :=
    Utf8.decodePortions [] (Utf8.portions (portionSize - 1) situation.standardInput)
  if whole then { text := unifyNewlines text }
  else { text := unifyNewlines (dropReturn text), broken := true }

/-- An opened input. -/
def Situation.input (situation : Situation) (files : FileTree) : Endpoint → Input
  | .standard => situation.standardText
  | .file place => { text := unifyNewlines (Utf8.decodeLossy (files.content place)) }

/-- The stream of the records that can be read. -/
def Input.stream (input : Input) (conversion : Conversion) : Stream :=
  .text (if input.broken then conversion.source.format.mode.upToBoundary input.text else input.text)

/-- **Converting an input**, with what is logged meanwhile. -/
def Input.convert (input : Input) (conversion : Conversion) (targetName : Text) :
    Output × List Log.Entry :=
  let stream := input.stream conversion
  if input.broken then
    (conversion.runInterrupted .undecodable stream, conversion.logInterrupted stream)
  else (conversion.run stream, conversion.log targetName stream)

/-- **Why no line is taken**: lines of JSON repeat the id of the document, which has no encoding. The place
of the fault is counted from the start of the line. -/
def Arguments.lineRefusal? (arguments : Arguments) : Target → Option Error
  | .json =>
    match arguments.docid with
    | none => none
    | some docid =>
      match docid.toText with
      | .ok _ => none
      | .error fault =>
        let before := "\x7b\x22docid\x22: \x22".toList ++
          (docid.take fault.position).flatMap Json.writtenRaw
        some (.unencodable { fault with position := before.length })
  | .format _ => none

/-- **Converting into an output that takes no line.** Nothing is written, and the conversion ends where its
first line is. -/
def Input.convertRefused (input : Input) (conversion : Conversion) (targetName : Text)
    (refusal : Error) : Output × List Log.Entry :=
  let (output, during) := input.convert conversion targetName
  if output.text = [] then (output, during)
  else
    let records := conversion.source.records (input.stream conversion)
    ({ text := [], result := .error refusal },
      (if conversion.isParallel then records else conversion.recordsToFirst records).flatMap
        conversion.source.log)

/-- What a conversion comes to, and what is logged. -/
def Arguments.converting (arguments : Arguments) (conversion : Conversion) (targetName : Text)
    (input : Input) : Output × List Log.Entry :=
  match arguments.lineRefusal? conversion.target with
  | none => input.convert conversion targetName
  | some refusal => input.convertRefused conversion targetName refusal

/-- The outcome of writing an output to an opened endpoint. `logged` is the log of the whole run. -/
def written (logged : Text) (files : FileTree) (output : Output) : Endpoint → Outcome
  | .standard => { code := none, output := output.text, diagnostics := logged, files }
  | .file place =>
    let bytes := Utf8.encode output.text
    { code := none
      diagnostics := logged
      files := files.write place bytes
      sent := if files.isDevice place then some (place, files.taken place bytes) else none }

/-- The outcome by the result of a conversion. A malformed record is told. -/
def Outcome.ended (outcome : Outcome) : Except Error Nat → Outcome
  | .ok _ => { outcome with code := some 0 }
  | .error (.malformed e) =>
    { outcome with code := some 1, diagnostics := outcome.diagnostics ++ errorLine e.message }
  | .error e => { outcome with escaped := some e }

/-- The outcome once an output has been closed, which the system may not have taken in full. -/
def Outcome.closed (outcome : Outcome) : Option Refusal → Outcome
  | none => outcome
  | some refusal => { outcome with code := none, escaped := some (.file (.unwritten refusal)) }

/-- Why an endpoint does not take all of a text. Only files are closed. -/
def Endpoint.overflow? (files : FileTree) (text : Text) : Endpoint → Option Refusal
  | .standard => none
  | .file place => files.overflow? place (Utf8.encode text)

/-- The outcome of a conversion into an opened output. `before` is what was logged already. -/
def converted (arguments : Arguments) (conversion : Conversion) (targetName : Text)
    (files : FileTree) (before : List Log.Entry) (target : Endpoint) (input : Input) : Outcome :=
  let (output, during) := arguments.converting conversion targetName input
  let outcome := written (logLines arguments.level (before ++ during)) files output target
  (outcome.ended output.result).closed (target.overflow? files output.text)

/-- The outcome of a failure that is told in a message. -/
def failed (level : Log.Level) (log : List Log.Entry) (files : FileTree) (message : Text) : Outcome :=
  { code := some 1, diagnostics := logLines level log ++ errorLine message, files }

/-- The outcome of an error that nobody catches. -/
def escaped (level : Log.Level) (log : List Log.Entry) (files : FileTree) (e : Error) : Outcome :=
  { code := none, diagnostics := logLines level log, files, escaped := some e }

/-- The outcome when an endpoint cannot be opened. A fault of the file system is told. -/
def refused (level : Log.Level) (log : List Log.Entry) (files : FileTree) (attempt : Text) :
    Error → Outcome
  | .file fault => failed level log files (attempt ++ ": ".toList ++ fault.message)
  | e => escaped level log files e

/-- The files once an output has been opened. -/
def Endpoint.emptied (files : FileTree) : Endpoint → FileTree
  | .standard => files
  | .file place => files.write place []

/-- The conversion that the arguments ask for. The id of the document is taken as it is shown, since one
that is no text is never written. -/
def Arguments.conversion (arguments : Arguments) (source target : Text) (options : Options) :
    Except Error Conversion :=
  match arguments.workers with
  | none => .error .noWorkers
  | some workers =>
    Conversion.ofNames source target options (arguments.docid.map RawText.shown) workers

/-- Running a conversion between formats that there are. -/
def Situation.convertBetween (situation : Situation) (arguments : Arguments) (source target : Text) :
    Outcome :=
  let files := situation.files
  let level := arguments.level
  let loaded := situation.load arguments
  match loaded.options with
  | .error e => escaped level loaded.log files e
  | .ok options =>
    let log := loaded.log ++ [optionsEntry options]
    match endpoint files.openToRead arguments.input with
    | .error e => refused level log files ("Cannot read ".toList ++ shownValue arguments.input) e
    | .ok input =>
      match endpoint files.openToWrite arguments.output with
      | .error e => refused level log files ("Cannot write ".toList ++ shownValue arguments.output) e
      | .ok output =>
        let opened := output.emptied files
        match arguments.conversion source target options with
        | .error e => escaped level log opened e
        | .ok conversion =>
          converted arguments conversion target opened log output (situation.input opened input)

/-- **Running a conversion.** -/
def Situation.convert (situation : Situation) (arguments : Arguments) : Outcome :=
  let level := arguments.level
  let files := situation.files
  match arguments.source.filter fun name => (Registry.standard.find? name).isSome with
  | none =>
    failed level [] files
      ("Unknown input format '".toList ++ arguments.source.getD "[]".toList ++ ['\x27'])
  | some source =>
    match arguments.target with
    | none => escaped level [] files .noTarget
    | some target =>
      if target.lower ≠ jsonName ∧ (Registry.standard.find? target).isNone then
        failed level [] files ("Unknown output format '".toList ++ target ++ ['\x27'])
      else situation.convertBetween arguments source target

/-! ### Whole runs -/

/-- The first line of the help for a task. -/
def helpText (task : Option Task) : Text :=
  let program := (task.map Task.program).getD programName
  "usage: ".toList ++ program ++ " [options]\n".toList

/-- **Answering a request.** -/
def Situation.answer (situation : Situation) : Request → Outcome
  | .help task => { code := some 0, output := helpText task, files := situation.files }
  | .version =>
    { code := some 0, output := programName ++ ' ' :: version ++ ['\n'], files := situation.files }
  | .run .formats _ => { code := some 0, output := formatsTable, files := situation.files }
  | .run .convert arguments => situation.convert arguments

/-- **Running a command line.** A usage error ends with code 2. -/
def Situation.run (situation : Situation) (commandLine : List RawText) : Outcome :=
  match Request.ofCommandLine commandLine with
  | .ok request => situation.answer request
  | .error e =>
    { code := some 2, diagnostics := e.line ++ ['\n'], files := situation.files }

end Corpus.CommandLine
