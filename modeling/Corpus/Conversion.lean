import Corpus.Json.Writer
import Corpus.Registry
import Corpus.Sentence.View
import Corpus.Workers

/-!
# Conversion

Every record of a stream is read in one format and written in another, or as a JSON object on a line.

* With one worker a sentence is written before the next record is read, so that what comes before an
  error has been written.
* With more workers all records are read before anything is written. The workers finish them in some
  order, but the results are taken in the order of the records, so the error is that of the first
  record that is refused, and then nothing has been written.
-/

namespace Corpus

/-- **Target.** What sentences are written as. -/
inductive Target where
  | json
  | format (codec : Codec)
  deriving DecidableEq

/-- The name of the JSON target. -/
def jsonName : Text := "json".toList

/-- **Written output**: the text, and the number of sentences or what ended the writing. -/
structure Output where
  text : Text
  result : Except Error Nat

namespace Target

/-- The target of a name. -/
def ofName (name : Text) (options : Options) : Except Error Target :=
  if name.lower = jsonName then .ok json else (Registry.standard.codec name options).map format

/-- A sentence as written. The line of a sentence, which consists of texts, is shown as it is. -/
def write : Target → Sentence → Except Error Text
  | json, s =>
    match s.numberedView.writtenWithin with
    | .ok line => .ok (line.shown ++ ['\n'])
    | .error fault => .error (.numeral fault)
  | format codec, s => codec.write s

/-- **Writing sentences**, up to the first one that cannot be written. -/
def writeAll (target : Target) : List Sentence → Output
  | [] => { text := [], result := .ok 0 }
  | s :: sentences =>
    match target.write s with
    | .error e => { text := [], result := .error e }
    | .ok text =>
      let later := writeAll target sentences
      { text := text ++ later.text, result := later.result.map (· + 1) }

end Target

/-- **Conversion.** From what, to what, and how. -/
structure Conversion where
  source : Codec
  target : Target
  docid : Option Text := some []
  workers : Int := 1

namespace Conversion

/-- The conversion between named formats. -/
def ofNames (source target : Text) (options : Options) (docid : Option Text) (workers : Int) :
    Except Error Conversion := do
  let source ← Registry.standard.codec source options
  let target ← Target.ofName target options
  return { source, target, docid, workers }

/-- More than one worker. -/
def isParallel (c : Conversion) : Bool := 1 < c.workers

/-- **Reading and writing in turn.** -/
def sequential (c : Conversion) : List Text → Output
  | [] => { text := [], result := .ok 0 }
  | record :: records =>
    match c.source.read c.docid record with
    | .error e => { text := [], result := .error e }
    | .ok none => sequential c records
    | .ok (some s) =>
      match c.target.write s with
      | .error e => { text := [], result := .error e }
      | .ok text =>
        let later := sequential c records
        { text := text ++ later.text, result := later.result.map (· + 1) }

/-- **Delivery.** The sentences of results in the order of their records, or the first error. -/
def deliver : List (Except Error (Option Sentence)) → Except Error (List Sentence)
  | [] => .ok []
  | .error e :: _ => .error e
  | .ok found :: results => (deliver results).map (found.toList ++ ·)

/-- **Reading everything first**, on workers that finish the records in the given order. -/
def parallel (c : Conversion) (order : List Nat) (records : List Text) : Output :=
  match deliver (Workers.inOrder (c.source.read c.docid) records order) with
  | .error e => { text := [], result := .error e }
  | .ok sentences => c.target.writeAll sentences

/-- **Running a conversion on a stream.** -/
def run (c : Conversion) (stream : Stream) : Output :=
  let records := c.source.records stream
  if c.isParallel then c.parallel (List.range records.length) records else c.sequential records

/-- **Running a conversion on a stream that breaks off.** After these records reading fails, which
ends the conversion before anything is written or after the records have been. -/
def runInterrupted (c : Conversion) (fault : Error) (stream : Stream) : Output :=
  if c.isParallel then { text := [], result := .error fault }
  else
    let output := c.sequential (c.source.records stream)
    match output.result with
    | .ok _ => { output with result := .error fault }
    | .error _ => output

/-! ### Log -/

/-- The entry that ends a conversion that has succeeded. -/
def finished (c : Conversion) (targetName : Text) (count : Nat) : Log.Entry :=
  { level := .info
    source := "textformats.engine".toList
    text := "Converted ".toList ++ Numeral.ofNat count ++ " sentence(s) from ".toList ++
      c.source.format.name ++ " to ".toList ++ targetName }

/-- The records that are read in turn: up to the first one that is refused or cannot be written. -/
def recordsInTurn (c : Conversion) : List Text → List Text
  | [] => []
  | record :: records =>
    match c.source.read c.docid record with
    | .error _ => [record]
    | .ok none => record :: recordsInTurn c records
    | .ok (some s) =>
      match c.target.write s with
      | .error _ => [record]
      | .ok _ => record :: recordsInTurn c records

/-- The records up to the first that gives a sentence or is refused. -/
def recordsToFirst (c : Conversion) : List Text → List Text
  | [] => []
  | record :: records =>
    match c.source.read c.docid record with
    | .ok none => record :: recordsToFirst c records
    | _ => [record]

/-- **What is logged during a conversion** to a target that was asked for by a name. -/
def log (c : Conversion) (targetName : Text) (stream : Stream) : List Log.Entry :=
  let records := c.source.records stream
  let read := if c.isParallel then records else c.recordsInTurn records
  read.flatMap c.source.log ++
    match (c.run stream).result with
    | .ok count => [c.finished targetName count]
    | .error _ => []

/-- What is logged during a conversion of a stream that breaks off. -/
def logInterrupted (c : Conversion) (stream : Stream) : List Log.Entry :=
  if c.isParallel then []
  else (c.recordsInTurn (c.source.records stream)).flatMap c.source.log

end Conversion

end Corpus
