import Corpus.CommandLine.Run

/-!
# The program

The outer layer of the command line. It looks up what a request needs (the files on the way to the
paths that the request names, the environment, the standard input), runs it, and carries out what has
become of it.
-/

namespace Corpus.Main

open Corpus.CommandLine

/-- The absolute path of a place. -/
def pathOf (place : Place) : String := String.ofList ('/' :: Text.joined ['/'] (place.map RawText.shown))

/-- The places on the way along a path. -/
def placesAlong (current : Place) (path : Path) : List Place :=
  let start := if path.root = .none then current else []
  path.parts.foldl
    (fun (places : List Place) part =>
      let here := places.head?.getD start
      (if part = [.char '.', .char '.'] then here.dropLast else here ++ [part]) :: places)
    [start]

/-- The bytes at a path, or why they are not shown. -/
def bytesAt (path : String) : IO (List UInt8 × Access) := do
  try
    let bytes ← IO.FS.readBinFile path
    return (bytes.toList, {})
  catch e =>
    match e with
    | .permissionDenied _ number reason =>
      return ([], { read := some ⟨number.toNat, reason.toList⟩ })
    | e => throw e

/-- What is at a place, and what the system grants there. A device is only read when it is `asked` for
what it holds. -/
def look (asked : Bool) (place : Place) : IO (Option (Node × Access)) := do
  let path := (← IO.currentDir) / pathOf place
  try
    match (← path.metadata).type with
    | .dir => return some (.directory, {})
    | .other =>
      if asked then
        let (bytes, access) ← bytesAt path.toString
        return some (.device bytes, access)
      else return some (.device [], {})
    | _ =>
      let (bytes, access) ← bytesAt path.toString
      return some (.file bytes, access)
  catch _ => return none

/-- The file tree as far as the places show it. Some of them are asked for what they hold. -/
def snapshot (current : Place) (asked places : List Place) : IO FileTree := do
  let mut tree : FileTree := { current }
  for place in places do
    if let some (node, access) ← look (asked.contains place) place then
      let before := tree.access
      tree := { tree.put place node with
        access := fun other => if other = place then access else before other }
  return tree

/-- The home directories of users, from lines of seven fields between colons. -/
def usersOf (table : Text) : List (RawText × RawText) :=
  (List.splitOn '\n' table).filterMap fun line =>
    match List.splitOn ':' line with
    | [user, _, _, _, _, directory, _] => some (user, directory)
    | _ => none

/-- The environment of the process. -/
def environment : IO Environment := do
  let home ← IO.getEnv "HOME"
  let config ← IO.getEnv "TEXTFORMATS_CONFIG"
  let table ← try IO.FS.readFile "/etc/passwd" catch _ => pure ""
  return { home := home.map fun path => RawText.ofText path.toList
           config := RawText.ofText (config.getD "").toList
           users := usersOf table.toList }

/-- The path of an argument that names a file. -/
def pathOf? (argument : Option RawText) : Option Path :=
  (argument.filter (· ≠ [.char '-'])).map Path.ofRaw

/-- The paths that a request reads. -/
def readPaths (env : Environment) : Request → List Path
  | .run .convert arguments =>
    let config :=
      match arguments.configArgument with
      | some argument => some (Path.ofRaw argument)
      | none => (Config.path env).toOption
    config.toList ++ (pathOf? arguments.input).toList
  | _ => []

/-- The paths that a request writes. -/
def writtenPaths : Request → List Path
  | .run .convert arguments => (pathOf? arguments.output).toList
  | _ => []

/-- The request reads the standard input. -/
def readsStandardInput : Request → Bool
  | .run .convert arguments => arguments.input = some [.char '-']
  | _ => false

/-- Writes bytes to a place. What the system does not take is an error. -/
def writeBytes (place : Place) (bytes : List UInt8) : IO Unit :=
  IO.FS.withFile (pathOf place) .write fun handle => do
    handle.write bytes.toByteArray
    handle.flush

/-- Carries out an outcome: the files that have changed, what a device is sent, and both outputs. -/
def carryOut (before : FileTree) (places : List Place) (outcome : Outcome) : IO UInt32 := do
  for place in places do
    if outcome.files.node? place ≠ before.node? place then
      writeBytes place (outcome.files.content place)
  if let some (place, bytes) := outcome.sent then
    writeBytes place bytes
  IO.print (String.ofList outcome.output)
  IO.eprint (String.ofList outcome.diagnostics)
  if let some e := outcome.escaped then
    IO.eprint (String.ofList (errorLine e.message))
  return UInt32.ofNat (outcome.code.getD 1)

/-- Runs a command line. -/
def run (commandLine : List RawText) : IO UInt32 := do
  let env ← environment
  let request := (Request.ofCommandLine commandLine).toOption
  let currentPath ← IO.currentDir
  let current := (Path.ofRaw (RawText.ofText currentPath.toString.toList)).parts
  let asked := ((request.map (readPaths env)).getD []).flatMap (placesAlong current)
  let written := ((request.map writtenPaths).getD []).flatMap (placesAlong current)
  let places := [] :: (asked ++ written ++ placesAlong [] { parts := current })
  let files ← snapshot current asked places.eraseDups
  let standardInput ←
    if request.any readsStandardInput then do
      let bytes ← (← IO.getStdin).readBinToEnd
      pure bytes.toList
    else pure []
  let outcome := Situation.run { environment := env, files, standardInput } commandLine
  carryOut files places.eraseDups outcome

end Corpus.Main

/-- The program. -/
def main (arguments : List String) : IO UInt32 :=
  Corpus.Main.run (arguments.map fun argument => Corpus.RawText.ofText argument.toList)
