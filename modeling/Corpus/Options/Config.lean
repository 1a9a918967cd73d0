import Corpus.Files.Tree
import Corpus.Json.Reader
import Corpus.Options.Reading
import Corpus.Text.Utf8

/-!
# The configuration file

Options may stand in a file that holds a JSON object.

* Its path is given, or is that of the environment, or is `.textformats/config.json` in the home
  directory.
* A file that is not there says nothing. One that cannot be opened, or is no JSON, or holds another
  value than an object, says nothing either and is reported with a warning.
* Bytes that are no UTF-8, integers beyond the digit limit and values nested more deeply than the stack
  has room for are errors.
-/

namespace Corpus.Config

/-- The path of the configuration file in an environment. -/
def path (env : Environment) : Except Error Path :=
  if env.config ≠ [] then (Path.ofRaw env.config).expanded env
  else do
    let home ← Path.expanded env { parts := [[.char '~']] }
    return home.join [".textformats".toList, "config.json".toList]

/-- **What was read**: the entries, and what was logged on the way. -/
structure Contents where
  entries : List (RawText × Json) := []
  log : List Log.Entry := []

/-- A warning about the configuration file. -/
def warning (before : String) (path : Path) (after : String) : Log.Entry :=
  { level := .warning
    source := "textformats.config".toList
    text := before.toList ++ path.raw.shown ++ after.toList }

/-- The warning about a file that cannot be read. -/
def unreadable (path : Path) : Log.Entry := warning "Ignoring unreadable config file " path ""

/-- The warning about a file that holds no object. -/
def notObject (path : Path) : Log.Entry :=
  warning "Ignoring config file " path ": expected a JSON object"

/-- The contents of a file of these bytes, nested up to `nesting` levels. -/
def ofBytes (nesting : Nat) (path : Path) (bytes : List UInt8) : Except Error Contents :=
  match Utf8.decode? bytes with
  | none => .error .undecodable
  | some text =>
    match Json.read (some Numeral.digitLimit) nesting text with
    | .error .malformed => .ok { log := [unreadable path] }
    | .error (.tooLong digits) => .error (.numeral (.tooLongToRead digits))
    | .error (.tooDeep container) => .error (.tooDeep container)
    | .ok (.object entries) => .ok { entries }
    | .ok _ => .ok { log := [notObject path] }

/-- **Reading the configuration file.** -/
def read (tree : FileTree) (env : Environment) (given : Option Path) : Except Error Contents := do
  let path ←
    match given with
    | some path => .ok path
    | none => path env
  if !(← tree.isThere path) then return {}
  match tree.openToRead path with
  | .ok place => ofBytes env.nesting path (tree.content place)
  | .error _ => return { log := [unreadable path] }

end Corpus.Config
