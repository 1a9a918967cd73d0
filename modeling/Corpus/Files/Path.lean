import Corpus.Error

/-!
# Paths

A path is its root and its parts.

* Single dots, empty parts and slashes at the end say nothing and are dropped; two dots are kept.
* Two slashes in front are a root of their own, one slash or more than two are the usual root.
* A path of no parts without a root is the current directory and is written as a dot.
* A first part that starts with a tilde names a home directory.
* Names are raw text. A lone surrogate from U+DC80 to U+DCFF stands for a byte that is no UTF-8; with any
  other one there is no such name.
-/

namespace Corpus

/-- **Root of a path.** -/
inductive PathRoot where
  | none
  | single
  | double
  deriving DecidableEq

/-- The root as it is written. -/
def PathRoot.text : PathRoot → RawText
  | none => []
  | single => [.char '/']
  | double => [.char '/', .char '/']

/-- **Path.** -/
structure Path where
  root : PathRoot := .none
  parts : List RawText := []
  deriving DecidableEq

/-- **Environment.** The home directory, the path of a configuration file, the home directories of users
by name, and the number of levels to which a JSON value may be nested, for which the stack has room. -/
structure Environment where
  home : Option RawText := none
  config : RawText := []
  users : List (RawText × RawText) := []
  nesting : Nat := 990

/-! ### Names -/

/-- The lone surrogate stands for a byte. -/
def RawChar.isByte (n : Fin 0x800) : Bool := 0x480 ≤ n.val ∧ n.val < 0x500

namespace RawText

/-- The number of bytes of a name. -/
def nameLength : RawText → Nat
  | [] => 0
  | .char c :: rest => c.utf8Size + nameLength rest
  | .surrogate _ :: rest => nameLength rest + 1

/-- Why raw text is no name, when `position` characters stand before it. -/
def nameFaultFrom? : (position : Nat) → RawText → Option EncodingFault
  | _, [] => none
  | position, .char _ :: rest => nameFaultFrom? (position + 1) rest
  | position, .surrogate n :: rest =>
    if RawChar.isByte n then nameFaultFrom? (position + 1) rest
    else some { first := n, position, run := surrogateRun rest }

/-- **Why raw text is no name**, if it is none. -/
def nameFault? (raw : RawText) : Option EncodingFault := nameFaultFrom? 0 raw

end RawText

/-! ### Paths -/

namespace Path

/-- The root that raw text begins with. -/
def rootOf (raw : RawText) : PathRoot :=
  match raw.takeWhile (· = .char '/') with
  | [] => .none
  | [_, _] => .double
  | _ => .single

/-- **Reading a path.** -/
def ofRaw (raw : RawText) : Path :=
  { root := rootOf raw
    parts := (List.splitOn (.char '/') raw).filter fun part => part ≠ [] ∧ part ≠ [.char '.'] }

/-- **Writing a path.** -/
def raw (path : Path) : RawText :=
  if path.root = .none ∧ path.parts = [] then [.char '.']
  else path.root.text ++ [.char '/'].intercalate path.parts

/-- A path with more parts at its end. -/
def join (path : Path) (parts : List RawText) : Path := { path with parts := path.parts ++ parts }

/-- The home directory that a first part with a tilde names. -/
def home (env : Environment) (user : RawText) : Except Error Path :=
  let found := if user = [] then env.home else env.users.lookup user
  match found with
  | none => .error .noHome
  | some directory =>
    let trimmed := (directory.reverse.dropWhile (· = .char '/')).reverse
    let directory := if trimmed = [] then [.char '/'] else trimmed
    if directory.head? = some (.char '~') then .error .noHome else .ok (ofRaw directory)

/-- **A path with its tilde resolved.** -/
def expanded (env : Environment) (path : Path) : Except Error Path :=
  match path.root, path.parts with
  | .none, (.char '~' :: user) :: rest => do
    let directory ← home env user
    return directory.join rest
  | _, _ => .ok path

end Path

end Corpus
