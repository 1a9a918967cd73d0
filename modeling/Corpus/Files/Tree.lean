import Corpus.Files.Path

/-!
# The file tree

The state of the file system: what stands at which place, what the system grants there, and where
relative paths start.

* A place is the list of names from the root. The root is a directory. Links are no part of a tree: a
  place is where a path leads when all links have been followed.
* A device is opened like a file, but keeps nothing of what is written to it.
* `FileTree.locate` walks along a path. Two dots go up one directory; every part but the last has to be
  a directory that may be walked through.
* `FileTree.write` writes a file as far as the system takes it and leaves every other place as it is.
-/

namespace Corpus

/-- **Node.** -/
inductive Node where
  | directory
  | file (content : List UInt8)
  /-- What is read from a device is `content`, whatever has been written to it. -/
  | device (content : List UInt8)
  deriving DecidableEq

/-- The bytes that are read from a node. -/
def Node.bytes? : Node → Option (List UInt8)
  | directory => none
  | file content => some content
  | device content => some content

/-- **Place.** The names from the root. -/
abbrev Place := List RawText

/-- **Room.** The number of bytes that are taken in all, and why no more are. -/
structure Room where
  size : Nat
  refusal : Refusal
  deriving DecidableEq

/-- **Access.** Why a place is not walked through, not opened for reading and not opened for writing, and
what room there is for what is written. Everything is granted unless something is said. -/
structure Access where
  walk : Option Refusal := none
  read : Option Refusal := none
  write : Option Refusal := none
  room : Option Room := none
  deriving DecidableEq

/-- **File tree.** -/
structure FileTree where
  nodes : List (Place × Node) := []
  current : Place := []
  access : Place → Access := fun _ => {}

namespace FileTree

/-- What is at a place. -/
def node? (tree : FileTree) (place : Place) : Option Node :=
  if place = [] then some .directory else tree.nodes.lookup place

/-- **Writing a node.** -/
def put (place : Place) (node : Node) (tree : FileTree) : FileTree :=
  { tree with nodes := (place, node) :: tree.nodes.filter fun entry => entry.1 ≠ place }

/-- The greatest number of bytes in a name. -/
def nameLimit : Nat := 255

/-- The greatest number of bytes in a path. -/
def pathLimit : Nat := 4095

/-- Walking from a place along parts. `shown` is the path that a fault names. -/
def walk (tree : FileTree) (shown : RawText) :
    Place → List RawText → Except FileFault (Place × Option Node)
  | here, [] => .ok (here, tree.node? here)
  | here, part :: rest =>
    match tree.node? here with
    | none => .error (.missing shown)
    | some (.file _) | some (.device _) => .error (.notDirectory shown)
    | some .directory =>
      match (tree.access here).walk with
      | some refusal => .error (.refused refusal shown)
      | none =>
        if part = [.char '.', .char '.'] then walk tree shown here.dropLast rest
        else if nameLimit < part.nameLength then .error (.nameTooLong shown)
        else if tree.node? (here ++ [part]) = none ∧ rest ≠ [] then .error (.missing shown)
        else walk tree shown (here ++ [part]) rest

/-- **Where a path leads**, and what is there. The last part may be missing. -/
def locate (tree : FileTree) (path : Path) : Except FileFault (Place × Option Node) :=
  if pathLimit < path.raw.nameLength then .error (.nameTooLong path.raw)
  else tree.walk path.raw (if path.root = .none then tree.current else []) path.parts

/-- **Why a path cannot name anything**, if it cannot: it has no encoding, or holds the character U+0000. -/
def misnamed? (path : Path) : Option Error :=
  match path.raw.nameFault? with
  | some fault => some (.unencodable fault)
  | none => if path.parts.any (·.contains (.char '\x00')) then some .embeddedNull else none

/-- The numbers of the refusals that count as nothing being there: a bad file number, and too many
links. -/
def absentNumbers : List Nat := [9, 40]

/-- **Whether there is something at a path.** -/
def isThere (tree : FileTree) (path : Path) : Except Error Bool :=
  if (misnamed? path).isSome then .ok false
  else
    match tree.locate path with
    | .ok (_, node) => .ok node.isSome
    | .error (.nameTooLong shown) => .error (.file (.nameTooLong shown))
    | .error (.refused refusal shown) =>
      if refusal.number ∈ absentNumbers then .ok false else .error (.file (.refused refusal shown))
    | .error _ => .ok false

/-- The place itself, unless it is refused. -/
def granted (place : Place) (path : Path) : Option Refusal → Except Error Place
  | none => .ok place
  | some refusal => .error (.file (.refused refusal path.raw))

/-- **Opening a file for reading**: the place of a file that is there. A directory is only found to be one
once reading it has been granted. -/
def openToRead (tree : FileTree) (path : Path) : Except Error Place :=
  match misnamed? path with
  | some e => .error e
  | none =>
    match tree.locate path with
    | .error fault => .error (.file fault)
    | .ok (_, none) => .error (.file (.missing path.raw))
    | .ok (place, some node) =>
      match granted place path (tree.access place).read with
      | .error e => .error e
      | .ok place =>
        match node with
        | .directory => .error (.file (.isDirectory path.raw))
        | _ => .ok place

/-- **Opening a file for writing**: the place of a file that is there or can be made. -/
def openToWrite (tree : FileTree) (path : Path) : Except Error Place :=
  match misnamed? path with
  | some e => .error e
  | none =>
    match tree.locate path with
    | .error fault => .error (.file fault)
    | .ok (_, some .directory) => .error (.file (.isDirectory path.raw))
    | .ok (place, _) => granted place path (tree.access place).write

/-- The bytes that can be read at a place. -/
def content (tree : FileTree) (place : Place) : List UInt8 :=
  ((tree.node? place).bind Node.bytes?).getD []

/-! ### Writing to what has been opened -/

/-- There is a device at a place. -/
def isDevice (tree : FileTree) (place : Place) : Bool :=
  match tree.node? place with
  | some (.device _) => true
  | _ => false

/-- The bytes of these that a place takes. -/
def taken (tree : FileTree) (place : Place) (bytes : List UInt8) : List UInt8 :=
  match (tree.access place).room with
  | none => bytes
  | some room => bytes.take room.size

/-- **Why a place does not take all of these bytes**, if it does not. -/
def overflow? (tree : FileTree) (place : Place) (bytes : List UInt8) : Option Refusal :=
  ((tree.access place).room.filter fun room => room.size < bytes.length).map Room.refusal

/-- **Writing bytes** to an opened place, instead of what a file has held. -/
def write (place : Place) (bytes : List UInt8) (tree : FileTree) : FileTree :=
  if tree.isDevice place then tree else tree.put place (.file (tree.taken place bytes))

end FileTree

end Corpus
