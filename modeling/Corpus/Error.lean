import Corpus.Conll.Error
import Corpus.Json.Basic

/-!
# Errors

Everything that can end a reading, a writing or a run, by its cause. `Error.message` has the wording.
-/

namespace Corpus

/-- **A refusal of the system**, by its number and its reason. -/
structure Refusal where
  number : Nat
  reason : Text
  deriving DecidableEq

/-- **Faults of the file system.** Each names the path it was met at, if it was met at one. -/
inductive FileFault where
  /-- A part of the path does not exist. -/
  | missing (path : RawText)
  /-- A part of the path before the last is a file. -/
  | notDirectory (path : RawText)
  /-- The path is a directory. -/
  | isDirectory (path : RawText)
  /-- A part of the path, or the path, is longer than a name may be. -/
  | nameTooLong (path : RawText)
  /-- What was asked for at the path is not granted. -/
  | refused (refusal : Refusal) (path : RawText)
  /-- What was written is not taken. -/
  | unwritten (refusal : Refusal)
  deriving DecidableEq

/-- A refusal with its number in front. -/
def Refusal.message (refusal : Refusal) : Text :=
  "[Errno ".toList ++ Numeral.ofNat refusal.number ++ "] ".toList ++ refusal.reason

/-- A refusal and the path it was met at. -/
def Refusal.messageAt (path : RawText) (refusal : Refusal) : Text :=
  refusal.message ++ ": ".toList ++ RawText.quoted path

/-- The message of a fault, with its number. -/
def FileFault.message : FileFault → Text
  | missing path => Refusal.messageAt path ⟨2, "No such file or directory".toList⟩
  | notDirectory path => Refusal.messageAt path ⟨20, "Not a directory".toList⟩
  | isDirectory path => Refusal.messageAt path ⟨21, "Is a directory".toList⟩
  | nameTooLong path => Refusal.messageAt path ⟨36, "File name too long".toList⟩
  | refused refusal path => refusal.messageAt path
  | unwritten refusal => refusal.message

/-- **Errors by cause.** -/
inductive Error where
  /-- A row of a tab-separated record is malformed. -/
  | malformed (error : Conll.FormatError)
  /-- A numeral is beyond the digit limit. -/
  | numeral (fault : NumeralFault)
  /-- No format has this name. -/
  | unknownFormat (name : Text) (supported : List Text)
  /-- No record mode has this name. -/
  | unknownMode (name : Text)
  /-- A value is no truth value. -/
  | notBoolean (shown : RawText)
  /-- The format can only be written. -/
  | notReadable
  /-- The home directory is not known. -/
  | noHome
  /-- Bytes that have to be UTF-8 are not. -/
  | undecodable
  /-- Raw text that has to be encoded in UTF-8 holds lone surrogates. -/
  | unencodable (fault : EncodingFault)
  /-- A JSON value is nested too deeply. -/
  | tooDeep (container : Json.Container)
  /-- A path holds the character U+0000. -/
  | embeddedNull
  /-- A file was to be opened, but its option has no value. -/
  | noPath
  /-- The option of the target format has no value. -/
  | noTarget
  /-- The option of the number of workers has no value. -/
  | noWorkers
  /-- The file system refused. -/
  | file (fault : FileFault)
  deriving DecidableEq

/-- The message of a numeral beyond the limit. -/
def NumeralFault.message : NumeralFault → Text
  | tooLongToRead digits =>
    "Exceeds the limit (4300 digits) for integer string conversion: value has ".toList ++
      Numeral.ofNat digits ++
      " digits; use sys.set_int_max_str_digits() to increase the limit".toList
  | tooLongToWrite =>
    ("Exceeds the limit (4300 digits) for integer string conversion; ".toList ++
      "use sys.set_int_max_str_digits() to increase the limit".toList)

/-- The message of lone surrogates. The place of a single one is told with its escape, that of several
as a range. -/
def EncodingFault.message (fault : EncodingFault) : Text :=
  let place :=
    if fault.run = 0 then
      "character '".toList ++ RawChar.escape fault.first ++ "' in position ".toList ++
        Numeral.ofNat fault.position
    else
      "characters in position ".toList ++ Numeral.ofNat fault.position ++
        '-' :: Numeral.ofNat (fault.position + fault.run)
  "'utf-8' codec can't encode ".toList ++ place ++ ": surrogates not allowed".toList

/-- How a container is called. -/
def Json.Container.name : Json.Container → Text
  | array => "array".toList
  | object => "object".toList

/-- **The message of an error.** -/
def Error.message : Error → RawText
  | malformed error => error.message
  | numeral fault => fault.message
  | unknownFormat name supported =>
    ("Unknown format '".toList ++ name ++ "'. Supported formats: ".toList ++
      Text.joined ", ".toList supported : Text)
  | unknownMode name =>
    ("Unknown record mode '".toList ++ name ++ "'. Expected one of: block, line".toList : Text)
  | notBoolean shown =>
    ("Expected true/false, got '".toList : Text) ++ shown ++ (['\x27'] : Text)
  | notReadable => []
  | noHome => "Could not determine home directory.".toList
  | undecodable => "invalid UTF-8".toList
  | unencodable fault => fault.message
  | tooDeep container =>
    ("maximum recursion depth exceeded while decoding a JSON ".toList ++ container.name ++
      " from a unicode string".toList : Text)
  | embeddedNull => "embedded null byte".toList
  | noPath => "expected str, bytes or os.PathLike object, not list".toList
  | noTarget => "'list' object has no attribute 'lower'".toList
  | noWorkers => "'>' not supported between instances of 'list' and 'int'".toList
  | file fault => fault.message

end Corpus
