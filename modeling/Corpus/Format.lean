import Corpus.Conll.Reader
import Corpus.Conll.Writer
import Corpus.English.Reader
import Corpus.Record

/-!
# Formats

The formats that a corpus can be in. A codec is a format with the options it is used with; it reads one
record and writes one sentence.
-/

namespace Corpus

/-- **Format.** `lines` has no reader of its own: it is what the line formats have in common. -/
inductive Format where
  | conll
  | tokenized
  | characters
  | english
  | lines
  deriving DecidableEq

/-- How a format is called. -/
def Format.name : Format → Text
  | conll => "conll-sentence".toList
  | tokenized => "tokenized-text".toList
  | characters => "untokenized-text".toList
  | english => "english-text".toList
  | lines => []

/-- The records of a format. -/
def Format.mode : Format → RecordMode
  | conll => .block
  | _ => .line

/-- **Codec.** A format with its options. -/
structure Codec where
  format : Format
  options : Options := {}
  deriving DecidableEq

namespace Codec

/-- **Reading a record.** `none` for a record without content. -/
def read (codec : Codec) (docid : Option Text) (record : Text) :
    Except Error (Option Sentence) :=
  match codec.format with
  | .conll => Conll.read codec.options docid record
  | .tokenized => .ok (LineText.readTokenized docid record)
  | .characters => .ok (LineText.readCharacters docid record)
  | .english => .ok (English.read docid record)
  | .lines => .error .notReadable

/-- **Writing a sentence.** -/
def write (codec : Codec) (s : Sentence) : Except Error Text :=
  match codec.format with
  | .conll => Conll.write codec.options s
  | _ => LineText.write s

/-- What is logged while a record is read. -/
def log (codec : Codec) (record : Text) : List Log.Entry :=
  match codec.format with
  | .conll => Conll.log record
  | .english => English.log record
  | _ => []

/-- The records of a stream. -/
def records (codec : Codec) (stream : Stream) : List Text := stream.records codec.format.mode

/-- **Reading record by record.** The sentences up to the first record that is refused, and its
error. -/
def readAll (codec : Codec) (docid : Option Text) :
    List Text → List Sentence × Option Error
  | [] => ([], none)
  | record :: records =>
    match codec.read docid record with
    | .error e => ([], some e)
    | .ok found =>
      let (sentences, fault) := readAll codec docid records
      (found.toList ++ sentences, fault)

/-- What is logged while records are read up to the first one that is refused. -/
def logAll (codec : Codec) : List Text → List Log.Entry
  | [] => []
  | record :: records =>
    codec.log record ++
      match codec.read none record with
      | .error _ => []
      | .ok _ => logAll codec records

end Codec

end Corpus
