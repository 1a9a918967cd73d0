import Corpus.Dictionary
import Corpus.Format
import Corpus.Text.Lower

/-!
# Registry of formats

Formats are found by name or alias, in any case of letters.

* Registering an entry writes it under its name and then under each alias. What stood there before is
  replaced, and the key keeps its place.
* The entries of a registry are its values in the order of their keys, each once.
-/

namespace Corpus

/-- **Entry.** What is registered about a format. `format` is what the formats of the registry are made
of. `mode` describes the records and need not be the name of a record mode; the records of the format are
what the format says. -/
structure FormatEntry (F : Type := Format) where
  name : Text
  aliases : List Text
  format : F
  mode : Text
  description : Text
  deriving DecidableEq

/-- **Registry.** Entries under lower-case names. -/
abbrev Registry (F : Type := Format) := Dictionary (FormatEntry F)

namespace Registry

section Entries

variable {F : Type}

/-- **Registering.** -/
def register (entry : FormatEntry F) (registry : Registry F) : Registry F :=
  (entry.name :: entry.aliases).foldl (fun r name => Dictionary.insert name.lower entry r) registry

/-- **Looking up a name.** The empty name is never found. -/
def find? (name : Text) (registry : Registry F) : Option (FormatEntry F) :=
  if name = [] then none else Dictionary.get? name.lower registry

/-- The entries, each once. -/
def entries [DecidableEq F] (registry : Registry F) : List (FormatEntry F) :=
  (Dictionary.values registry).eraseDups

/-- The names of the entries. -/
def names [DecidableEq F] (registry : Registry F) : List Text :=
  registry.entries.map FormatEntry.name

end Entries

/-- The codec of a name. -/
def codec (name : Text) (options : Options) (registry : Registry) : Except Error Codec :=
  match registry.find? name with
  | some entry => .ok { format := entry.format, options }
  | none => .error (.unknownFormat name registry.names)

/-- The entry of a format. -/
def entryOf (format : Format) (aliases : List String) (description : String) : FormatEntry :=
  { name := format.name, aliases := aliases.map String.toList, format, mode := format.mode.name
    description := description.toList }

/-- **The formats that there are.** -/
def standard : Registry :=
  [entryOf .conll ["conll", "conllu", "conll-u"]
      "Tab-separated CoNLL/CoNLL-U dependency annotation, blank line between sentences.",
   entryOf .tokenized ["tokenized"] "One sentence per line, tokens separated by single spaces.",
   entryOf .characters ["untokenized", "chars"]
      "One sentence per line, every character is a token.",
   entryOf .english ["english", "raw"]
      "Raw English text, one sentence per line, Penn Treebank tokenization."].foldl
    (fun registry entry => registry.register entry) []

end Registry

end Corpus
