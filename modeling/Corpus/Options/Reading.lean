import Corpus.Dictionary
import Corpus.Error
import Corpus.Json.Shown
import Corpus.Log
import Corpus.Options.Basic
import Corpus.Text.Lower

/-!
# Options from values

Options are given as an object of JSON values.

* A truth value is a Boolean, an integer (0 is false), or anything whose text without the blanks around
  it is one of `true`, `1`, `yes`, `on`, `false`, `0`, `no`, `off`, in any case of letters.
* A null leaves an option as it is, and a key that is no option is passed over.
* The first value that is no truth value ends the reading.
-/

namespace Corpus

/-- The texts of true. -/
def trueWords : List Text := ["true".toList, "1".toList, "yes".toList, "on".toList]

/-- The texts of false. -/
def falseWords : List Text := ["false".toList, "0".toList, "no".toList, "off".toList]

/-- The truth value of a text. -/
def truthOfText? (text : Text) : Option Bool :=
  let plain := text.stripped.lower
  if plain ∈ trueWords then some true else if plain ∈ falseWords then some false else none

/-- The truth value of raw text. No word of truth holds a lone surrogate. -/
def truthOfRaw? (raw : RawText) : Option Bool :=
  match raw.toText with
  | .ok text => truthOfText? text
  | .error _ => none

/-- **Truth.** -/
def Json.truth : Json → Except Error Bool
  | bool value => .ok value
  | integer value => .ok (value ≠ 0)
  | value =>
    match value.shown with
    | .error fault => .error (.numeral fault)
    | .ok shown =>
      match truthOfRaw? shown with
      | some truth => .ok truth
      | none => .error (.notBoolean shown)

/-- **The options by key.** -/
inductive OptionKey where
  | joinCategoryToPos
  | addPosAsAttribute
  deriving DecidableEq

namespace OptionKey

/-- How an option is called. -/
def name : OptionKey → RawText
  | joinCategoryToPos => "join_category_to_pos".toList
  | addPosAsAttribute => "add_pos_as_attribute".toList

/-- The option of a name. -/
def ofName? (text : RawText) : Option OptionKey :=
  [joinCategoryToPos, addPosAsAttribute].find? fun key => key.name = text

end OptionKey

namespace Options

/-- The state of an option. -/
def get (options : Options) : OptionKey → Bool
  | .joinCategoryToPos => options.joinCategoryToPos
  | .addPosAsAttribute => options.addPosAsAttribute

/-- An option switched on or off. -/
def set (options : Options) (key : OptionKey) (state : Bool) : Options :=
  match key with
  | .joinCategoryToPos => { options with joinCategoryToPos := state }
  | .addPosAsAttribute => { options with addPosAsAttribute := state }

/-- **Reading options**, starting from given ones. -/
def ofEntries (options : Options) : List (RawText × Json) → Except Error Options
  | [] => .ok options
  | (key, value) :: rest =>
    match OptionKey.ofName? key, value with
    | none, _ => ofEntries options rest
    | some _, .null => ofEntries options rest
    | some key, value =>
      match value.truth with
      | .error e => .error e
      | .ok state => ofEntries (options.set key state) rest

/-- What is logged while options are read: the keys passed over. -/
def log : List (RawText × Json) → List Log.Entry
  | [] => []
  | (key, value) :: rest =>
    match OptionKey.ofName? key, value with
    | none, _ =>
      { level := .debug
        source := "textformats.config".toList
        text := "Ignoring unknown format option '".toList ++ key.shown ++ ['\x27'] } :: log rest
    | some _, .null => log rest
    | some _, value =>
      match value.truth with
      | .error _ => []
      | .ok _ => log rest

/-- The options of an object; any other value says nothing. -/
def ofJson : Json → Except Error Options
  | .object entries => ofEntries {} entries
  | _ => .ok {}

/-- What is logged while the options of a value are read. -/
def logJson : Json → List Log.Entry
  | .object entries => log entries
  | _ => []

/-- The options in one line. -/
def shown (options : Options) : Text :=
  let word (state : Bool) : Text := if state then "True".toList else "False".toList
  "FormatOptions(join_category_to_pos=".toList ++ word options.joinCategoryToPos ++
    ", add_pos_as_attribute=".toList ++ word options.addPosAsAttribute ++ [')']

/-- Entries written over those of a mapping; a null writes nothing. -/
def merge (overrides config : List (RawText × Json)) : List (RawText × Json) :=
  overrides.foldl
    (fun merged entry =>
      match entry.2 with
      | .null => merged
      | value => Dictionary.insert entry.1 value merged)
    config

/-- **Options in effect**: what overrides say, then what the configuration says, then off. -/
def load (overrides config : List (RawText × Json)) : Except Error Options :=
  ofEntries {} (merge overrides config)

end Options

end Corpus
