import Corpus.Text.Digit
import Corpus.Text.Quoted

/-!
# Matching arguments against options

How the arguments of a command line are told apart, for any table of options. Arguments are raw text: a
byte that is no UTF-8 arrives as a lone surrogate.

* An option may be named in full, or by a beginning of a long name that no other long name shares. A
  value may follow a long name after an equals sign, and a short name directly.
* What starts with a hyphen and is no option is an unknown one, unless it is a negative number or holds
  a space. A hyphen by itself and all after a double hyphen are no options.
* An option with a value takes the next argument if that is no option.
* A double hyphen that is joined to an option as its value is taken away and leaves it without one.
-/

namespace Corpus.CommandLine

/-- **Option.** Its names, and whether a value follows it. -/
structure OptionSpec (α : Type) where
  names : List Text
  takesValue : Bool
  meaning : α

/-- How an option is called in a message. -/
def OptionSpec.shown {α : Type} (spec : OptionSpec α) : Text := Text.joined ['/'] spec.names

/-- **Usage error**: the program that complains, and why. -/
structure UsageError where
  program : Text
  message : Text
  deriving DecidableEq

/-- A usage error on one line. -/
def UsageError.line (e : UsageError) : Text := e.program ++ ": error: ".toList ++ e.message

/-- **An option as it was found**: under which name, and with which text after it in the same
argument. -/
structure Found (α : Type) where
  spec : OptionSpec α
  name : Text
  attached : Option RawText := none

/-- **The kind of an argument.** -/
inductive Kind (α : Type) where
  | operand
  | unknown
  | option (found : Found α)

variable {α : Type}

/-- A table of options as pairs of a name and its option. -/
def byName (table : List (OptionSpec α)) : List (Text × OptionSpec α) :=
  table.flatMap fun spec => spec.names.map fun name => (name, spec)

/-- The option that an argument names in full. -/
def named? (table : List (OptionSpec α)) (argument : RawText) : Option (Text × OptionSpec α) :=
  (byName table).find? fun entry => entry.1 = argument

/-- All ways in which an argument can be an option that is not named in full. -/
def candidates (table : List (OptionSpec α)) (argument : RawText) : List (Found α) :=
  match argument with
  | .char '-' :: .char '-' :: _ =>
    let (start, attached) :=
      match breakAt (.char '=') argument with
      | some (start, value) => (start, some value)
      | none => (argument, none)
    (byName table).filterMap fun (name, spec) =>
      if start.isPrefixOf (RawText.ofText name) then some { spec, name, attached } else none
  | .char '-' :: letter :: rest =>
    (byName table).filterMap fun (name, spec) =>
      if RawText.ofText name = [.char '-', letter] then some { spec, name, attached := some rest }
      else if argument.isPrefixOf (RawText.ofText name) then some { spec, name }
      else none
  | _ => []

/-- Digits of any script. -/
def areDigits (text : Text) : Bool := text.all fun c => (Text.digitValue? c).isSome

/-- A negative number: a hyphen and digits, which may have a point before or among them. A line feed at
the end is passed over. -/
def isNegativeNumber (argument : RawText) : Bool :=
  let text := (argument.toText.toOption).getD []
  let plain := if text.getLast? = some '\n' then text.dropLast else text
  match plain with
  | '-' :: number =>
    match breakAt '.' number with
    | some (whole, fraction) => areDigits whole && areDigits fraction && !fraction.isEmpty
    | none => areDigits number && !number.isEmpty
  | _ => false

/-- **Telling an argument.** -/
def classify (program : Text) (table : List (OptionSpec α)) (argument : RawText) :
    Except UsageError (Kind α) :=
  if argument.head? ≠ some (.char '-') then .ok .operand
  else
    match named? table argument with
    | some (name, spec) => .ok (.option { spec, name })
    | none =>
      if argument = [.char '-'] then .ok .operand
      else
        let assigned :=
          match breakAt (.char '=') argument with
          | some (start, value) =>
            (named? table start).map fun (name, spec) =>
              ({ spec, name, attached := some value } : Found α)
          | none => none
        match assigned with
        | some found => .ok (.option found)
        | none =>
          match candidates table argument with
          | [found] => .ok (.option found)
          | [] =>
            if isNegativeNumber argument || argument.contains (.char ' ') then .ok .operand
            else .ok .unknown
          | several =>
            .error {
              program
              message := "ambiguous option: ".toList ++ argument.shown ++ " could match ".toList ++
                Text.joined ", ".toList (several.map Found.name) }

/-- **Telling all arguments.** After a double hyphen there are no options. -/
def classifyAll (program : Text) (table : List (OptionSpec α)) :
    List RawText → Except UsageError (List (RawText × Kind α))
  | [] => .ok []
  | argument :: rest =>
    if argument = ['-', '-'] then
      .ok ((argument, .unknown) :: rest.map fun operand => (operand, .operand))
    else do
      let kind ← classify program table argument
      let kinds ← classifyAll program table rest
      return (argument, kind) :: kinds

/-- **An option with its value**, ready to take effect. -/
structure Setting (α : Type) where
  spec : OptionSpec α
  value : Option RawText := none

/-- The setting of an option to a value. A double hyphen is none. -/
def Setting.ofRaw (spec : OptionSpec α) (value : RawText) : Setting α :=
  { spec, value := if value = ['-', '-'] then none else some value }

/-- **What an option does**: settings, and the option among them that still needs the next argument as
its value. -/
structure Step (α : Type) where
  settings : List (Setting α) := []
  needsValue : Option (OptionSpec α) := none

/-- A complaint about an option. -/
def complaint (program : Text) (spec : OptionSpec α) (message : Text) : UsageError :=
  { program, message := "argument ".toList ++ spec.shown ++ ": ".toList ++ message }

/-- A value for an option that takes none. -/
def superfluous (program : Text) (spec : OptionSpec α) (value : RawText) : UsageError :=
  complaint program spec ("ignored explicit argument ".toList ++ value.quoted)

/-- A step with one more setting in front. -/
def Step.after (setting : Setting α) (step : Step α) : Step α :=
  { step with settings := setting :: step.settings }

/-- **An option followed by text in the same argument.** The text is the value of an option that takes
one. A short option without a value may be followed by the letter of another short option, for which
the same holds. -/
def together (program : Text) (table : List (OptionSpec α)) (spec : OptionSpec α)
    (isShort : Bool) : RawText → Except UsageError (Step α)
  | [] =>
    if spec.takesValue then .ok { settings := [.ofRaw spec []] }
    else .error (superfluous program spec [])
  | letter :: rest =>
    if spec.takesValue then .ok { settings := [.ofRaw spec (letter :: rest)] }
    else if !isShort then .error (superfluous program spec (letter :: rest))
    else
      match named? table [.char '-', letter] with
      | none => .error (superfluous program spec (letter :: rest))
      | some (_, next) =>
        if rest ≠ [] then (together program table next true rest).map (Step.after { spec })
        else if next.takesValue then .ok { settings := [{ spec }], needsValue := some next }
        else .ok { settings := [{ spec }, { spec := next }] }

/-- The name of a short option: a hyphen and no second one. -/
def isShortName : Text → Bool
  | '-' :: '-' :: _ => false
  | _ => true

/-- What an option does that was found in an argument. -/
def Found.step (program : Text) (table : List (OptionSpec α)) (found : Found α) :
    Except UsageError (Step α) :=
  match found.attached with
  | some text => together program table found.spec (isShortName found.name) text
  | none =>
    if found.spec.takesValue then .ok { needsValue := some found.spec }
    else .ok { settings := [{ spec := found.spec }] }

/-- **Enacting arguments.** Every setting takes effect on a state as soon as its option has been read;
what is no option and no value of one is left over. -/
def enact {ε σ : Type} (program : Text) (table : List (OptionSpec α)) (complain : UsageError → ε)
    (effect : σ → Setting α → Except ε σ) :
    σ → List (RawText × Kind α) → Except ε (σ × List RawText)
  | state, [] => .ok (state, [])
  | state, (argument, .operand) :: rest | state, (argument, .unknown) :: rest => do
    let (state, leftOver) ← enact program table complain effect state rest
    return (state, argument :: leftOver)
  | state, (_, .option found) :: rest =>
    match found.step program table with
    | .error e => .error (complain e)
    | .ok step =>
      match step.needsValue, rest with
      | none, rest => do
        let state ← step.settings.foldlM effect state
        enact program table complain effect state rest
      | some spec, (value, .operand) :: rest => do
        let state ← (step.settings ++ [Setting.ofRaw spec value]).foldlM effect state
        enact program table complain effect state rest
      | some spec, _ =>
        .error (complain (complaint program spec "expected one argument".toList))

end Corpus.CommandLine
