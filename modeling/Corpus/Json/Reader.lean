import Corpus.Dictionary
import Corpus.Json.Basic
import Corpus.Number.Numeral

/-!
# Reading JSON

A reader takes a value from the front of a text and leaves the rest.

* Blanks are space, tab, line feed and carriage return; they may stand around every token.
* A number without fraction and exponent is an integer and keeps to a digit limit. `NaN`, `Infinity`
  and `-Infinity` are numbers.
* A string holds no character below U+0020 as it is. An escaped pair of surrogates is one character; a
  surrogate by itself is kept as it is.
* Of equal keys in an object the last value counts, in the place of the first.
* Arrays and objects are nested up to a given depth. The bracket that would go deeper ends the reading,
  whatever comes after it.
-/

namespace Corpus.Json

/-- **Why a text was refused.** -/
inductive Fault where
  /-- The text is no JSON value. -/
  | malformed
  /-- An integer has more digits than the limit allows. -/
  | tooLong (digits : Nat)
  /-- An array or an object is nested too deeply. -/
  | tooDeep (container : Container)
  deriving DecidableEq

/-- The blanks between tokens. -/
def isSpace (c : Char) : Bool := c = ' ' || c = '\t' || c = '\n' || c = '\r'

/-- The text from the first character that is no blank. -/
def skipSpace (text : Text) : Text := text.dropWhile isSpace

/-! ### Strings -/

/-- The value of a hexadecimal digit. -/
def hexDigit? (c : Char) : Option Nat :=
  if c.isDigit then some (c.toNat - 0x30)
  else if 'a' ≤ c ∧ c ≤ 'f' then some (c.toNat - 0x61 + 10)
  else if 'A' ≤ c ∧ c ≤ 'F' then some (c.toNat - 0x41 + 10)
  else none

/-- The number spelled by four hexadecimal digits. -/
def hexQuad? (a b c d : Char) : Option Nat :=
  return (((← hexDigit? a) * 16 + (← hexDigit? b)) * 16 + (← hexDigit? c)) * 16 + (← hexDigit? d)

/-- The character of an escape of one letter. -/
def escaped? : Char → Option Char
  | '\x22' => some '\x22'
  | '\\' => some '\\'
  | '/' => some '/'
  | 'b' => some '\x08'
  | 'f' => some '\x0c'
  | 'n' => some '\n'
  | 'r' => some '\r'
  | 't' => some '\t'
  | _ => none

/-- The units of a string after its opening mark, and the text after its closing mark. A unit is a
code point or a surrogate that was spelled with an escape. -/
def stringUnits : Text → Except Fault (List Nat × Text)
  | [] => .error .malformed
  | '\x22' :: rest => .ok ([], rest)
  | '\\' :: 'u' :: a :: b :: c :: d :: rest =>
    match hexQuad? a b c d with
    | none => .error .malformed
    | some code => (stringUnits rest).map fun parts => (code :: parts.1, parts.2)
  | '\\' :: c :: rest =>
    match escaped? c with
    | none => .error .malformed
    | some e => (stringUnits rest).map fun parts => (e.toNat :: parts.1, parts.2)
  | c :: rest =>
    if c.toNat < 0x20 then .error .malformed
    else (stringUnits rest).map fun parts => (c.toNat :: parts.1, parts.2)

/-- The raw text of units: a high and a low surrogate after it are one character. -/
def joinSurrogates : List Nat → RawText
  | [] => []
  | [unit] => [.ofCode unit]
  | high :: low :: rest =>
    if 0xD800 ≤ high ∧ high ≤ 0xDBFF ∧ 0xDC00 ≤ low ∧ low ≤ 0xDFFF then
      .ofCode (0x10000 + (high - 0xD800) * 0x400 + (low - 0xDC00)) :: joinSurrogates rest
    else .ofCode high :: joinSurrogates (low :: rest)

/-- The string after its opening mark. -/
def readString (text : Text) : Except Fault (RawText × Text) :=
  (stringUnits text).map fun parts => (joinSurrogates parts.1, parts.2)

/-! ### Numbers -/

/-- The digits at the front of a text and what follows them. -/
def digitRun (text : Text) : Text × Text := text.span Char.isDigit

/-- The digits of an integer part, without a superfluous zero at the front. -/
def integerPart? : Text → Option (Text × Text)
  | '0' :: rest => some (['0'], rest)
  | text =>
    let (digits, rest) := digitRun text
    if digits.isEmpty then none else some (digits, rest)

/-- The digits of a fraction, if a point with a digit behind it comes next. -/
def fractionPart : Text → Option Text × Text
  | '.' :: text =>
    let (digits, rest) := digitRun text
    if digits.isEmpty then (none, '.' :: text) else (some digits, rest)
  | text => (none, text)

/-- The value of an exponent, if a letter e, perhaps a sign, and a digit come next. -/
def exponentPart (text : Text) : Option Int × Text :=
  let signed (negative : Bool) (unsigned : Text) : Option Int × Text :=
    let (digits, rest) := digitRun unsigned
    if digits.isEmpty then (none, text)
    else
      let magnitude : Int := Nat.ofDigitChars 10 digits 0
      (some (if negative then -magnitude else magnitude), rest)
  match text with
  | e :: rest =>
    if e = 'e' ∨ e = 'E' then
      match rest with
      | '-' :: unsigned => signed true unsigned
      | '+' :: unsigned => signed false unsigned
      | unsigned => signed false unsigned
    else (none, text)
  | [] => (none, text)

/-- The number at the front of a text. Its sign has been read. -/
def readNumber (digitLimit : Option Nat) (negative : Bool) (text : Text) :
    Except Fault (Json × Text) :=
  match integerPart? text with
  | none => .error .malformed
  | some (whole, afterWhole) =>
    let (fraction, afterFraction) := fractionPart afterWhole
    let (exponent, rest) := exponentPart afterFraction
    match fraction, exponent with
    | none, none =>
      if digitLimit.any fun limit => limit < whole.length then .error (.tooLong whole.length)
      else
        let magnitude : Int := Nat.ofDigitChars 10 whole 0
        .ok (.integer (if negative then -magnitude else magnitude), rest)
    | _, _ =>
      let fractionDigits := fraction.getD []
      let coefficient := Nat.ofDigitChars 10 (whole ++ fractionDigits) 0
      let power := exponent.getD 0 - fractionDigits.length
      .ok (.number (.ofDecimal negative coefficient power), rest)

/-! ### Values -/

/-- The values that are words. -/
def words : List (Text × Json) :=
  [("null".toList, .null), ("true".toList, .bool true), ("false".toList, .bool false),
   ("NaN".toList, .number .nan), ("Infinity".toList, .number (.infinite false)),
   ("-Infinity".toList, .number (.infinite true))]

/-- The word at the front of a text. -/
def readWord? (text : Text) : Option (Json × Text) :=
  words.findSome? fun word => (Text.after? word.1 text).map fun rest => (word.2, rest)

mutual

/-- The value at the front of a text, nested up to `depth` levels. A level of nesting takes two steps and
at least one character, so twice the length of a text is `fuel` enough. -/
def readValue (digitLimit : Option Nat) :
    (depth fuel : Nat) → Text → Except Fault (Json × Text)
  | _, 0, _ => .error .malformed
  | depth, fuel + 1, text =>
    match readWord? text with
    | some found => .ok found
    | none =>
      match text with
      | '\x22' :: rest => (readString rest).map fun parts => (.string parts.1, parts.2)
      | '-' :: rest => readNumber digitLimit true rest
      | '[' :: rest =>
        match depth with
        | 0 => .error (.tooDeep .array)
        | depth + 1 =>
          match skipSpace rest with
          | ']' :: rest => .ok (.array [], rest)
          | rest =>
            (readItems digitLimit depth fuel rest).map fun parts => (.array parts.1, parts.2)
      | '\x7b' :: rest =>
        match depth with
        | 0 => .error (.tooDeep .object)
        | depth + 1 =>
          match skipSpace rest with
          | '\x7d' :: rest => .ok (.object [], rest)
          | rest =>
            (readEntries digitLimit depth fuel rest).map fun parts =>
              (.object (Dictionary.insertAll parts.1 []), parts.2)
      | text => readNumber digitLimit false text

/-- The items of an array up to its closing bracket. -/
def readItems (digitLimit : Option Nat) :
    (depth fuel : Nat) → Text → Except Fault (List Json × Text)
  | _, 0, _ => .error .malformed
  | depth, fuel + 1, text => do
    let (item, rest) ← readValue digitLimit depth fuel text
    match skipSpace rest with
    | ']' :: rest => .ok ([item], rest)
    | ',' :: rest =>
      let (items, rest) ← readItems digitLimit depth fuel (skipSpace rest)
      .ok (item :: items, rest)
    | _ => .error .malformed

/-- The entries of an object up to its closing brace. -/
def readEntries (digitLimit : Option Nat) :
    (depth fuel : Nat) → Text → Except Fault (List (RawText × Json) × Text)
  | _, 0, _ => .error .malformed
  | depth, fuel + 1, text => do
    match text with
    | '\x22' :: rest =>
      let (key, rest) ← readString rest
      match skipSpace rest with
      | ':' :: rest =>
        let (value, rest) ← readValue digitLimit depth fuel (skipSpace rest)
        match skipSpace rest with
        | '\x7d' :: rest => .ok ([(key, value)], rest)
        | ',' :: rest =>
          let (entries, rest) ← readEntries digitLimit depth fuel (skipSpace rest)
          .ok ((key, value) :: entries, rest)
        | _ => .error .malformed
      | _ => .error .malformed
    | _ => .error .malformed

end

/-- **Reading.** The value that the whole text is, nested up to `depth` levels and its integers within
`digitLimit` if one is given. -/
def read (digitLimit : Option Nat) (depth : Nat) (text : Text) : Except Fault Json := do
  let (value, rest) ← readValue digitLimit depth (2 * text.length + 2) (skipSpace text)
  if (skipSpace rest).isEmpty then .ok value else .error .malformed

end Corpus.Json
