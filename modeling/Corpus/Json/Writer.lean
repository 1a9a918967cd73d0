import Corpus.Json.Basic
import Corpus.Number.Numeral

/-!
# Writing JSON

A value is written on one line, with a comma and a blank between items and a colon and a blank after a
key. A string keeps every character as it is but the quotation mark, the backslash and the characters
below U+0020, surrogates that stand by themselves too.
-/

namespace Corpus.Json

/-- A character as it stands in a written string. -/
def writtenChar (c : Char) : Text :=
  if c = '\x22' then ['\\', '\x22']
  else if c = '\\' then ['\\', '\\']
  else if c = '\n' then ['\\', 'n']
  else if c = '\r' then ['\\', 'r']
  else if c = '\t' then ['\\', 't']
  else if c = '\x0c' then ['\\', 'f']
  else if c = '\x08' then ['\\', 'b']
  else if c.toNat < 0x20 then '\\' :: 'u' :: (Nat.toDigits 16 c.toNat).leftpad 4 '0'
  else [c]

/-- A raw character as it stands in a written string. -/
def writtenRaw : RawChar → RawText
  | .char c => writtenChar c
  | .surrogate n => [.surrogate n]

/-- A string between its quotation marks. -/
def writtenString (raw : RawText) : RawText :=
  .char '\x22' :: (raw.flatMap writtenRaw ++ [.char '\x22'])

/-- The text of a number; a value that is no finite number is a word. -/
def writtenNumber : Binary64 → Text
  | .nan => "NaN".toList
  | .infinite negative => if negative then "-Infinity".toList else "Infinity".toList
  | value => value.text

mutual

/-- **Writing.** The value on one line. -/
def written : Json → RawText
  | null => "null".toList
  | bool value => if value then "true".toList else "false".toList
  | integer value => Numeral.ofInt value
  | number value => writtenNumber value
  | string value => writtenString value
  | array items => .char '[' :: (writtenItems items ++ [.char ']'])
  | object entries => .char '\x7b' :: (writtenEntries entries ++ [.char '\x7d'])

/-- The items of an array, without its brackets. -/
def writtenItems : List Json → RawText
  | [] => []
  | [item] => written item
  | item :: items => written item ++ .char ',' :: .char ' ' :: writtenItems items

/-- The entries of an object, without its braces. -/
def writtenEntries : List (RawText × Json) → RawText
  | [] => []
  | [(key, value)] => writtenString key ++ .char ':' :: .char ' ' :: written value
  | (key, value) :: entries =>
    writtenString key ++
      .char ':' :: .char ' ' :: (written value ++ .char ',' :: .char ' ' :: writtenEntries entries)

end

/-! ### The digit limit -/

mutual

/-- All integers of a value keep to the digit limit. -/
def fits : Json → Bool
  | integer value => (Numeral.ofNat value.natAbs).length ≤ Numeral.digitLimit
  | array items => fitItems items
  | object entries => fitEntries entries
  | _ => true

/-- All integers of items keep to the digit limit. -/
def fitItems : List Json → Bool
  | [] => true
  | item :: items => fits item && fitItems items

/-- All integers of entries keep to the digit limit. -/
def fitEntries : List (RawText × Json) → Bool
  | [] => true
  | (_, value) :: entries => fits value && fitEntries entries

end

/-- **Writing within the digit limit.** -/
def writtenWithin (value : Json) : Except NumeralFault RawText :=
  if value.fits then .ok value.written else .error .tooLongToWrite

end Corpus.Json
