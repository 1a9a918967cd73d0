import Corpus.Json.Basic
import Corpus.Number.Numeral
import Corpus.Text.Quoted

/-!
# JSON values in messages

A value inside a message is shown in the notation of the option texts: `None`, `True` and `False` for
the words, a string as it is, and inside an array or object a string in quotation marks. Only a string as
it is can hold surrogates by themselves.
-/

namespace Corpus.Json

mutual

/-- A value inside an array or object. -/
def shownWithin : Json → Except NumeralFault Text
  | null => .ok "None".toList
  | bool value => .ok (if value then "True".toList else "False".toList)
  | integer value => Numeral.write value
  | number value => .ok value.text
  | string value => .ok value.quoted
  | array items => return '[' :: ((← shownItems items) ++ [']'])
  | object entries => return '\x7b' :: ((← shownEntries entries) ++ ['\x7d'])

/-- The items of an array, without its brackets. -/
def shownItems : List Json → Except NumeralFault Text
  | [] => .ok []
  | [item] => shownWithin item
  | item :: items => return (← shownWithin item) ++ ',' :: ' ' :: (← shownItems items)

/-- The entries of an object, without its braces. -/
def shownEntries : List (RawText × Json) → Except NumeralFault Text
  | [] => .ok []
  | [(key, value)] => return key.quoted ++ ':' :: ' ' :: (← shownWithin value)
  | (key, value) :: entries =>
    return key.quoted ++ ':' :: ' ' :: ((← shownWithin value) ++ ',' :: ' ' :: (← shownEntries entries))

end

/-- **A value in a message.** -/
def shown : Json → Except NumeralFault RawText
  | string value => .ok value
  | value => value.shownWithin.map .ofText

end Corpus.Json
