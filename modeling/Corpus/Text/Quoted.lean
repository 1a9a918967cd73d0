import Corpus.Text.Printable
import Corpus.Text.Raw

/-!
# Quoted text

The form in which raw text is shown inside a message: between quotation marks, on one line, with what
cannot be seen spelled out.

* The mark is an apostrophe, or a double quote for a text that holds apostrophes and no double quote.
* The mark and the backslash get a backslash before them; tab, line feed and carriage return have
  letters; any other unprintable character is its code point in hexadecimal, of two, four or eight
  digits.
-/

namespace Corpus

/-- The number in lower-case hexadecimal, filled with zeros to `width` digits. -/
def hexadecimal (width n : Nat) : Text := (Nat.toDigits 16 n).leftpad width '0'

/-- A character as it is shown between the marks `mark`. -/
def shownChar (mark c : Char) : Text :=
  if c = mark ∨ c = '\\' then ['\\', c]
  else if c = '\t' then ['\\', 't']
  else if c = '\n' then ['\\', 'n']
  else if c = '\r' then ['\\', 'r']
  else if Text.isPrintable c then [c]
  else if c.toNat < 0x100 then '\\' :: 'x' :: hexadecimal 2 c.toNat
  else if c.toNat < 0x10000 then '\\' :: 'u' :: hexadecimal 4 c.toNat
  else '\\' :: 'U' :: hexadecimal 8 c.toNat

/-- A raw character as it is shown between the marks `mark`. -/
def RawChar.shownBetween (mark : Char) : RawChar → Text
  | char c => shownChar mark c
  | surrogate n => escape n

namespace RawText

/-- The quotation mark for raw text. -/
def quoteMark (raw : RawText) : Char :=
  if raw.contains (.char '\x27') && !raw.contains (.char '\x22') then '\x22' else '\x27'

/-- **Quoted text.** -/
def quoted (raw : RawText) : Text :=
  let mark := raw.quoteMark
  mark :: (raw.flatMap (RawChar.shownBetween mark) ++ [mark])

end RawText

end Corpus
