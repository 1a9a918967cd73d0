import Corpus.Text.Blank
import Corpus.Text.Digit

/-!
# Integer numerals

Decimal numerals with a limit: a numeral of more than 4300 digits is neither read nor written.

* `Numeral.isInteger` is the class of an optional minus sign and at least one ASCII digit.
* `Numeral.read` gives the value of such a text, `Numeral.write` the shortest numeral of a value.
* `Numeral.readLoose?` reads what a person may type: blanks around it, a sign, single underscores
  between digits, and the decimal digits of any script.
-/

namespace Corpus

/-- **Why a number was refused.** -/
inductive NumeralFault where
  /-- A numeral of `digits` digits is too long to be read. -/
  | tooLongToRead (digits : Nat)
  /-- The numeral of a value is too long to be written. -/
  | tooLongToWrite
  deriving DecidableEq

namespace Numeral

/-- **The digit limit.** The greatest number of digits, leading zeros included and the sign not. -/
def digitLimit : Nat := 4300

/-- The numeral of a natural number. -/
def ofNat (n : Nat) : Text := Nat.toDigits 10 n

/-- **The numeral of an integer.** No leading zeros, and a minus sign before a negative one. -/
def ofInt : Int → Text
  | .ofNat n => ofNat n
  | .negSucc n => '-' :: ofNat (n + 1)

/-- The digits of a text that may start with a minus sign. -/
def digits : Text → Text
  | '-' :: rest => rest
  | text => text

/-- At least one character, and only ASCII digits. -/
def isNatural (text : Text) : Bool := !text.isEmpty && text.all Char.isDigit

/-- **Integer numerals.** An optional minus sign and at least one ASCII digit. -/
def isInteger (text : Text) : Bool := isNatural (digits text)

/-- The value of an integer numeral of any length. -/
def value : Text → Int
  | '-' :: rest => -(Nat.ofDigitChars 10 rest 0 : Int)
  | text => (Nat.ofDigitChars 10 text 0 : Int)

/-- **Reading.** The value of an integer numeral within the digit limit. -/
def read (text : Text) : Except NumeralFault Int :=
  if (digits text).length ≤ digitLimit then .ok (value text)
  else .error (.tooLongToRead (digits text).length)

/-- **Writing.** The numeral of a value, if it keeps to the digit limit. -/
def write (n : Int) : Except NumeralFault Text :=
  if (ofNat n.natAbs).length ≤ digitLimit then .ok (ofInt n) else .error .tooLongToWrite

/-! ### Typed numerals -/

/-- The values of digits of any script, with single underscores between them. -/
def looseDigits? : Text → Option (List Nat)
  | [] => none
  | [c] => (Text.digitValue? c).map ([·])
  | c :: '_' :: rest => return (← Text.digitValue? c) :: (← looseDigits? rest)
  | c :: rest => return (← Text.digitValue? c) :: (← looseDigits? rest)

/-- White space around a typed numeral; the separators U+001C to U+001F are none here. -/
def isMargin (c : Char) : Bool := Text.isBlank c && !(0x1C ≤ c.toNat && c.toNat ≤ 0x1F)

/-- **Typed numerals.** `none` when the text is no numeral or one beyond the digit limit. -/
def readLoose? (text : Text) : Option Int :=
  let (negative, unsigned) :=
    match text.trimmed isMargin with
    | '-' :: rest => (true, rest)
    | '+' :: rest => (false, rest)
    | rest => (false, rest)
  match looseDigits? unsigned with
  | none => none
  | some values =>
    if digitLimit < values.length then none
    else
      let magnitude : Nat := values.foldl (fun n digit => 10 * n + digit) 0
      some (if negative then -magnitude else magnitude)

end Numeral

end Corpus
