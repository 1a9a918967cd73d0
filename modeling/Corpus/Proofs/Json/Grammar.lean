import Corpus.Json.Reader
import Corpus.Proofs.Number.Numeral

/-!
# The grammar of JSON

What a text has to look like to spell a value, said without a reader.

* Tokens: blanks, string literals, numbers and words. A literal spells units, and these are raw text.
* `Spells` has one case for each kind of value. Items and entries have blanks around their commas, and
  entries also around the colon after a name.
* A document is a value with blanks around it.
* `Beginning` says how far a document may go until a value is due. Where an integer of too many digits
  stands at such a place, or a bracket that goes too deep, the document exceeds its limits, whatever
  comes after it.

Integers keep to a digit limit, if there is one. Values are nested up to a depth, which counts the levels
that are left: an array or an object takes one of them for itself, and its items have the rest.
-/

namespace Corpus.Json

/-! ### Blanks and marks -/

/-- **Blanks.** -/
def IsSpaces (text : Text) : Prop := ∀ c ∈ text, isSpace c = true

/-- **A mark** with the blanks around it. -/
def IsMark (mark : Char) (text : Text) : Prop :=
  ∃ before after, IsSpaces before ∧ IsSpaces after ∧ text = before ++ mark :: after

/-! ### Strings -/

/-- **Units of a string.** What stands between quotation marks, and the units that it spells. -/
inductive Units : Text → List Nat → Prop
  | nil : Units [] []
  | char {c : Char} {text : Text} {units : List Nat} (hlow : 0x20 ≤ c.toNat) (hquote : c ≠ '\x22')
      (hescape : c ≠ '\\') (h : Units text units) : Units (c :: text) (c.toNat :: units)
  | escape {letter c : Char} {text : Text} {units : List Nat} (hletter : escaped? letter = some c)
      (h : Units text units) : Units ('\\' :: letter :: text) (c.toNat :: units)
  | code {a b c d : Char} {text : Text} {units : List Nat} {unit : Nat}
      (hunit : hexQuad? a b c d = some unit) (h : Units text units) :
      Units ('\\' :: 'u' :: a :: b :: c :: d :: text) (unit :: units)

/-- **A string literal** and its raw text. -/
inductive Literal : Text → RawText → Prop
  | quoted {body : Text} {units : List Nat} (h : Units body units) :
      Literal ('\x22' :: (body ++ ['\x22'])) (joinSurrogates units)

/-- **The name of an entry** with its colon, and the key that it is. -/
inductive Name : Text → RawText → Prop
  | colon {literal colon : Text} {key : RawText} (h : Literal literal key) (hcolon : IsMark ':' colon) :
      Name (literal ++ colon) key

/-! ### Numbers -/

/-- **Whole digits**: a zero, or digits of which the first is none. -/
def IsWhole (digits : Text) : Prop :=
  Numeral.IsDigits digits ∧ (digits.head? = some '0' → digits = ['0'])

/-- **A fraction** and its digits, or nothing. -/
inductive Fraction : Text → Option Text → Prop
  | none : Fraction [] none
  | point {digits : Text} (h : Numeral.IsDigits digits) : Fraction ('.' :: digits) (some digits)

/-- **An exponent** and its value, or nothing. -/
inductive Exponent : Text → Option Int → Prop
  | none : Exponent [] none
  | plain {e : Char} {digits : Text} (he : e = 'e' ∨ e = 'E') (h : Numeral.IsDigits digits) :
      Exponent (e :: digits) (some (Nat.ofDigitChars 10 digits 0 : Nat))
  | plus {e : Char} {digits : Text} (he : e = 'e' ∨ e = 'E') (h : Numeral.IsDigits digits) :
      Exponent (e :: '+' :: digits) (some (Nat.ofDigitChars 10 digits 0 : Nat))
  | minus {e : Char} {digits : Text} (he : e = 'e' ∨ e = 'E') (h : Numeral.IsDigits digits) :
      Exponent (e :: '-' :: digits) (some (-(Nat.ofDigitChars 10 digits 0 : Nat)))

/-- **A number** after its sign. Without fraction and exponent it is an integer. -/
inductive Number (limit : Option Nat) (negative : Bool) : Text → Json → Prop
  | integer {digits : Text} (hwhole : IsWhole digits) (hlimit : ∀ n ∈ limit, digits.length ≤ n) :
      Number limit negative digits
        (.integer (if negative then -(Nat.ofDigitChars 10 digits 0 : Nat)
          else (Nat.ofDigitChars 10 digits 0 : Nat)))
  | decimal {whole fraction exponent : Text} {digits : Option Text} {power : Option Int}
      (hwhole : IsWhole whole) (hfraction : Fraction fraction digits)
      (hexponent : Exponent exponent power) (hdecimal : digits ≠ none ∨ power ≠ none) :
      Number limit negative (whole ++ (fraction ++ exponent))
        (.number (.ofDecimal negative (Nat.ofDigitChars 10 (whole ++ digits.getD []) 0)
          (power.getD 0 - (digits.getD []).length)))

/-- The text starts with no digit. -/
def NoDigit (text : Text) : Prop := ∀ c ∈ text.head?, c.isDigit = false

/-- The text starts with no fraction. -/
def NoFraction (text : Text) : Prop := ∀ digits, Numeral.IsDigits digits → ¬ '.' :: digits <+: text

/-- The text starts with no exponent. -/
def NoExponent (text : Text) : Prop :=
  ∀ exponent power, Exponent exponent (some power) → ¬ exponent <+: text

/-- **No number goes on** with this text. -/
structure EndsNumber (text : Text) : Prop where
  digit : NoDigit text
  fraction : NoFraction text
  exponent : NoExponent text

/-! ### Values -/

mutual

/-- **A text spells a value** that is nested up to a depth. -/
inductive Spells (limit : Option Nat) : (depth : Nat) → Text → Json → Prop
  | word {depth : Nat} {text : Text} {value : Json} (h : (text, value) ∈ words) :
      Spells limit depth text value
  | string {depth : Nat} {text : Text} {value : RawText} (h : Literal text value) :
      Spells limit depth text (.string value)
  | positive {depth : Nat} {text : Text} {value : Json} (h : Number limit false text value) :
      Spells limit depth text value
  | negative {depth : Nat} {text : Text} {value : Json} (h : Number limit true text value) :
      Spells limit depth ('-' :: text) value
  | emptyArray {depth : Nat} {blanks : Text} (hblanks : IsSpaces blanks) :
      Spells limit (depth + 1) ('[' :: (blanks ++ [']'])) (.array [])
  | array {depth : Nat} {blanks text : Text} {items : List Json} (hblanks : IsSpaces blanks)
      (h : Items limit depth text items) :
      Spells limit (depth + 1) ('[' :: (blanks ++ (text ++ [']']))) (.array items)
  | emptyObject {depth : Nat} {blanks : Text} (hblanks : IsSpaces blanks) :
      Spells limit (depth + 1) ('\x7b' :: (blanks ++ ['\x7d'])) (.object [])
  | object {depth : Nat} {blanks text : Text} {entries : List (RawText × Json)}
      (hblanks : IsSpaces blanks) (h : Entries limit depth text entries) :
      Spells limit (depth + 1) ('\x7b' :: (blanks ++ (text ++ ['\x7d'])))
        (.object (Dictionary.insertAll entries []))

/-- **Items** with commas between them. -/
inductive Items (limit : Option Nat) : (depth : Nat) → Text → List Json → Prop
  | last {depth : Nat} {text blanks : Text} {value : Json} (h : Spells limit depth text value)
      (hblanks : IsSpaces blanks) : Items limit depth (text ++ blanks) [value]
  | cons {depth : Nat} {text comma rest : Text} {value : Json} {items : List Json}
      (h : Spells limit depth text value) (hcomma : IsMark ',' comma)
      (hrest : Items limit depth rest items) :
      Items limit depth (text ++ (comma ++ rest)) (value :: items)

/-- **Entries** with commas between them. -/
inductive Entries (limit : Option Nat) : (depth : Nat) → Text → List (RawText × Json) → Prop
  | last {depth : Nat} {name text blanks : Text} {key : RawText} {value : Json}
      (hname : Name name key) (h : Spells limit depth text value) (hblanks : IsSpaces blanks) :
      Entries limit depth (name ++ (text ++ blanks)) [(key, value)]
  | cons {depth : Nat} {name text comma rest : Text} {key : RawText} {value : Json}
      {entries : List (RawText × Json)} (hname : Name name key) (h : Spells limit depth text value)
      (hcomma : IsMark ',' comma) (hrest : Entries limit depth rest entries) :
      Entries limit depth (name ++ (text ++ (comma ++ rest))) ((key, value) :: entries)

end

/-- **A document**: a value with blanks around it. -/
def Document (limit : Option Nat) (depth : Nat) (text : Text) (value : Json) : Prop :=
  ∃ before body after, IsSpaces before ∧ Spells limit depth body value ∧ IsSpaces after ∧
    text = before ++ (body ++ after)

/-! ### Documents that exceed a limit -/

/-- **Items that have passed**, each with its comma. -/
inductive ItemsBefore (limit : Option Nat) (depth : Nat) : Text → Prop
  | none : ItemsBefore limit depth []
  | next {front text comma : Text} {value : Json} (hfront : ItemsBefore limit depth front)
      (h : Spells limit depth text value) (hcomma : IsMark ',' comma) :
      ItemsBefore limit depth (front ++ (text ++ comma))

/-- **Entries that have passed**, each with its comma. -/
inductive EntriesBefore (limit : Option Nat) (depth : Nat) : Text → Prop
  | none : EntriesBefore limit depth []
  | next {front name text comma : Text} {key : RawText} {value : Json}
      (hfront : EntriesBefore limit depth front) (hname : Name name key)
      (h : Spells limit depth text value) (hcomma : IsMark ',' comma) :
      EntriesBefore limit depth (front ++ (name ++ (text ++ comma)))

/-- **The beginning of a document** of `whole` levels, up to a place where a value is due. This value may
be nested up to the depth that is left. -/
inductive Beginning (limit : Option Nat) (whole : Nat) : (depth : Nat) → Text → Prop
  | start {blanks : Text} (hblanks : IsSpaces blanks) : Beginning limit whole whole blanks
  | item {depth : Nat} {front blanks items : Text} (hfront : Beginning limit whole (depth + 1) front)
      (hblanks : IsSpaces blanks) (hitems : ItemsBefore limit depth items) :
      Beginning limit whole depth (front ++ '[' :: (blanks ++ items))
  | entry {depth : Nat} {front blanks entries name : Text} {key : RawText}
      (hfront : Beginning limit whole (depth + 1) front) (hblanks : IsSpaces blanks)
      (hentries : EntriesBefore limit depth entries) (hname : Name name key) :
      Beginning limit whole depth (front ++ '\x7b' :: (blanks ++ (entries ++ name)))

/-- **A document that exceeds a limit**: where a value is due, an integer of more digits than the limit
stands, or a bracket where no level is left. -/
inductive Exceeds (limit whole : Nat) : Text → Fault → Prop
  | integer {depth : Nat} {front sign digits rest : Text}
      (hfront : Beginning (some limit) whole depth front) (hsign : sign = [] ∨ sign = ['-'])
      (hwhole : IsWhole digits) (hlong : limit < digits.length) (hrest : EndsNumber rest) :
      Exceeds limit whole (front ++ (sign ++ (digits ++ rest))) (.tooLong digits.length)
  | array {front rest : Text} (hfront : Beginning (some limit) whole 0 front) :
      Exceeds limit whole (front ++ '[' :: rest) (.tooDeep .array)
  | object {front rest : Text} (hfront : Beginning (some limit) whole 0 front) :
      Exceeds limit whole (front ++ '\x7b' :: rest) (.tooDeep .object)

end Corpus.Json
