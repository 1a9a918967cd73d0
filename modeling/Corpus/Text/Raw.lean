import Corpus.Text.Basic

/-!
# Raw text

Text as it may arrive from outside: surrogates may stand in it by themselves. A lone surrogate has no
encoding in UTF-8, so raw text is a text when it holds none.

* Every text is raw text (`RawText.ofText`). The other direction, `RawText.toText`, fails at the first
  lone surrogate.
* Where raw text is shown, a lone surrogate stands as its escape.
-/

namespace Corpus

/-- **Raw character.** A character, or a lone surrogate by its distance from U+D800. -/
inductive RawChar where
  | char (c : Char)
  | surrogate (n : Fin 0x800)
  deriving DecidableEq

/-- **Raw text.** -/
abbrev RawText := List RawChar

/-- **Why raw text has no encoding**: it holds lone surrogates. `position` characters stand before the
first of them, and `run` further ones follow it directly. -/
structure EncodingFault where
  first : Fin 0x800
  position : Nat
  run : Nat := 0
  deriving DecidableEq

namespace RawChar

/-- The raw character of a code point. -/
def ofCode (code : Nat) : RawChar :=
  if h : 0xD800 ≤ code ∧ code ≤ 0xDFFF then surrogate ⟨code - 0xD800, by omega⟩
  else char (Char.ofNat code)

/-- The escape of a lone surrogate. -/
def escape (n : Fin 0x800) : Text := '\\' :: 'u' :: Nat.toDigits 16 (0xD800 + n)

/-- A raw character as it is shown. -/
def shown : RawChar → Text
  | char c => [c]
  | surrogate n => escape n

end RawChar

namespace RawText

/-- **A text as raw text.** -/
def ofText (text : Text) : RawText := text.map .char

instance : Coe Text RawText := ⟨ofText⟩

/-- The number of lone surrogates at the front. -/
def surrogateRun : RawText → Nat
  | .surrogate _ :: rest => surrogateRun rest + 1
  | _ => 0

/-- The text that raw text is, when `position` characters stand before it. -/
def toTextFrom : (position : Nat) → RawText → Except EncodingFault Text
  | _, [] => .ok []
  | position, .char c :: rest => (toTextFrom (position + 1) rest).map (c :: ·)
  | position, .surrogate n :: rest => .error { first := n, position, run := surrogateRun rest }

/-- **The text that raw text is**, unless it holds a lone surrogate. -/
def toText (raw : RawText) : Except EncodingFault Text := toTextFrom 0 raw

/-- **Raw text as it is shown.** -/
def shown (raw : RawText) : Text := raw.flatMap RawChar.shown

end RawText

end Corpus
