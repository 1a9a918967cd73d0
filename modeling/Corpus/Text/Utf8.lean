import Corpus.Text.Basic

/-!
# UTF-8

Bytes are read by a machine that stands either between code points or inside one, knowing how many
bytes are still owed and between which bounds the next one has to lie.

* A well-formed sequence gives its code point.
* A maximal ill-formed part (the bytes of a sequence up to the first byte that cannot continue it, or
  a byte that can start none) gives one `none`. The byte that broke the sequence is then read anew.

`decodeLossy` writes U+FFFD for every ill-formed part; `decode?` accepts only bytes without one.
`encode` is the other direction.
-/

namespace Corpus.Utf8

/-- **An unfinished code point.** `owed` more bytes follow after the next one, which lies between
`low` and `high`; `value` is the number that the bytes so far spell. -/
structure Pending where
  owed : Nat
  low : Nat
  high : Nat
  value : Nat

/-- **The start of a longer sequence.** The bounds of the second byte leave out the overlong forms,
the surrogates and all that lies above U+10FFFF. -/
def Pending.ofLead? (byte : Nat) : Option Pending :=
  if 0xC2 ≤ byte ∧ byte ≤ 0xDF then some ⟨0, 0x80, 0xBF, byte - 0xC0⟩
  else if byte = 0xE0 then some ⟨1, 0xA0, 0xBF, 0⟩
  else if byte = 0xED then some ⟨1, 0x80, 0x9F, 0xD⟩
  else if 0xE1 ≤ byte ∧ byte ≤ 0xEF then some ⟨1, 0x80, 0xBF, byte - 0xE0⟩
  else if byte = 0xF0 then some ⟨2, 0x90, 0xBF, 0⟩
  else if 0xF1 ≤ byte ∧ byte ≤ 0xF3 then some ⟨2, 0x80, 0xBF, byte - 0xF0⟩
  else if byte = 0xF4 then some ⟨2, 0x80, 0x8F, 4⟩
  else none

/-- The number spelled once `byte` has joined the sequence. -/
def Pending.extended (p : Pending) (byte : Nat) : Nat := p.value * 64 + (byte - 0x80)

mutual

/-- The units of `bytes`, between two code points. -/
def units : List UInt8 → List (Option Char)
  | [] => []
  | byte :: rest =>
    if byte.toNat < 0x80 then some (Char.ofNat byte.toNat) :: units rest
    else
      match Pending.ofLead? byte.toNat with
      | some p => unitsWithin p rest
      | none => none :: units rest

/-- The units of `bytes` inside a sequence. A byte that cannot continue it ends an ill-formed part and
is read as the start of the next unit. -/
def unitsWithin (p : Pending) : List UInt8 → List (Option Char)
  | [] => [none]
  | byte :: rest =>
    if p.low ≤ byte.toNat ∧ byte.toNat ≤ p.high then
      match p.owed with
      | 0 => some (Char.ofNat (p.extended byte.toNat)) :: units rest
      | owed + 1 => unitsWithin ⟨owed, 0x80, 0xBF, p.extended byte.toNat⟩ rest
    else if byte.toNat < 0x80 then none :: some (Char.ofNat byte.toNat) :: units rest
    else
      match Pending.ofLead? byte.toNat with
      | some q => none :: unitsWithin q rest
      | none => none :: none :: units rest

end

/-- The character that stands for an ill-formed part. -/
def replacement : Char := '\uFFFD'

/-- **Decoding with replacement.** Every ill-formed part becomes one U+FFFD. -/
def decodeLossy (bytes : List UInt8) : Text := (units bytes).map fun unit => unit.getD replacement

/-- **Strict decoding.** `none` when some part is ill-formed. -/
def decode? (bytes : List UInt8) : Option Text := (units bytes).mapM id

/-! ### Bytes that arrive in portions -/

/-- The bytes begin a sequence that is not finished. -/
def Pending.isOpen (p : Pending) : List UInt8 → Bool
  | [] => true
  | byte :: rest =>
    p.low ≤ byte.toNat && byte.toNat ≤ p.high &&
      match p.owed with
      | 0 => false
      | owed + 1 => Pending.isOpen ⟨owed, 0x80, 0xBF, 0⟩ rest

/-- The bytes are none, or begin a sequence that is not finished. The first two bytes of a surrogate
count as such a beginning; it is the third one that is refused. -/
def isOpen : List UInt8 → Bool
  | [] => true
  | byte :: rest =>
    (Pending.ofLead? byte.toNat).any fun p =>
      Pending.isOpen { p with high := if byte = 0xED then 0xBF else p.high } rest

/-- **Decoding a portion.** The text of the bytes, and up to three bytes at the end that begin a code
point; `none` when some part is ill-formed. -/
def decodePortion? (bytes : List UInt8) : Option (Text × List UInt8) :=
  (List.range 4).findSome? fun count =>
    let (front, back) := bytes.splitAt (bytes.length - count)
    if isOpen back then (decode? front).map fun text => (text, back) else none

/-- The portions of `size + 1` bytes. -/
def portions (size : Nat) (bytes : List UInt8) : List (List UInt8) :=
  if h : bytes = [] then []
  else
    have : (bytes.drop (size + 1)).length < bytes.length := by
      have := List.length_pos_iff.2 h
      simp only [List.length_drop]
      omega
    bytes.take (size + 1) :: portions size (bytes.drop (size + 1))
termination_by bytes.length

/-- **Decoding portion by portion.** The text up to the first portion with an ill-formed part, and
whether there was none; `carried` are bytes of an unfinished code point. -/
def decodePortions (carried : List UInt8) : List (List UInt8) → Text × Bool
  | [] => ([], carried.isEmpty)
  | portion :: rest =>
    match decodePortion? (carried ++ portion) with
    | none => ([], false)
    | some (text, carried) =>
      let (later, whole) := decodePortions carried rest
      (text ++ later, whole)

/-- **Encoding.** The bytes of a text. -/
def encode (text : Text) : List UInt8 := text.flatMap String.utf8EncodeChar

/-- The byte length of a text is the number of its bytes. -/
theorem length_encode (text : Text) : (encode text).length = text.byteLength := by
  induction text with
  | nil => rfl
  | cons c text ih =>
    simp only [encode] at ih
    simp [encode, String.length_utf8EncodeChar, ih]

end Corpus.Utf8
