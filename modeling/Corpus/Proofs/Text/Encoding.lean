import Corpus.Proofs.Text.Decoding

/-!
# Encoded text

What has been encoded is decoded as it was, and nothing else is decoded strictly.

* The first byte of a code point tells how many follow it and where the next one lies, and the number
  that the bytes spell is the code point. This is checked for each length on its own
  (`ofLead?_of_lt_800` and so on); the bounds of the second byte hold since a code point is no
  surrogate, and is not written with more bytes than it needs.
* So the units of an encoded text are its code points, one by one.
* The other way, a unit that is a code point comes from the bytes that encode it
  (`exists_rest_of_units`): its first byte bounds the second one so that no other bytes spell it. Strict
  decoding asks for such units only (`decode?_eq_some_iff`).
-/

namespace Corpus.Utf8

variable {p : Pending} {byte : UInt8} {rest : List UInt8} {v low high value owed : Nat}

/-! ### The machine on a sequence -/

theorem units_ascii (h : byte.toNat < 0x80) :
    units (byte :: rest) = some (Char.ofNat byte.toNat) :: units rest := by
  rw [units, if_pos h]

theorem units_lead (h : 0x80 ≤ byte.toNat) (hlead : Pending.ofLead? byte.toNat = some p) :
    units (byte :: rest) = unitsWithin p rest := by
  rw [units, if_neg (Nat.not_lt.mpr h), hlead]

/-- The last byte ends a sequence. -/
theorem unitsWithin_last (h : low ≤ byte.toNat ∧ byte.toNat ≤ high) :
    unitsWithin ⟨0, low, high, value⟩ (byte :: rest) =
      some (Char.ofNat (value * 64 + (byte.toNat - 0x80))) :: units rest := by
  rw [unitsWithin, if_pos h]
  rfl

/-- Any other byte continues it. -/
theorem unitsWithin_next (h : low ≤ byte.toNat ∧ byte.toNat ≤ high) :
    unitsWithin ⟨owed + 1, low, high, value⟩ (byte :: rest) =
      unitsWithin ⟨owed, 0x80, 0xBF, value * 64 + (byte.toNat - 0x80)⟩ rest := by
  rw [unitsWithin, if_pos h]
  rfl

/-! ### First bytes -/

theorem ofLead?_of_lt_800 (hlow : 0x80 ≤ v) (hhigh : v < 0x800) :
    Pending.ofLead? (v / 64 + 0xC0) = some ⟨0, 0x80, 0xBF, v / 64⟩ := by
  rw [Pending.ofLead?, if_pos (by omega), Nat.add_sub_cancel]

theorem ofLead?_of_lt_10000 (hlow : 0x800 ≤ v) (hhigh : v < 0x10000)
    (hscalar : v < 0xD800 ∨ 0xDFFF < v) :
    ∃ low high, Pending.ofLead? (v / 4096 + 0xE0) = some ⟨1, low, high, v / 4096⟩ ∧
      low ≤ v / 64 % 64 + 0x80 ∧ v / 64 % 64 + 0x80 ≤ high := by
  by_cases hfirst : v / 4096 = 0
  · rw [hfirst]
    exact ⟨0xA0, 0xBF, rfl, by omega, by omega⟩
  · by_cases hsurrogate : v / 4096 = 0xD
    · rw [hsurrogate]
      exact ⟨0x80, 0x9F, rfl, by omega, by omega⟩
    · refine ⟨0x80, 0xBF, ?_, by omega, by omega⟩
      rw [Pending.ofLead?, if_neg (by omega), if_neg (by omega), if_neg (by omega),
        if_pos (by omega), Nat.add_sub_cancel]

theorem ofLead?_of_lt_110000 (hlow : 0x10000 ≤ v) (hhigh : v < 0x110000) :
    ∃ low high, Pending.ofLead? (v / 262144 + 0xF0) = some ⟨2, low, high, v / 262144⟩ ∧
      low ≤ v / 4096 % 64 + 0x80 ∧ v / 4096 % 64 + 0x80 ≤ high := by
  by_cases hfirst : v / 262144 = 0
  · rw [hfirst]
    exact ⟨0x90, 0xBF, rfl, by omega, by omega⟩
  · by_cases hlast : v / 262144 = 4
    · rw [hlast]
      exact ⟨0x80, 0x8F, rfl, by omega, by omega⟩
    · refine ⟨0x80, 0xBF, ?_, by omega, by omega⟩
      rw [Pending.ofLead?, if_neg (by omega), if_neg (by omega), if_neg (by omega),
        if_neg (by omega), if_neg (by omega), if_pos (by omega), Nat.add_sub_cancel]

/-! ### Code points -/

theorem toNat_byte {n : Nat} (h : n < 256) : (UInt8.ofNat n).toNat = n := by
  rw [UInt8.toNat_ofNat', Nat.mod_eq_of_lt h]

/-- **The unit of an encoded code point.** -/
theorem units_encodeChar (c : Char) (rest : List UInt8) :
    units (String.utf8EncodeChar c ++ rest) = some c :: units rest := by
  have hchar (n : Nat) (hn : n = c.val.toNat) : some (Char.ofNat n) = some c := by
    rw [hn]
    exact congrArg some (Char.ofNat_toNat c)
  have hscalar : c.val.toNat < 0xD800 ∨ 0xDFFF < c.val.toNat ∧ c.val.toNat < 0x110000 := c.valid
  rw [String.utf8EncodeChar]
  generalize c.val.toNat = v at hchar hscalar
  split
  · have hbyte := toNat_byte (n := v) (by omega)
    rw [List.cons_append, List.nil_append, units_ascii (by omega), hbyte, hchar v rfl]
  split
  · have hlead := toNat_byte (n := v / 64 % 32 + 192) (by omega)
    have hlast := toNat_byte (n := v % 64 + 128) (by omega)
    have hfirst : v / 64 % 32 + 192 = v / 64 + 0xC0 := by omega
    rw [List.cons_append, List.cons_append, List.nil_append,
      units_lead (by omega) (by rw [hlead, hfirst]; exact ofLead?_of_lt_800 (by omega) (by omega)),
      unitsWithin_last (by omega), hlast, hchar _ (by omega)]
  split
  · obtain ⟨low, high, hfirst, hsecond⟩ := ofLead?_of_lt_10000 (v := v) (by omega) (by omega)
      (by omega)
    have hlead := toNat_byte (n := v / 4096 % 16 + 224) (by omega)
    have hnext := toNat_byte (n := v / 64 % 64 + 128) (by omega)
    have hlast := toNat_byte (n := v % 64 + 128) (by omega)
    rw [show v / 4096 + 0xE0 = v / 4096 % 16 + 224 by omega, ← hlead] at hfirst
    rw [List.cons_append, List.cons_append, List.cons_append, List.nil_append,
      units_lead (by omega) hfirst, unitsWithin_next (by omega), unitsWithin_last (by omega),
      hnext, hlast, hchar _ (by omega)]
  · obtain ⟨low, high, hfirst, hsecond⟩ := ofLead?_of_lt_110000 (v := v) (by omega) (by omega)
    have hlead := toNat_byte (n := v / 262144 % 8 + 240) (by omega)
    have hnext := toNat_byte (n := v / 4096 % 64 + 128) (by omega)
    have hnext' := toNat_byte (n := v / 64 % 64 + 128) (by omega)
    have hlast := toNat_byte (n := v % 64 + 128) (by omega)
    rw [show v / 262144 + 0xF0 = v / 262144 % 8 + 240 by omega, ← hlead] at hfirst
    rw [List.cons_append, List.cons_append, List.cons_append, List.cons_append, List.nil_append,
      units_lead (by omega) hfirst, unitsWithin_next (by omega), unitsWithin_next (by omega),
      unitsWithin_last (by omega), hnext, hnext', hlast, hchar _ (by omega)]

/-- The units of an encoded text are its code points. -/
theorem units_encode (text : Text) : units (encode text) = text.map some := by
  induction text with
  | nil => rfl
  | cons c text ih =>
    rw [encode, List.flatMap_cons, units_encodeChar, List.map_cons]
    exact congrArg (some c :: ·) ih

/-- **Decoding undoes encoding.** -/
theorem decodeLossy_encode (text : Text) : decodeLossy (encode text) = text := by
  rw [decodeLossy, units_encode, List.map_map]
  exact List.map_id text

/-! ### Well-formed bytes -/

section WellFormed

variable {bytes : List UInt8} {c : Char} {found : List (Option Char)}

/-- A sequence that gives a code point ends with its last byte. -/
theorem exists_last_of_unitsWithin (h : unitsWithin ⟨0, low, high, value⟩ bytes = some c :: found) :
    ∃ byte rest, bytes = byte :: rest ∧ (low ≤ byte.toNat ∧ byte.toNat ≤ high) ∧
      Char.ofNat (value * 64 + (byte.toNat - 0x80)) = c ∧ units rest = found := by
  cases bytes with
  | nil => cases h
  | cons byte rest =>
    by_cases hbyte : low ≤ byte.toNat ∧ byte.toNat ≤ high
    · rw [unitsWithin_last hbyte] at h
      obtain ⟨hchar, hrest⟩ := List.cons.inj h
      exact ⟨byte, rest, rfl, hbyte, Option.some.inj hchar, hrest⟩
    · rw [unitsWithin, if_neg hbyte] at h
      split at h
      · cases h
      · split at h <;> cases h

/-- Before that it goes on with its next byte. -/
theorem exists_next_of_unitsWithin
    (h : unitsWithin ⟨owed + 1, low, high, value⟩ bytes = some c :: found) :
    ∃ byte rest, bytes = byte :: rest ∧ (low ≤ byte.toNat ∧ byte.toNat ≤ high) ∧
      unitsWithin ⟨owed, 0x80, 0xBF, value * 64 + (byte.toNat - 0x80)⟩ rest = some c :: found := by
  cases bytes with
  | nil => cases h
  | cons byte rest =>
    by_cases hbyte : low ≤ byte.toNat ∧ byte.toNat ≤ high
    · rw [unitsWithin_next hbyte] at h
      exact ⟨byte, rest, rfl, hbyte, h⟩
    · rw [unitsWithin, if_neg hbyte] at h
      split at h
      · cases h
      · split at h <;> cases h

/-- The bytes of the character of a code point. -/
theorem encodeChar_ofNat (hvalid : v.isValidChar) :
    String.utf8EncodeChar (Char.ofNat v) =
      if v ≤ 0x7F then [UInt8.ofNat v]
      else if v ≤ 0x7FF then [UInt8.ofNat (v / 64 % 32 + 192), UInt8.ofNat (v % 64 + 128)]
      else if v ≤ 0xFFFF then
        [UInt8.ofNat (v / 4096 % 16 + 224), UInt8.ofNat (v / 64 % 64 + 128),
          UInt8.ofNat (v % 64 + 128)]
      else
        [UInt8.ofNat (v / 262144 % 8 + 240), UInt8.ofNat (v / 4096 % 64 + 128),
          UInt8.ofNat (v / 64 % 64 + 128), UInt8.ofNat (v % 64 + 128)] := by
  have hval : (Char.ofNat v).val.toNat = v := by
    rw [Char.ofNat, dif_pos hvalid]
    rfl
  rw [String.utf8EncodeChar, hval]

/-- **First bytes by length.** What a first byte spells, and the bounds of the second one. -/
theorem cases_of_ofLead? {first : Nat} (h : Pending.ofLead? first = some p) :
    (∃ v, first = 0xC0 + v ∧ (2 ≤ v ∧ v < 0x20) ∧ p = ⟨0, 0x80, 0xBF, v⟩) ∨
    (∃ v low high, first = 0xE0 + v ∧ v < 0x10 ∧ p = ⟨1, low, high, v⟩ ∧ 0x80 ≤ low ∧ high ≤ 0xBF ∧
      (v = 0 → 0xA0 ≤ low) ∧ (v = 0xD → high ≤ 0x9F)) ∨
    (∃ v low high, first = 0xF0 + v ∧ v < 5 ∧ p = ⟨2, low, high, v⟩ ∧ 0x80 ≤ low ∧ high ≤ 0xBF ∧
      (v = 0 → 0x90 ≤ low) ∧ (v = 4 → high ≤ 0x8F)) := by
  rw [Pending.ofLead?] at h
  split at h
  · exact .inl ⟨first - 0xC0, by omega, by omega, (Option.some.inj h).symm⟩
  split at h
  · exact .inr (.inl ⟨0, _, _, by omega, by omega, (Option.some.inj h).symm, by omega⟩)
  split at h
  · exact .inr (.inl ⟨0xD, _, _, by omega, by omega, (Option.some.inj h).symm, by omega⟩)
  split at h
  · exact .inr (.inl ⟨first - 0xE0, _, _, by omega, by omega, (Option.some.inj h).symm, by omega⟩)
  split at h
  · exact .inr (.inr ⟨0, _, _, by omega, by omega, (Option.some.inj h).symm, by omega⟩)
  split at h
  · exact .inr (.inr ⟨first - 0xF0, _, _, by omega, by omega, (Option.some.inj h).symm, by omega⟩)
  split at h
  · exact .inr (.inr ⟨4, _, _, by omega, by omega, (Option.some.inj h).symm, by omega⟩)
  · cases h

theorem ofNat_eq_byte {n : Nat} (byte : UInt8) (h : n = byte.toNat) : UInt8.ofNat n = byte := by
  rw [h, UInt8.ofNat_toNat]

/-- **The bytes before a unit** that is a code point encode it. -/
theorem exists_rest_of_units (h : units bytes = some c :: found) :
    ∃ rest, bytes = String.utf8EncodeChar c ++ rest ∧ units rest = found := by
  cases bytes with
  | nil => cases h
  | cons byte bytes =>
    by_cases hascii : byte.toNat < 0x80
    · rw [units_ascii hascii] at h
      obtain ⟨hchar, hrest⟩ := List.cons.inj h
      obtain rfl := Option.some.inj hchar
      refine ⟨bytes, ?_, hrest⟩
      rw [encodeChar_ofNat (.inl (by omega)), if_pos (by omega), UInt8.ofNat_toNat]
      rfl
    cases hlead : Pending.ofLead? byte.toNat with
    | none =>
      rw [units, if_neg hascii, hlead] at h
      cases h
    | some p =>
      rw [units_lead (Nat.le_of_not_lt hascii) hlead] at h
      rcases cases_of_ofLead? hlead with ⟨v, hbyte, hv, rfl⟩ |
        ⟨v, low, high, hbyte, hv, rfl, hlow, hhigh, hleast, hgreatest⟩ |
        ⟨v, low, high, hbyte, hv, rfl, hlow, hhigh, hleast, hgreatest⟩
      · obtain ⟨last, rest, rfl, hlast, rfl, hrest⟩ := exists_last_of_unitsWithin h
        refine ⟨rest, ?_, hrest⟩
        rw [encodeChar_ofNat (.inl (by omega)), if_neg (by omega), if_pos (by omega),
          ofNat_eq_byte byte (by omega), ofNat_eq_byte last (by omega)]
        rfl
      · obtain ⟨second, bytes, rfl, hsecond, h⟩ := exists_next_of_unitsWithin h
        obtain ⟨last, rest, rfl, hlast, rfl, hrest⟩ := exists_last_of_unitsWithin h
        refine ⟨rest, ?_, hrest⟩
        rw [encodeChar_ofNat (by unfold Nat.isValidChar; omega), if_neg (by omega),
          if_neg (by omega), if_pos (by omega), ofNat_eq_byte byte (by omega),
          ofNat_eq_byte second (by omega), ofNat_eq_byte last (by omega)]
        rfl
      · obtain ⟨second, bytes, rfl, hsecond, h⟩ := exists_next_of_unitsWithin h
        obtain ⟨third, bytes, rfl, hthird, h⟩ := exists_next_of_unitsWithin h
        obtain ⟨last, rest, rfl, hlast, rfl, hrest⟩ := exists_last_of_unitsWithin h
        refine ⟨rest, ?_, hrest⟩
        rw [encodeChar_ofNat (by unfold Nat.isValidChar; omega), if_neg (by omega),
          if_neg (by omega), if_neg (by omega), ofNat_eq_byte byte (by omega),
          ofNat_eq_byte second (by omega), ofNat_eq_byte third (by omega),
          ofNat_eq_byte last (by omega)]
        rfl

/-- Bytes whose units are code points encode these. -/
theorem eq_encode_of_units {text : Text} (h : units bytes = text.map some) : bytes = encode text := by
  induction text generalizing bytes with
  | nil =>
    have hnone : decodeLossy bytes = [] := by
      rw [decodeLossy, h]
      rfl
    exact Decidable.not_not.mp fun hbytes => decodeLossy_ne_nil hbytes hnone
  | cons c text ih =>
    obtain ⟨rest, rfl, hrest⟩ := exists_rest_of_units h
    rw [ih hrest, encode, encode, List.flatMap_cons]

theorem mapM_id_eq_some_iff {units : List (Option Char)} {text : Text} :
    units.mapM id = some text ↔ units = text.map some := by
  induction units generalizing text with
  | nil => cases text <;> simp
  | cons unit units ih =>
    cases unit with
    | none => cases text <;> simp
    | some c =>
      cases text with
      | nil => simp [Option.bind_eq_some_iff]
      | cons d text =>
        simp only [List.mapM_cons, id, Option.bind_eq_bind, Option.bind_some, Option.pure_def,
          Option.bind_eq_some_iff, Option.some.injEq, List.cons.injEq, ih, List.map_cons,
          exists_eq_right_right]
        exact and_comm

/-- **Strict decoding** accepts what has been encoded and nothing else. -/
theorem decode?_eq_some_iff {text : Text} : decode? bytes = some text ↔ bytes = encode text := by
  rw [decode?, mapM_id_eq_some_iff]
  refine ⟨eq_encode_of_units, ?_⟩
  rintro rfl
  exact units_encode text

end WellFormed

end Corpus.Utf8
