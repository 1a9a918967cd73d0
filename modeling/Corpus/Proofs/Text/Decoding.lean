import Corpus.Text.Utf8
import Mathlib.Algebra.Group.Nat.Defs

/-!
# Decoding line by line

Bytes may be cut at their line feeds before they are decoded with replacement or after: a line feed
ends whatever part was begun, and nothing else is decoded as one.

* An unfinished sequence is long: its next byte is none of ASCII, and what it spells in the end is
  beyond ASCII. Every start of a sequence is long, and so is what remains after each byte.
* So a line feed cannot continue a sequence, and the units before it and after it are those of the
  bytes before and after it. This also holds inside a sequence, by one induction on the bytes before.
-/

namespace Corpus.Utf8

variable {p : Pending} {byte : Nat} {bytes : List UInt8}

/-! ### Long sequences -/

/-- **Long.** The least number that the sequence can spell is beyond ASCII. -/
structure Pending.IsLong (p : Pending) : Prop where
  low : 0x80 ≤ p.low
  least : 0x80 ≤ (p.value * 64 + (p.low - 0x80)) * 64 ^ p.owed

theorem Pending.isLong_of_ofLead? (h : ofLead? byte = some p) : p.IsLong := by
  unfold ofLead? at h
  split at h
  · obtain rfl := Option.some.inj h
    exact ⟨Nat.le_refl _, by simp only; omega⟩
  split at h
  · obtain rfl := Option.some.inj h
    exact ⟨by decide, by decide⟩
  split at h
  · obtain rfl := Option.some.inj h
    exact ⟨by decide, by decide⟩
  split at h
  · -- E0 has its own bounds, so that the byte is above it here
    obtain rfl := Option.some.inj h
    exact ⟨Nat.le_refl _, by simp only; omega⟩
  split at h
  · obtain rfl := Option.some.inj h
    exact ⟨by decide, by decide⟩
  split at h
  · obtain rfl := Option.some.inj h
    exact ⟨Nat.le_refl _, by simp only; omega⟩
  split at h
  · obtain rfl := Option.some.inj h
    exact ⟨by decide, by decide⟩
  · cases h

/-- The number spelled so far is at least the least one. -/
theorem Pending.IsLong.le_extended (h : p.IsLong) (hbyte : p.low ≤ byte) :
    0x80 ≤ p.extended byte * 64 ^ p.owed := by
  have hleast : p.value * 64 + (p.low - 0x80) ≤ p.extended byte := by
    unfold extended
    omega
  exact Nat.le_trans h.least (Nat.mul_le_mul_right _ hleast)

/-- What remains of a long sequence is long. -/
theorem Pending.IsLong.next (h : p.IsLong) (hbyte : p.low ≤ byte) {owed : Nat}
    (howed : p.owed = owed + 1) : IsLong ⟨owed, 0x80, 0xBF, p.extended byte⟩ := by
  have hleast := h.le_extended hbyte
  rw [howed, Nat.pow_succ, Nat.mul_comm (64 ^ owed), ← Nat.mul_assoc] at hleast
  refine ⟨Nat.le_refl _, ?_⟩
  simpa only [Nat.sub_self, Nat.add_zero] using hleast

/-! ### Line feeds -/

theorem ofNat_ne_lineFeed {n : Nat} (h : n ≠ 0x0A) : Char.ofNat n ≠ '\n' := by
  intro hchar
  by_cases hvalid : n.isValidChar
  · rw [Char.ofNat, dif_pos hvalid] at hchar
    exact h (congrArg Char.toNat hchar)
  · rw [Char.ofNat, dif_neg hvalid] at hchar
    exact absurd hchar (by decide)

/-- **Units around a line feed**, between code points and inside a sequence. -/
theorem units_append_lineFeed (front rest : List UInt8) :
    units (front ++ 0x0A :: rest) = units front ++ some '\n' :: units rest ∧
      ∀ p : Pending, p.IsLong →
        unitsWithin p (front ++ 0x0A :: rest) = unitsWithin p front ++ some '\n' :: units rest := by
  induction front with
  | nil =>
    have hascii : (0x0A : UInt8).toNat < 0x80 := by decide
    refine ⟨?_, fun p hp => ?_⟩
    · rw [List.nil_append, units.eq_2, if_pos hascii, units.eq_1]
      rfl
    · have hends : ¬ (p.low ≤ (0x0A : UInt8).toNat ∧ (0x0A : UInt8).toNat ≤ p.high) := by
        rintro ⟨hle, -⟩
        exact absurd (Nat.le_trans hp.low hle) (Nat.not_le.mpr hascii)
      rw [List.nil_append, unitsWithin.eq_2, if_neg hends, if_pos hascii, unitsWithin.eq_1]
      rfl
  | cons x front ih =>
    obtain ⟨hbetween, hwithin⟩ := ih
    -- a byte that continues no sequence is read as a start, in both states
    have hstart : ∀ pending, Pending.ofLead? x.toNat = some pending →
        unitsWithin pending (front ++ 0x0A :: rest) =
          unitsWithin pending front ++ some '\n' :: units rest :=
      fun pending hlead => hwithin pending (Pending.isLong_of_ofLead? hlead)
    refine ⟨?_, fun p hp => ?_⟩
    · rw [List.cons_append, units, units]
      split
      · rw [hbetween, List.cons_append]
      · split
        · rename_i pending hlead
          exact hstart pending hlead
        · rw [hbetween, List.cons_append]
    · rw [List.cons_append, unitsWithin, unitsWithin]
      split
      · rename_i hcontinues
        split
        · rw [hbetween, List.cons_append]
        · rename_i owed howed
          exact hwithin _ (hp.next hcontinues.1 howed)
      · split
        · rw [hbetween, List.cons_append, List.cons_append]
        · split
          · rename_i pending hlead
            rw [hstart pending hlead, List.cons_append]
          · rw [hbetween, List.cons_append, List.cons_append]

/-- **No other line feeds.** Without a line feed among the bytes no unit is one. -/
theorem lineFeed_not_mem_units (h : 0x0A ∉ bytes) :
    some '\n' ∉ units bytes ∧ ∀ p : Pending, p.IsLong → some '\n' ∉ unitsWithin p bytes := by
  induction bytes with
  | nil => exact ⟨by simp [units], fun p _ => by simp [unitsWithin]⟩
  | cons x bytes ih =>
    obtain ⟨hx, hbytes⟩ := not_or.mp (mt List.mem_cons.mpr h)
    obtain ⟨hbetween, hwithin⟩ := ih hbytes
    have hchar : Char.ofNat x.toNat ≠ '\n' :=
      ofNat_ne_lineFeed fun hcode => hx (UInt8.toNat_inj.mp hcode.symm)
    have hstart : ∀ pending, Pending.ofLead? x.toNat = some pending →
        some '\n' ∉ unitsWithin pending bytes :=
      fun pending hlead => hwithin pending (Pending.isLong_of_ofLead? hlead)
    refine ⟨?_, fun p hp => ?_⟩
    · rw [units]
      split
      · simpa [hbetween] using hchar.symm
      · split
        · rename_i pending hlead
          exact hstart pending hlead
        · simpa using hbetween
    · rw [unitsWithin]
      split
      · rename_i hcontinues
        split
        · rename_i howed
          -- the number that is spelled is beyond ASCII
          have hlarge := hp.le_extended hcontinues.1
          rw [howed, Nat.pow_zero, Nat.mul_one] at hlarge
          have hspelled : Char.ofNat (p.extended x.toNat) ≠ '\n' :=
            ofNat_ne_lineFeed (by omega)
          simpa [hbetween] using hspelled.symm
        · rename_i owed howed
          exact hwithin _ (hp.next hcontinues.1 howed)
      · split
        · simpa [hbetween] using hchar.symm
        · split
          · rename_i pending hlead
            simpa using hstart pending hlead
          · simpa using hbetween

theorem unitsWithin_ne_nil (p : Pending) (bytes : List UInt8) : unitsWithin p bytes ≠ [] := by
  induction bytes generalizing p with
  | nil => simp [unitsWithin]
  | cons x bytes ih =>
    rw [unitsWithin]
    split
    · split
      · exact List.cons_ne_nil _ _
      · exact ih _
    · split
      · exact List.cons_ne_nil _ _
      · split <;> exact List.cons_ne_nil _ _

/-! ### Text -/

/-- **Decoding around a line feed.** -/
theorem decodeLossy_append_lineFeed (front rest : List UInt8) :
    decodeLossy (front ++ 0x0A :: rest) = decodeLossy front ++ '\n' :: decodeLossy rest := by
  rw [decodeLossy, (units_append_lineFeed front rest).1, List.map_append]
  rfl

/-- Bytes without a line feed are decoded without one. -/
theorem lineFeed_not_mem_decodeLossy (h : 0x0A ∉ bytes) : '\n' ∉ decodeLossy bytes := by
  intro hmem
  obtain ⟨unit, hunit, hchar⟩ := List.mem_map.mp hmem
  cases unit with
  | none => exact absurd hchar (by decide)
  | some c =>
    obtain rfl : c = '\n' := hchar
    exact (lineFeed_not_mem_units h).1 hunit

theorem decodeLossy_ne_nil (h : bytes ≠ []) : decodeLossy bytes ≠ [] := by
  obtain ⟨x, bytes, rfl⟩ := List.exists_cons_of_ne_nil h
  have hunits : units (x :: bytes) ≠ [] := by
    rw [units]
    split
    · exact List.cons_ne_nil _ _
    · split
      · exact unitsWithin_ne_nil _ _
      · exact List.cons_ne_nil _ _
  exact fun hnil => hunits (List.map_eq_nil_iff.mp hnil)

end Corpus.Utf8
