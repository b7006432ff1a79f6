import KM10.Arith.Product

/-!
Magnitudes of 70 bits in the two words of a `W72`, as `fromMag` packs and `toMag` unpacks them.

`fromMag` casts the magnitude to 64 bits and puts its low 35 bits into the high word; `toMag`
takes the high word for the high part, and loses its upper six bits in a 64-bit shift.

* `W72.Packs`: the words a packed magnitude should have;
* `toNat_hi35_fromMag`, `toNat_lo35_fromMag`, `toNat_toMag_fields`: what the code does;
* `roundTrips_iff`: the magnitudes and the double words that make the round trip.
-/

namespace KM10

namespace W72

/-- The double word has the two parts of a magnitude and a sign in both words. -/
structure Packs (w : W72) (m : ℕ) (b : Bool) : Prop where
  hi35 : w.hi35.toNat = m / 2 ^ 35
  lo35 : w.lo35.toNat = m % 2 ^ 35
  hiSign : w.hiSign = b
  loSign : w.loSign = b

/-- The high word gets the low part. -/
lemma toNat_hi35_fromMag (m : BitVec 128) (b : Bool) :
    (fromMag m b).hi35.toNat = m.toNat % 2 ^ 35 := by
  rw [hi35, fromMag, ofMags, mag_fromMag, BitVec.toNat_setWidth, BitVec.toNat_setWidth]
  omega

/-- The low word gets what 64 bits have left. -/
lemma toNat_lo35_fromMag (m : BitVec 128) (b : Bool) :
    (fromMag m b).lo35.toNat = m.toNat % 2 ^ 64 / 2 ^ 35 := by
  rw [lo35, fromMag, ofMags, mag_fromMag, BitVec.toNat_setWidth, BitVec.toNat_ushiftRight,
    BitVec.toNat_setWidth, Nat.shiftRight_eq_div_pow]
  omega

lemma hiSign_fromMag (m : BitVec 128) (b : Bool) : (fromMag m b).hiSign = b := sign_fromMag _ b

lemma loSign_fromMag (m : BitVec 128) (b : Bool) : (fromMag m b).loSign = b := sign_fromMag _ b

/-- The magnitude that `toMag` reads. -/
lemma toNat_toMag_fields (w : W72) :
    w.toMag.toNat = w.hi35.toNat % 2 ^ 29 * 2 ^ 35 + w.lo35.toNat := by
  have hlo := w.lo35.isLt
  have hhigh : (w.hi35.setWidth 64 <<< 35).toNat = (w.hi35.toNat % 2 ^ 29) <<< 35 := by
    rw [BitVec.toNat_shiftLeft, BitVec.toNat_setWidth, Nat.shiftLeft_eq, Nat.shiftLeft_eq]
    omega
  rw [toMag, BitVec.toNat_or, BitVec.toNat_setWidth_of_le (by decide),
    BitVec.toNat_setWidth_of_le (by decide), hhigh, Nat.or_comm,
    ← Nat.shiftLeft_add_eq_or_of_lt hlo, Nat.shiftLeft_eq]

/-- The magnitudes that are packed as they should be. -/
lemma packs_fromMag_iff (m : BitVec 70) (b : Bool) :
    (fromMag (m.setWidth 128) b).Packs m.toNat b ↔
      m.toNat / 2 ^ 35 = m.toNat % 2 ^ 35 ∧ m.toNat < 2 ^ 64 := by
  have hlt := m.isLt
  have hm : (m.setWidth 128).toNat = m.toNat := BitVec.toNat_setWidth_of_le (by decide)
  have hhi := toNat_hi35_fromMag (m.setWidth 128) b
  have hlo := toNat_lo35_fromMag (m.setWidth 128) b
  rw [hm] at hhi hlo
  constructor
  · intro h
    have h1 := hhi.symm.trans h.hi35
    have h2 := hlo.symm.trans h.lo35
    -- the low word has the low 29 bits of the high part, which must be all of it
    omega
  · rintro ⟨hparts, hsmall⟩
    refine ⟨?_, ?_, hiSign_fromMag _ b, loSign_fromMag _ b⟩
    · rw [hhi, hparts]
    · rw [hlo, Nat.mod_eq_of_lt hsmall, hparts]

/-- These are read back as well. -/
lemma Packs.toMag_eq {w : W72} {m : BitVec 70} {b : Bool} (h : w.Packs m.toNat b)
    (hsmall : m.toNat < 2 ^ 64) : w.toMag = m.setWidth 128 := by
  apply BitVec.eq_of_toNat_eq
  rw [toNat_toMag_fields, h.hi35, h.lo35, BitVec.toNat_setWidth_of_le (by decide)]
  omega

/-- Packing what was unpacked exchanges the fields, the high one without its upper six bits. -/
lemma fromMag_toMag_fields (w : W72) (b : Bool) :
    (fromMag w.toMag b).hi35.toNat = w.lo35.toNat ∧
      (fromMag w.toMag b).lo35.toNat = w.hi35.toNat % 2 ^ 29 := by
  have hlo := w.lo35.isLt
  have hhi := Nat.mod_lt w.hi35.toNat (Nat.two_pow_pos 29)
  have hsmall : w.toMag.toNat < 2 ^ 64 := by
    rw [toNat_toMag_fields]
    omega
  constructor
  · rw [toNat_hi35_fromMag, toNat_toMag_fields, Nat.mul_add_mod_self_right, Nat.mod_eq_of_lt hlo]
  · rw [toNat_lo35_fromMag, Nat.mod_eq_of_lt hsmall, toNat_toMag_fields, Nat.mul_comm,
      Nat.mul_add_div (Nat.two_pow_pos 35), Nat.div_eq_of_lt hlo, Nat.add_zero]

/-- The double words that are packed again into themselves. -/
lemma fromMag_toMag_iff {w : W72} (hsign : w.hiSign = w.loSign) :
    fromMag w.toMag w.hiSign = w ↔ w.hi35 = w.lo35 ∧ w.hi35.toNat < 2 ^ 29 := by
  obtain ⟨hhi, hlo⟩ := fromMag_toMag_fields w w.hiSign
  rw [← BitVec.toNat_inj]
  constructor
  · intro h
    rw [h] at hhi hlo
    exact ⟨hhi, by omega⟩
  · rintro ⟨hparts, hsmall⟩
    refine W72.ext_mag (hiSign_fromMag _ _) ((loSign_fromMag _ _).trans hsign) ?_
    rw [mag, mag, hhi, hlo, Nat.mod_eq_of_lt hsmall, hparts]

end W72

/-- **The round trip of magnitudes**: a magnitude of 70 bits is packed as it should be and read
back exactly when its two parts are the same and it has no more than 64 bits; a double word with
one sign comes back from its magnitude exactly when its two fields are the same and have no
more than 29 bits. -/
theorem roundTrips_iff (m : BitVec 70) (b : Bool) (w : W72) :
    ((W72.fromMag (m.setWidth 128) b).Packs m.toNat b ∧
        (W72.fromMag (m.setWidth 128) b).toMag = m.setWidth 128 ↔
      m.toNat / 2 ^ 35 = m.toNat % 2 ^ 35 ∧ m.toNat < 2 ^ 64) ∧
      (w.hiSign = w.loSign →
        (W72.fromMag w.toMag w.hiSign = w ↔ w.hi35 = w.lo35 ∧ w.hi35.toNat < 2 ^ 29)) := by
  refine ⟨?_, W72.fromMag_toMag_iff⟩
  rw [W72.packs_fromMag_iff, and_iff_left_iff_imp]
  exact fun h => ((W72.packs_fromMag_iff m b).mpr h).toMag_eq h.2

/-- The double word of equal fields 5 comes back. -/
theorem roundTrips_iff_equal :
    (W72.mk 5 5).hiSign = (W72.mk 5 5).loSign ∧
      W72.fromMag (W72.mk 5 5).toMag false = W72.mk 5 5 := by
  have hsign : (W72.mk 5 5).hiSign = (W72.mk 5 5).loSign := rfl
  exact ⟨hsign, ((roundTrips_iff 0 false _).2 hsign).mpr ⟨rfl, by decide⟩⟩

/-- **A magnitude that does not come back**: 1 is packed into the high word and read back as
`2^35`. -/
theorem not_roundTrips_one :
    (W72.fromMag 1 false).hi35 = 1 ∧ (W72.fromMag 1 false).lo35 = 0 ∧
      (W72.fromMag 1 false).toMag.toNat = 2 ^ 35 ∧
      ¬ ((W72.fromMag (BitVec.setWidth 128 (1 : BitVec 70)) false).Packs
          (1 : BitVec 70).toNat false ∧
        (W72.fromMag (BitVec.setWidth 128 (1 : BitVec 70)) false).toMag =
          BitVec.setWidth 128 (1 : BitVec 70)) := by
  refine ⟨by decide, by decide, by decide, fun h => ?_⟩
  have hhi := h.1.hi35
  rw [W72.toNat_hi35_fromMag] at hhi
  revert hhi
  decide

end KM10
