import KM10.Arith.LongProduct

/-!
The accumulator of the long multiplication on all 256-bit numbers.

Host shifts of 128-bit numbers are defined for counts below 128 only.  `W256.shlHost` and
`W256.shrHost` are the shifts of the source with every host shift checked for that.

* `toNat_add_mod`, `toNat_shl_mod`, `toNat_shr`: what the operations do to the number;
* `shlHost_eq`, `shrHost_eq`: no host shift of theirs is undefined;
* `accumulator_exact`: the operations are exact for all counts below 256.
-/

namespace KM10

/-- A shift of the host to the left, where it is defined. -/
def hostShl (v : BitVec 128) (n : ℤ) : Option (BitVec 128) :=
  if 0 ≤ n ∧ n < 128 then some (v <<< n.toNat) else none

/-- A shift of the host to the right, where it is defined. -/
def hostShr (v : BitVec 128) (n : ℤ) : Option (BitVec 128) :=
  if 0 ≤ n ∧ n < 128 then some (v >>> n.toNat) else none

lemma hostShl_eq (v : BitVec 128) {k : ℤ} {n : ℕ} (hk : k = n) (hn : n < 128) :
    hostShl v k = some (v <<< n) := by
  subst hk
  exact if_pos ⟨Int.natCast_nonneg n, by omega⟩

lemma hostShr_eq (v : BitVec 128) {k : ℤ} {n : ℕ} (hk : k = n) (hn : n < 128) :
    hostShr v k = some (v >>> n) := by
  subst hk
  exact if_pos ⟨Int.natCast_nonneg n, by omega⟩

namespace W256

open Limbs

/-- `operator<<=` with every host shift checked. -/
def shlHost (r : W256) (n : ℤ) : Option W256 :=
  if 128 ≤ n then do
    let hi ← hostShl r.lo (n - 128)
    return ⟨0, hi⟩
  else if n ≠ 0 then do
    let high ← hostShl r.hi n
    let low ← hostShr r.lo (128 - n)
    let lo ← hostShl r.lo n
    return ⟨lo, high ||| low⟩
  else return r

/-- `operator>>=` with every host shift checked. -/
def shrHost (r : W256) (n : ℤ) : Option W256 :=
  if 128 ≤ n then do
    let lo ← hostShr r.hi (n - 128)
    return ⟨lo, 0⟩
  else if n ≠ 0 then do
    let low ← hostShr r.lo n
    let high ← hostShl r.hi (128 - n)
    let hi ← hostShr r.hi n
    return ⟨low ||| high, hi⟩
  else return r

/-- For counts below 256 no host shift is undefined. -/
lemma shlHost_eq (r : W256) {n : ℕ} (hn : n < 256) : r.shlHost n = some (r.shl n) := by
  rw [shlHost, shl]
  by_cases hle : 128 ≤ n
  · rw [if_pos (by omega), if_pos hle,
      hostShl_eq r.lo (n := n - 128) (by omega) (by omega)]
    rfl
  · rw [if_neg (by omega), if_neg hle]
    by_cases hzero : n = 0
    · rw [if_neg (by omega), if_neg (not_not.mpr hzero)]
      rfl
    · rw [if_pos (by omega), if_pos hzero, hostShl_eq r.hi rfl (by omega),
        hostShr_eq r.lo (n := 128 - n) (by omega) (by omega), hostShl_eq r.lo rfl (by omega)]
      rfl

/-- The same for shifts to the right. -/
lemma shrHost_eq (r : W256) {n : ℕ} (hn : n < 256) : r.shrHost n = some (r.shr n) := by
  rw [shrHost, shr]
  by_cases hle : 128 ≤ n
  · rw [if_pos (by omega), if_pos hle,
      hostShr_eq r.hi (n := n - 128) (by omega) (by omega)]
    rfl
  · rw [if_neg (by omega), if_neg hle]
    by_cases hzero : n = 0
    · rw [if_neg (by omega), if_neg (not_not.mpr hzero)]
      rfl
    · rw [if_pos (by omega), if_pos hzero, hostShr_eq r.lo rfl (by omega),
        hostShl_eq r.hi (n := 128 - n) (by omega) (by omega), hostShr_eq r.hi rfl (by omega)]
      rfl

/-- Two limbs hold 256 bits. -/
lemma toNat_lt (r : W256) : r.toNat < 2 ^ 256 := by
  have hhi := r.hi.isLt
  have hlo := r.lo.isLt
  rw [toNat, value]
  omega

/-- An addition, the carry out of the high limb lost. -/
lemma toNat_add_mod (r a : W256) : (r.add a).toNat = (r.toNat + a.toNat) % 2 ^ 256 :=
  value_add r.hi r.lo a.hi a.lo

/-- A shift to the left by any count. -/
lemma toNat_shl_mod (r : W256) (n : ℕ) : (r.shl n).toNat = r.toNat * 2 ^ n % 2 ^ 256 := by
  rw [shl]
  split
  case isTrue hle => exact value_shl_of_le hle r.hi r.lo
  case isFalse hlt =>
    split
    case isTrue => exact value_shl (not_le.mp hlt) r.hi r.lo
    case isFalse hzero =>
      rw [not_not.mp hzero, pow_zero, Nat.mul_one, Nat.mod_eq_of_lt r.toNat_lt]

/-- A shift to the right by any count. -/
lemma toNat_shr (r : W256) (n : ℕ) : (r.shr n).toNat = r.toNat / 2 ^ n := by
  rw [shr]
  split
  case isTrue hle => exact value_shr_of_le hle r.hi r.lo
  case isFalse hlt =>
    split
    case isTrue hne => exact value_shr (Nat.pos_of_ne_zero hne) (not_le.mp hlt) r.hi r.lo
    case isFalse hzero => rw [not_not.mp hzero, pow_zero, Nat.div_one]

end W256

/-- **The accumulator is exact**: addition is that of numbers modulo `2^256`, and so is a shift
to the left, for every count below 256; a shift to the right is a quotient rounded down; and no
host shift in either is by less than 0 or by 128 or more. -/
theorem accumulator_exact :
    (∀ r a : W256, (r.add a).toNat = (r.toNat + a.toNat) % 2 ^ 256) ∧
      ∀ (r : W256) (n : ℕ), n < 256 →
        (r.shlHost n = some (r.shl n) ∧ (r.shl n).toNat = r.toNat * 2 ^ n % 2 ^ 256) ∧
          r.shrHost n = some (r.shr n) ∧ (r.shr n).toNat = r.toNat / 2 ^ n :=
  ⟨W256.toNat_add_mod, fun r n hn =>
    ⟨⟨r.shlHost_eq hn, r.toNat_shl_mod n⟩, r.shrHost_eq hn, r.toNat_shr n⟩⟩

/-- One shifted by 128 is in the high limb. -/
theorem accumulator_exact_limb :
    (128 < 256) ∧ W256.shlHost ⟨1, 0⟩ (128 : ℕ) = some ⟨0, 1⟩ :=
  have hlt : 128 < 256 := by decide
  ⟨hlt, (accumulator_exact.2 ⟨1, 0⟩ 128 hlt).1.1⟩

end KM10
