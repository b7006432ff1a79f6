import Mathlib.RingTheory.Coprime.Lemmas
import Mathlib.Tactic.Linarith
import Mathlib.Tactic.Positivity
import Mathlib.Tactic.Ring

/-!
Shifts as multiples by powers of two and as quotients, rounded down: arithmetic ones of numbers with
sign first, logical ones of bit vectors at the end.

A number is one of `w` bits and a sign if it is at least `-2^w` and less than `2^w`; its field is
the remainder modulo `2^w`.

* `shiftLeft_eq_ofInt`, `sshiftRight_eq_ofInt`, `toNat_and_lowBits`: the shifts of bit vectors;
* `tmod_eq_self`: counts below the width;
* `ediv_pow_bounds`, `ediv_pow_eq_zero_iff`: quotients;
* `multiple_field_eq_zero_iff`, `quotient_field_eq_zero_iff`: the shifts that leave no bits;
* `multiple_far`, `quotient_far`, `quotient_field_eq_far_iff`: shifts beyond the bits of a number;
* `eq_zero_of_repeats`, `not_fits_of_repeats`: the numbers of which a multiple and a quotient have
  the same field;
* `logical`, `logical_add`, `logical_far`: logical shifts by counts with sign;
* `logical_natCast_eq_zero_iff`, `logical_neg_eq_zero_iff`: those that leave nothing.
-/

namespace Shifts

/-! ### Bit vectors -/

section BitVectors

variable {w : ℕ}

lemma sshiftRight_eq_ofInt (x : BitVec w) (n : ℕ) :
    x.sshiftRight n = BitVec.ofInt w (x.toInt / 2 ^ n) := by
  rw [BitVec.sshiftRight_eq, Int.shiftRight_eq_div_pow]
  rfl

lemma shiftLeft_eq_ofInt (x : BitVec w) (n : ℕ) :
    x <<< n = BitVec.ofInt w (x.toInt * 2 ^ n) := by
  have htwo : BitVec.ofInt w (2 ^ n) = BitVec.twoPow w n := by
    apply BitVec.eq_of_toNat_eq
    rw [BitVec.toNat_ofInt, BitVec.toNat_twoPow]
    exact congrArg Int.toNat (Int.natCast_mod (2 ^ n) (2 ^ w)).symm
  rw [BitVec.ofInt_mul, BitVec.ofInt_toInt, htwo, BitVec.shiftLeft_eq_mul_twoPow]

/-- A signed number modulo a power of two is that of its bits. -/
lemma toInt_emod_pow (x : BitVec w) {n : ℕ} (hn : n ≤ w) :
    x.toInt % 2 ^ n = (x.toNat % 2 ^ n : ℕ) := by
  have hmod : x.toInt % (2 ^ w : ℕ) = x.toNat := by
    rw [BitVec.toInt_eq_toNat_bmod, Int.bmod_emod, ← Int.natCast_mod, Nat.mod_eq_of_lt x.isLt]
  have hdvd : (2 ^ n : ℤ) ∣ (2 ^ w : ℕ) := by
    rw [Nat.cast_pow]
    exact pow_dvd_pow 2 hn
  rw [← Int.emod_emod_of_dvd _ hdvd, hmod]
  rfl

/-- A shift to the right loses the low bits, what is left of a division. -/
lemma toNat_and_lowBits (x : BitVec w) {n : ℕ} (hn : n ≤ w) :
    ((x &&& BitVec.ofNat w (2 ^ n - 1)).toNat : ℤ) = x.toInt % 2 ^ n := by
  have hlt : 2 ^ n - 1 < 2 ^ w :=
    (Nat.sub_one_lt (Nat.two_pow_pos n).ne').trans_le (Nat.pow_le_pow_right (by decide) hn)
  rw [BitVec.toNat_and, BitVec.toNat_ofNat, Nat.mod_eq_of_lt hlt, Nat.and_two_pow_sub_one_eq_mod,
    toInt_emod_pow x hn]

end BitVectors

/-! ### Counts -/

/-- A count with a magnitude below the width is its own remainder, rounded towards zero. -/
lemma tmod_eq_self {w : ℕ} {n : ℤ} (h : n.natAbs < w) : n.tmod w = n := by
  obtain ⟨m, rfl | rfl⟩ := n.eq_nat_or_neg
  · exact Int.tmod_eq_of_lt (by omega) (by omega)
  · rw [Int.neg_tmod, Int.tmod_eq_of_lt (by omega) (by omega)]

/-! ### Multiples and quotients -/

variable {w : ℕ} {a : ℤ} {n : ℕ}

lemma two_le_pow (hn : 0 < n) : (2 : ℤ) ≤ 2 ^ n := by
  calc (2 : ℤ) = 2 ^ 1 := (pow_one 2).symm
    _ ≤ 2 ^ n := pow_le_pow_right₀ (by decide) hn

/-- A quotient has no more bits, and the sign of the dividend. -/
lemma ediv_pow_bounds (hle : -2 ^ w ≤ a) (hlt : a < 2 ^ w) (n : ℕ) :
    -2 ^ w ≤ a / 2 ^ n ∧ a / 2 ^ n < 2 ^ w ∧ (a / 2 ^ n < 0 ↔ a < 0) := by
  have hpos : (0 : ℤ) < 2 ^ n := by positivity
  have hw : (0 : ℤ) < 2 ^ w := by positivity
  refine ⟨Int.le_ediv_of_mul_le hpos (by nlinarith), Int.ediv_lt_of_lt_mul hpos (by nlinarith), ?_⟩
  rw [← not_le, Int.ediv_nonneg_iff_of_pos hpos, not_le]

/-- A quotient that is zero. -/
lemma ediv_pow_eq_zero_iff (a : ℤ) (n : ℕ) : a / 2 ^ n = 0 ↔ 0 ≤ a ∧ a < 2 ^ n := by
  have hpos : (0 : ℤ) < 2 ^ n := by positivity
  constructor
  · intro h
    have hmod := Int.mul_ediv_add_emod a (2 ^ n)
    rw [h, Int.mul_zero, Int.zero_add] at hmod
    rw [← hmod]
    exact ⟨Int.emod_nonneg _ hpos.ne', Int.emod_lt_of_pos _ hpos⟩
  · exact fun h => Int.ediv_eq_zero_of_lt h.1 h.2

/-- Numbers with the same field that differ by less than `2^w`. -/
lemma eq_of_field_eq {x y : ℤ} (h : x % 2 ^ w = y % 2 ^ w) (hlt : |x - y| < 2 ^ w) : x = y := by
  have hdvd := Int.dvd_of_emod_eq_zero (Int.emod_eq_emod_iff_emod_sub_eq_zero.mp h)
  exact Int.sub_eq_zero.mp (Int.eq_zero_of_abs_lt_dvd hdvd hlt)

/-- The field of a multiple is zero exactly if that of the number is a multiple itself. -/
lemma multiple_field_eq_zero_iff (w : ℕ) (a : ℤ) (n : ℕ) :
    a * 2 ^ n % 2 ^ w = 0 ↔ 2 ^ (w - n) ∣ a := by
  rw [← Int.dvd_iff_emod_eq_zero]
  rcases le_total n w with hle | hle
  · have hpow : (2 : ℤ) ^ w = 2 ^ (w - n) * 2 ^ n := by
      rw [← pow_add, Nat.sub_add_cancel hle]
    have hne : (2 : ℤ) ^ n ≠ 0 := by positivity
    rw [hpow, mul_dvd_mul_iff_right hne]
  · rw [Nat.sub_eq_zero_of_le hle, pow_zero]
    exact iff_of_true ((pow_dvd_pow 2 hle).mul_left a) (one_dvd a)

/-- The field of a quotient is zero exactly if the quotient is. -/
lemma quotient_field_eq_zero_iff (hw : 0 < w) (hle : -2 ^ w ≤ a) (hlt : a < 2 ^ w) (hn : 0 < n) :
    a / 2 ^ n % 2 ^ w = 0 ↔ 0 ≤ a ∧ a < 2 ^ n := by
  have htwo := two_le_pow hn
  have hw := two_le_pow hw
  have hge : -2 ^ w < a / 2 ^ n := by
    refine lt_of_lt_of_le (b := -2 ^ w + 1) (by linarith) (Int.le_ediv_of_mul_le (by linarith) ?_)
    nlinarith
  have hlt' := (ediv_pow_bounds hle hlt n).2.1
  rw [← ediv_pow_eq_zero_iff]
  constructor
  · intro h
    refine eq_of_field_eq (h.trans (Int.zero_emod _).symm) ?_
    rw [Int.sub_zero, abs_lt]
    exact ⟨hge, hlt'⟩
  · intro h
    rw [h, Int.zero_emod]

/-- Beyond the bits of a number, a multiple has no field, and does not fit unless it is zero. -/
lemma multiple_far (a : ℤ) (hn : w < n) :
    a * 2 ^ n % 2 ^ w = 0 ∧ (a * 2 ^ n < -2 ^ w ∨ 2 ^ w ≤ a * 2 ^ n ↔ a ≠ 0) := by
  have hpow : (2 : ℤ) ^ w < 2 ^ n := pow_lt_pow_right₀ (by decide) hn
  have hw : (0 : ℤ) < 2 ^ w := by positivity
  refine ⟨Int.emod_eq_zero_of_dvd ((pow_dvd_pow 2 hn.le).mul_left a), ?_⟩
  constructor
  · rintro h rfl
    rw [Int.zero_mul] at h
    rcases h with h | h <;> linarith
  · intro hne
    rcases lt_or_gt_of_ne hne with hneg | hpos
    · exact .inl (by nlinarith)
    · exact .inr (by nlinarith)

/-- And a quotient is rounded down to zero or -1. -/
lemma quotient_far (hle : -2 ^ w ≤ a) (hlt : a < 2 ^ w) (hn : w ≤ n) :
    a / 2 ^ n = if a < 0 then -1 else 0 := by
  have hpow : (2 : ℤ) ^ w ≤ 2 ^ n := pow_le_pow_right₀ (by decide) hn
  have hpos : (0 : ℤ) < 2 ^ n := by positivity
  have hge : -1 ≤ a / 2 ^ n := Int.le_ediv_of_mul_le hpos (by linarith)
  have hneg := (ediv_pow_bounds hle hlt n).2.2
  have hlt' : a / 2 ^ n < 1 := Int.ediv_lt_of_lt_mul hpos (by linarith)
  split <;> omega

/-- The field of a quotient is that of a shift beyond the bits exactly if the quotient is zero
or -1. -/
lemma quotient_field_eq_far_iff (hw : 0 < w) (hle : -2 ^ w ≤ a) (hlt : a < 2 ^ w) (hn : 0 < n) :
    a / 2 ^ n % 2 ^ w = (if a < 0 then -1 else 0) % 2 ^ w ↔ -2 ^ n ≤ a ∧ a < 2 ^ n := by
  have htwo := two_le_pow hn
  split
  case isTrue hneg =>
    obtain ⟨hqle, -, hqneg⟩ := ediv_pow_bounds hle hlt n
    have hquot := hqneg.mpr hneg
    have hminus : a / 2 ^ n = -1 ↔ -2 ^ n ≤ a := by
      have h := Int.le_ediv_iff_mul_le (a := -1) (b := a) (c := 2 ^ n) (by linarith)
      rw [Int.neg_one_mul] at h
      omega
    rw [and_iff_left (by linarith), ← hminus]
    constructor
    · intro h
      refine eq_of_field_eq h ?_
      rw [abs_lt]
      constructor <;> linarith
    · intro h
      rw [h]
  case isFalse hneg =>
    rw [Int.zero_emod, quotient_field_eq_zero_iff hw hle hlt hn]
    constructor
    · exact fun h => ⟨by linarith, h.2⟩
    · exact fun h => ⟨not_lt.mp hneg, h.2⟩

/-- Of the numbers that have such a quotient, only zero and -1 are not rounded. -/
lemma emod_pow_eq_far_iff (hn : 0 < n) (hle : -2 ^ n ≤ a) (hlt : a < 2 ^ n) :
    (a % 2 ^ n = if a < 0 then 2 ^ n - 1 else 0) ↔ a = 0 ∨ a = -1 := by
  have htwo := two_le_pow hn
  split
  case isTrue hneg =>
    by_cases hleast : a = -2 ^ n
    · rw [hleast, Int.neg_emod_self]
      constructor
      · intro h
        linarith
      · rintro (h | h) <;> linarith
    · have hmod : a % 2 ^ n = a + 2 ^ n := by
        rw [← Int.add_emod_right]
        exact Int.emod_eq_of_lt (by linarith) (by linarith)
      rw [hmod]
      omega
  case isFalse hneg =>
    rw [Int.emod_eq_of_lt (not_lt.mp hneg) hlt]
    omega
/-! ### Repeating numbers -/

/-- A number of which a multiple and the quotient have the same field loses bits to the right
unless it is zero: multiplied by the odd number `4^n - 1` its quotient would have no field. -/
lemma eq_zero_of_repeats (hle : -2 ^ w ≤ a) (hlt : a < 2 ^ w) (hn : 0 < n)
    (hrep : a / 2 ^ n % 2 ^ w = a * 2 ^ n % 2 ^ w) (hlost : a % 2 ^ n = 0) : a = 0 := by
  have htwo := two_le_pow hn
  have hw : (0 : ℤ) < 2 ^ w := by positivity
  obtain ⟨q, rfl⟩ := Int.dvd_of_emod_eq_zero hlost
  rw [Int.mul_ediv_cancel_left _ (by linarith)] at hrep
  have hdvd : (2 ^ w : ℤ) ∣ (2 ^ n * 2 ^ n - 1) * q := by
    have h := Int.dvd_of_emod_eq_zero (Int.emod_eq_emod_iff_emod_sub_eq_zero.mp hrep.symm)
    have hfactor : 2 ^ n * q * 2 ^ n - q = (2 ^ n * 2 ^ n - 1) * q := by ring
    rwa [hfactor] at h
  have hcoprime : IsCoprime (2 ^ w : ℤ) (2 ^ n * 2 ^ n - 1) := by
    obtain ⟨m, rfl⟩ := Nat.exists_eq_add_of_lt hn
    exact IsCoprime.pow_left ⟨2 ^ m * 2 ^ (0 + m + 1), -1, by ring⟩
  have hq : q = 0 := by
    refine Int.eq_zero_of_abs_lt_dvd (hcoprime.dvd_of_dvd_mul_left hdvd) ?_
    rw [abs_lt]
    constructor <;> nlinarith
  rw [hq, Int.mul_zero]

/-- The multiple of such a number does not fit unless it is zero. -/
lemma not_fits_of_repeats (hn : 0 < n) (hrep : a / 2 ^ n % 2 ^ w = a * 2 ^ n % 2 ^ w)
    (hne : a ≠ 0) : a * 2 ^ n < -2 ^ w ∨ 2 ^ w ≤ a * 2 ^ n := by
  have htwo := two_le_pow hn
  by_contra hfits
  rw [not_or, not_lt, not_le] at hfits
  -- the quotient is nearer to zero than the multiple, by less than `2^w`
  rcases lt_or_gt_of_ne hne with hneg | hpos
  · have hquot : a ≤ a / 2 ^ n := Int.le_ediv_of_mul_le (by linarith) (by nlinarith)
    have hquot' : a / 2 ^ n < 0 := Int.ediv_neg_of_neg_of_pos hneg (by linarith)
    have hmul : a * 2 ^ n < a := by nlinarith
    have heq := eq_of_field_eq hrep (abs_lt.mpr ⟨by linarith, by linarith⟩)
    linarith
  · have hquot : a / 2 ^ n ≤ a := Int.ediv_le_self _ hpos.le
    have hquot' : 0 ≤ a / 2 ^ n := Int.ediv_nonneg hpos.le (by linarith)
    have hmul : a < a * 2 ^ n := by nlinarith
    have heq := eq_of_field_eq hrep (abs_lt.mpr ⟨by linarith, by linarith⟩)
    linarith

/-! ### Logical shifts -/

/-- The logical shift of a bit vector by a count with sign: the low bits of a multiple, or a
quotient. -/
def logical (x : BitVec w) (n : ℤ) : BitVec w :=
  BitVec.ofNat w (if 0 ≤ n then x.toNat * 2 ^ n.natAbs else x.toNat / 2 ^ n.natAbs)

section Logical

variable (x : BitVec w) (n : ℕ)

lemma logical_natCast : logical x n = x <<< n := by
  apply BitVec.eq_of_toNat_eq
  rw [logical, if_pos (Int.natCast_nonneg n), Int.natAbs_natCast, BitVec.toNat_ofNat,
    BitVec.toNat_shiftLeft, Nat.shiftLeft_eq]

lemma logical_neg : logical x (-n) = x >>> n := by
  apply BitVec.eq_of_toNat_eq
  have hlt : x.toNat / 2 ^ n < 2 ^ w := (Nat.div_le_self _ _).trans_lt x.isLt
  have hquot : (if 0 ≤ -(n : ℤ) then x.toNat * 2 ^ n else x.toNat / 2 ^ n) = x.toNat / 2 ^ n := by
    cases n with
    | zero => rw [pow_zero, Nat.mul_one, Nat.div_one, ite_self]
    | succ n => exact if_neg (by omega)
  rw [logical, Int.natAbs_neg, Int.natAbs_natCast, hquot, BitVec.toNat_ofNat, Nat.mod_eq_of_lt hlt,
    BitVec.toNat_ushiftRight, Nat.shiftRight_eq_div_pow]

/-- Nothing is left of a multiple of a high power of two. -/
lemma logical_natCast_eq_zero_iff {n : ℕ} (hn : n ≤ w) :
    logical x n = 0 ↔ 2 ^ (w - n) ∣ x.toNat := by
  have hpow : 2 ^ w = 2 ^ (w - n) * 2 ^ n := by rw [← pow_add, Nat.sub_add_cancel hn]
  rw [logical_natCast, ← BitVec.toNat_inj, BitVec.toNat_shiftLeft, Nat.shiftLeft_eq, hpow]
  change _ % _ = 0 % _ ↔ _
  rw [Nat.zero_mod, ← Nat.dvd_iff_mod_eq_zero, Nat.mul_dvd_mul_iff_right (Nat.two_pow_pos n)]

/-- Nor is anything left of a number below the power of two that it is divided by. -/
lemma logical_neg_eq_zero_iff : logical x (-n) = 0 ↔ x.toNat < 2 ^ n := by
  rw [logical_neg, ← BitVec.toNat_inj, BitVec.toNat_ushiftRight, Nat.shiftRight_eq_div_pow]
  change _ = 0 % _ ↔ _
  rw [Nat.zero_mod, Nat.div_eq_zero_iff_lt (Nat.two_pow_pos n)]

end Logical

/-- Shifts in the same direction add up. -/
lemma logical_add (x : BitVec w) {m n : ℤ} (h : (0 ≤ m ∧ 0 ≤ n) ∨ (m ≤ 0 ∧ n ≤ 0)) :
    logical (logical x m) n = logical x (m + n) := by
  rcases h with ⟨hm, hn⟩ | ⟨hm, hn⟩
  · lift m to ℕ using hm
    lift n to ℕ using hn
    rw [logical_natCast, logical_natCast, ← Int.natCast_add, logical_natCast, BitVec.shiftLeft_add]
  · obtain ⟨m, rfl⟩ := Int.exists_eq_neg_ofNat hm
    obtain ⟨n, rfl⟩ := Int.exists_eq_neg_ofNat hn
    rw [logical_neg, logical_neg, ← Int.neg_add, ← Int.natCast_add, logical_neg,
      BitVec.shiftRight_add]

/-- Beyond the width nothing is left. -/
lemma logical_far (x : BitVec w) {n : ℤ} (hn : w ≤ n.natAbs) : logical x n = 0 := by
  obtain ⟨m, rfl | rfl⟩ := n.eq_nat_or_neg
  · rw [logical_natCast]
    exact BitVec.shiftLeft_eq_zero hn
  · rw [Int.natAbs_neg] at hn
    rw [logical_neg]
    exact BitVec.ushiftRight_eq_zero hn

end Shifts
