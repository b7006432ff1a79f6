import Mathlib.Algebra.Group.Nat.Defs
import Mathlib.Algebra.Order.Ring.Nat
import Mathlib.Data.Nat.Notation
import Mathlib.Tactic.Common
import Mathlib.Tactic.Ring

/-!
Numbers in two limbs of `w` bits.

* `value`: the number of a high and a low limb;
* `value_add`: addition, with the carry read off the sum of the low limbs;
* `value_shl`, `value_shl_of_le`: a shift to the left by less than a limb, and by more;
* `lo_shr`: the low limb of a shift to the right by less than a limb;
* `value_shr`, `value_shr_of_le`: a shift to the right by less than a limb, and by more.
-/

namespace Limbs

variable {w : ℕ}

/-- The number of a high and a low limb. -/
def value (hi lo : BitVec w) : ℕ := hi.toNat * 2 ^ w + lo.toNat

/-- A number below `2^w` times the base, in two parts. -/
lemma mod_sq (hi lo : ℕ) :
    (hi * 2 ^ w + lo) % (2 ^ w * 2 ^ w) = (hi + lo / 2 ^ w) % 2 ^ w * 2 ^ w + lo % 2 ^ w := by
  have hpos := Nat.two_pow_pos w
  rw [Nat.mod_mul, Nat.mul_add_mod_self_right, Nat.mul_comm hi, Nat.mul_add_div hpos,
    Nat.mul_comm (2 ^ w), Nat.add_comm]

/-- The sum of two limbs is smaller than either exactly if it carries. -/
lemma add_lt_right_iff (x y : BitVec w) : x + y < y ↔ 2 ^ w ≤ x.toNat + y.toNat := by
  have hx := x.isLt
  have hy := y.isLt
  rw [BitVec.lt_def, BitVec.toNat_add]
  by_cases hcarry : 2 ^ w ≤ x.toNat + y.toNat
  · rw [Nat.mod_eq_sub_mod hcarry, Nat.mod_eq_of_lt (by omega)]
    omega
  · rw [Nat.mod_eq_of_lt (by omega)]
    omega

/-- The carry of two limbs. -/
lemma add_div_eq (x y : BitVec w) :
    (x.toNat + y.toNat) / 2 ^ w = if x + y < y then 1 else 0 := by
  have hx := x.isLt
  have hy := y.isLt
  have hpos := Nat.two_pow_pos w
  split
  case isTrue hlt =>
    rw [add_lt_right_iff] at hlt
    rw [Nat.div_eq_iff hpos]
    omega
  case isFalse hle =>
    rw [add_lt_right_iff, not_le] at hle
    exact Nat.div_eq_of_lt hle

/-- **Addition** of numbers in two limbs. -/
lemma value_add (hi lo hi' lo' : BitVec w) :
    value (hi + hi' + if lo + lo' < lo' then 1 else 0) (lo + lo') =
      (value hi lo + value hi' lo') % (2 ^ w * 2 ^ w) := by
  have hsum : value hi lo + value hi' lo' =
      (hi.toNat + hi'.toNat) * 2 ^ w + (lo.toNat + lo'.toNat) := by
    rw [value, value]
    ring
  have hcarry : (if lo + lo' < lo' then 1 else 0 : BitVec w).toNat =
      (if lo + lo' < lo' then 1 else 0) % 2 ^ w := by
    split
    · exact BitVec.toNat_ofNat 1 w
    · rw [Nat.zero_mod]
      rfl
  rw [hsum, mod_sq, add_div_eq, value, BitVec.toNat_add, BitVec.toNat_add, BitVec.toNat_add,
    hcarry, Nat.add_mod_mod, Nat.mod_add_mod]

/-- A limb shifted to the left, and the bits that come in from the right. -/
lemma toNat_shl_or {n : ℕ} (hn : n < w) (x y : BitVec w) :
    ((x <<< n) ||| (y >>> (w - n))).toNat = (x.toNat * 2 ^ n + y.toNat / 2 ^ (w - n)) % 2 ^ w := by
  have hy : y.toNat / 2 ^ (w - n) < 2 ^ n := by
    refine Nat.div_lt_of_lt_mul ?_
    rw [← pow_add, Nat.sub_add_cancel hn.le]
    exact y.isLt
  have hw : 2 ^ w = 2 ^ n * 2 ^ (w - n) := by
    rw [← pow_add, Nat.add_sub_cancel' hn.le]
  have hx : x.toNat * 2 ^ n % 2 ^ w = (x.toNat % 2 ^ (w - n)) <<< n := by
    rw [hw, Nat.mul_comm x.toNat, Nat.mul_mod_mul_left, Nat.shiftLeft_eq, Nat.mul_comm]
  have hlt : x.toNat % 2 ^ (w - n) * 2 ^ n + y.toNat / 2 ^ (w - n) < 2 ^ w := by
    have hmod := Nat.mod_lt x.toNat (Nat.two_pow_pos (w - n))
    have hmul := Nat.mul_le_mul_right (2 ^ n) (Nat.succ_le_of_lt hmod)
    rw [Nat.succ_mul, ← pow_add, Nat.sub_add_cancel hn.le] at hmul
    omega
  rw [BitVec.toNat_or, BitVec.toNat_shiftLeft, BitVec.toNat_ushiftRight, Nat.shiftLeft_eq, hx,
    Nat.shiftRight_eq_div_pow, ← Nat.shiftLeft_add_eq_or_of_lt hy, ← Nat.mod_add_mod, hx,
    Nat.shiftLeft_eq, Nat.mod_eq_of_lt hlt]

/-- **A shift to the left**. -/
lemma value_shl {n : ℕ} (hn : n < w) (hi lo : BitVec w) :
    value ((hi <<< n) ||| (lo >>> (w - n))) (lo <<< n) =
      value hi lo * 2 ^ n % (2 ^ w * 2 ^ w) := by
  have hmul : value hi lo * 2 ^ n = hi.toNat * 2 ^ n * 2 ^ w + lo.toNat * 2 ^ n := by
    rw [value]
    ring
  have hw : 2 ^ w = 2 ^ n * 2 ^ (w - n) := by
    rw [← pow_add, Nat.add_sub_cancel' hn.le]
  have hcarry : lo.toNat * 2 ^ n / 2 ^ w = lo.toNat / 2 ^ (w - n) := by
    rw [hw, Nat.mul_comm lo.toNat, Nat.mul_div_mul_left _ _ (Nat.two_pow_pos n)]
  rw [hmul, mod_sq, hcarry, value, toNat_shl_or hn, BitVec.toNat_shiftLeft, Nat.shiftLeft_eq]

/-- **A shift to the right**, in its low limb. -/
lemma lo_shr {n : ℕ} (hpos : 0 < n) (hn : n ≤ w) (hi lo : BitVec w) :
    ((lo >>> n) ||| (hi <<< (w - n))).toNat = value hi lo / 2 ^ n % 2 ^ w := by
  have hw : 2 ^ w = 2 ^ n * 2 ^ (w - n) := by
    rw [← pow_add, Nat.add_sub_cancel' hn]
  have hdiv : value hi lo / 2 ^ n = hi.toNat * 2 ^ (w - n) + lo.toNat / 2 ^ n := by
    rw [value, hw, Nat.mul_comm (2 ^ n), ← Nat.mul_assoc, Nat.mul_comm _ (2 ^ n),
      Nat.mul_add_div (Nat.two_pow_pos n)]
  have hor := toNat_shl_or (Nat.sub_lt (hpos.trans_le hn) hpos) hi lo
  rw [Nat.sub_sub_self hn] at hor
  rw [BitVec.or_comm, hor, hdiv]

/-- The low limb does not reach the high one. -/
lemma value_div (hi lo : BitVec w) : value hi lo / 2 ^ w = hi.toNat := by
  rw [value, Nat.mul_comm, Nat.mul_add_div (Nat.two_pow_pos w), Nat.div_eq_of_lt lo.isLt,
    Nat.add_zero]

/-- **A shift to the left** by a limb or more, which only the low limb survives. -/
lemma value_shl_of_le {n : ℕ} (hn : w ≤ n) (hi lo : BitVec w) :
    value (lo <<< (n - w)) 0 = value hi lo * 2 ^ n % (2 ^ w * 2 ^ w) := by
  have hzero : (0 : BitVec w).toNat = 0 := BitVec.toNat_zero
  have hn' : 2 ^ n = 2 ^ (n - w) * 2 ^ w := by
    rw [← pow_add, Nat.sub_add_cancel hn]
  have hmul : value hi lo * 2 ^ (n - w) =
      hi.toNat * 2 ^ (n - w) * 2 ^ w + lo.toNat * 2 ^ (n - w) := by
    rw [value]
    ring
  calc value (lo <<< (n - w)) 0
      = lo.toNat * 2 ^ (n - w) % 2 ^ w * 2 ^ w := by
        rw [value, hzero, BitVec.toNat_shiftLeft, Nat.shiftLeft_eq, Nat.add_zero]
    _ = value hi lo * 2 ^ (n - w) % 2 ^ w * 2 ^ w := by rw [hmul, Nat.mul_add_mod_self_right]
    _ = value hi lo * 2 ^ n % (2 ^ w * 2 ^ w) := by
        rw [hn', ← Nat.mul_assoc, Nat.mul_mod_mul_right]

/-- **A shift to the right**, in both limbs. -/
lemma value_shr {n : ℕ} (hpos : 0 < n) (hn : n < w) (hi lo : BitVec w) :
    value (hi >>> n) ((lo >>> n) ||| (hi <<< (w - n))) = value hi lo / 2 ^ n := by
  have hhigh : (hi >>> n).toNat = value hi lo / 2 ^ n / 2 ^ w := by
    rw [Nat.div_div_eq_div_mul, Nat.mul_comm, ← Nat.div_div_eq_div_mul, value_div,
      BitVec.toNat_ushiftRight, Nat.shiftRight_eq_div_pow]
  rw [value, hhigh, lo_shr hpos hn.le]
  exact Nat.div_add_mod' _ _

/-- **A shift to the right** by a limb or more, which only the high limb survives. -/
lemma value_shr_of_le {n : ℕ} (hn : w ≤ n) (hi lo : BitVec w) :
    value 0 (hi >>> (n - w)) = value hi lo / 2 ^ n := by
  have hzero : (0 : BitVec w).toNat = 0 := BitVec.toNat_zero
  have hn' : 2 ^ n = 2 ^ w * 2 ^ (n - w) := by
    rw [← pow_add, Nat.add_sub_cancel' hn]
  rw [hn', ← Nat.div_div_eq_div_mul, value_div, value, hzero, BitVec.toNat_ushiftRight,
    Nat.shiftRight_eq_div_pow, Nat.zero_mul, Nat.zero_add]

end Limbs
