import Mathlib.Algebra.Ring.Int.Defs
import Mathlib.Data.Int.Basic
import Mathlib.Tactic.Common

/-!
Cyclic rotations of bit vectors by counts with sign.

* `rotate`: the rotation to the left by `n` modulo the width;
* `getLsbD_rotate`: where each bit comes from;
* `rotate_add`, `rotate_of_dvd`: the rotations are an action of the integers, on which the
  multiples of the width act trivially;
* `rotate_tmod`: so the remainder of the count will do, whatever its sign;
* `rotate_natCast`, `rotate_neg`: the rotations as pairs of shifts.
-/

namespace Rotations

variable {w : ℕ}

/-- The cyclic rotation of a bit vector to the left by a count with sign. -/
def rotate (x : BitVec w) (n : ℤ) : BitVec w := x.rotateLeft (n % w).toNat

/-- Each bit comes from `n` places to the right of it. -/
lemma getLsbD_rotate (x : BitVec w) (n : ℤ) {i : ℕ} (hi : i < w) :
    (rotate x n).getLsbD i = x.getLsbD ((i - n) % w).toNat := by
  have hnonneg := Int.emod_nonneg n (show (w : ℤ) ≠ 0 by omega)
  have hlt := Int.emod_lt_of_pos n (show (0 : ℤ) < w by omega)
  rw [rotate, ← Int.sub_emod_emod]
  generalize n % w = r at *
  lift r to ℕ using hnonneg
  rw [Int.toNat_natCast, BitVec.getLsbD_rotateLeft_of_le (by omega)]
  by_cases hir : i < r
  · have hwrap : ((i : ℤ) - r) % w = (w - r + i : ℕ) := by
      rw [← Int.add_emod_right, Int.emod_eq_of_lt] <;> omega
    rw [decide_eq_true hir, cond_true, hwrap, Int.toNat_natCast]
  · have hback : ((i : ℤ) - r) % w = (i - r : ℕ) := by
      rw [Int.emod_eq_of_lt] <;> omega
    rw [decide_eq_false hir, cond_false, hback, Int.toNat_natCast, decide_eq_true hi,
      Bool.true_and]

/-- **Rotations add up.** -/
lemma rotate_add (x : BitVec w) (m n : ℤ) : rotate (rotate x m) n = rotate x (m + n) := by
  refine BitVec.eq_of_getLsbD_eq fun i hi => ?_
  have hnonneg := Int.emod_nonneg (i - n) (show (w : ℤ) ≠ 0 by omega)
  have hlt := Int.emod_lt_of_pos (i - n) (show (0 : ℤ) < w by omega)
  rw [getLsbD_rotate _ n hi, getLsbD_rotate x m (by omega), getLsbD_rotate x (m + n) hi,
    Int.toNat_of_nonneg hnonneg, Int.emod_sub_emod, Int.sub_sub, Int.add_comm n m]

/-- A rotation by a multiple of the width changes nothing. -/
lemma rotate_of_dvd (x : BitVec w) {n : ℤ} (h : (w : ℤ) ∣ n) : rotate x n = x := by
  refine BitVec.eq_of_getLsbD_eq fun i hi => ?_
  rw [getLsbD_rotate x n hi, ← Int.sub_emod_emod, Int.emod_eq_zero_of_dvd h, Int.sub_zero,
    Int.emod_eq_of_lt (by omega) (by omega), Int.toNat_natCast]

/-- So only the remainder of the count matters. -/
lemma rotate_congr (x : BitVec w) {m n : ℤ} (h : (w : ℤ) ∣ n - m) : rotate x m = rotate x n := by
  have hsum : rotate (rotate x m) (n - m) = rotate x n := by rw [rotate_add, add_sub_cancel]
  rw [← hsum, rotate_of_dvd _ h]

lemma rotate_tmod (x : BitVec w) (n : ℤ) : rotate x (n.tmod w) = rotate x n := by
  refine rotate_congr x ⟨n.tdiv w, ?_⟩
  have h := Int.mul_tdiv_add_tmod n w
  omega

/-! ### Rotations as shifts -/

variable {k : ℕ}

lemma rotate_natCast (x : BitVec w) (hk : k < w) : rotate x k = x <<< k ||| x >>> (w - k) := by
  rw [rotate, ← Int.natCast_mod, Int.toNat_natCast, BitVec.rotateLeft_def, Nat.mod_mod,
    Nat.mod_eq_of_lt hk]

lemma rotate_neg (x : BitVec w) (hpos : 0 < k) (hk : k < w) :
    rotate x (-k) = x >>> k ||| x <<< (w - k) := by
  have hcount : rotate x (-k) = rotate x (w - k : ℕ) := by
    refine rotate_congr x ⟨1, ?_⟩
    omega
  rw [hcount, rotate_natCast x (by omega), Nat.sub_sub_self (Nat.le_of_lt hk), BitVec.or_comm]

end Rotations
