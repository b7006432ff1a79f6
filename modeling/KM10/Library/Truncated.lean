import Mathlib.Algebra.Group.Int.Defs
import Mathlib.Algebra.Order.Ring.Int
import Mathlib.Tactic.Common
import Mathlib.Tactic.Linarith

/-!
Division of integers with sign, towards zero.

* `IsQuotient D d q r`: `q` and `r` are a quotient and a remainder of `D` by `d`, the remainder
  being smaller than `d` and of the sign of `D`;
* `IsQuotient.unique`: there is one such pair at most;
* `isQuotient_tdiv`: `Int.tdiv` and `Int.tmod` are it;
* `isQuotient_mul_iff`: the pair of a multiple.
-/

namespace Truncated

/-- A quotient and a remainder of a dividend `D` by a divisor `d`: the remainder is smaller than
the divisor, and is zero or has the sign of the dividend. -/
structure IsQuotient (D d q r : ℤ) : Prop where
  eq : D = q * d + r
  lt : r.natAbs < d.natAbs
  pos : 0 < r → 0 < D
  neg : r < 0 → D < 0

variable {D d q r q' r' : ℤ}

/-- Two remainders of a dividend differ by less than the divisor. -/
lemma IsQuotient.unique (h : IsQuotient D d q r) (h' : IsQuotient D d q' r') :
    q = q' ∧ r = r' := by
  have hdiff : (q - q') * d = r' - r := by
    have heq := h.eq.symm.trans h'.eq
    linarith
  have hlt : (r' - r).natAbs < d.natAbs := by
    have hpos := h.pos
    have hneg := h.neg
    have hpos' := h'.pos
    have hneg' := h'.neg
    have hr := h.lt
    have hr' := h'.lt
    omega
  have hq : q - q' = 0 := by
    by_contra hne
    have hle := Nat.le_mul_of_pos_left d.natAbs (Int.natAbs_pos.mpr hne)
    rw [← Int.natAbs_mul, hdiff] at hle
    omega
  rw [hq, Int.zero_mul] at hdiff
  omega

/-- The quotient towards zero and its remainder. -/
lemma isQuotient_tdiv (D : ℤ) (hd : d ≠ 0) : IsQuotient D d (D.tdiv d) (D.tmod d) where
  eq := by rw [Int.add_comm, Int.tmod_add_tdiv_mul]
  lt := by
    rw [Int.natAbs_tmod]
    exact Nat.mod_lt _ (Int.natAbs_pos.mpr hd)
  pos h := by
    by_contra hD
    have hneg := Int.tmod_nonneg d (show 0 ≤ -D by omega)
    rw [Int.neg_tmod] at hneg
    omega
  neg h := by
    by_contra hD
    have hnonneg := Int.tmod_nonneg d (not_lt.mp hD)
    omega

/-- A pair is the quotient and the remainder exactly if it is that of `Int.tdiv`. -/
lemma isQuotient_iff (hd : d ≠ 0) : IsQuotient D d q r ↔ q = D.tdiv d ∧ r = D.tmod d := by
  constructor
  · exact fun h => h.unique (isQuotient_tdiv D hd)
  · rintro ⟨rfl, rfl⟩
    exact isQuotient_tdiv D hd

/-- A multiple has its factor as quotient, and no remainder. -/
lemma isQuotient_mul_iff {a : ℤ} (hd : d ≠ 0) : IsQuotient (a * d) d q r ↔ q = a ∧ r = 0 := by
  rw [isQuotient_iff hd, Int.mul_tdiv_cancel _ hd, Int.mul_tmod_left]

end Truncated
