import Mathlib.Algebra.Order.Ring.Int
import Mathlib.Tactic.Linarith
import Mathlib.Tactic.Ring

/-!
An odometer with two wheels.

The low wheel has the digits `0` to `B - 1`.  Of a reading `c`, `c % B` is the digit of the low
wheel and `c / B` that of the high one.  Readings may be negative.

* `ediv_emod_of_eq`: the digits are determined by the reading;
* `tick_of_last`: after its last digit the low wheel starts again, and the high one moves;
* `tick_of_not_last`: after the others only the low one does.
-/

namespace Odometer

variable {B a b c : ℤ}

/-- The digits are determined by the reading. -/
lemma ediv_emod_of_eq (hb : 0 ≤ b) (hlt : b < B) (h : a * B + b = c) : c / B = a ∧ c % B = b := by
  have hpos : 0 < B := hb.trans_lt hlt
  refine (Int.ediv_emod_unique hpos).mpr ⟨?_, hb, hlt⟩
  rw [← h]
  ring

/-- The reading from its digits. -/
lemma reading (B c : ℤ) : c / B * B + c % B = c := by
  rw [Int.mul_comm, Int.mul_ediv_add_emod]

/-- After the last digit of the low wheel the high one moves. -/
lemma tick_of_last (hB : 0 < B) (h : c % B = B - 1) :
    (c + 1) / B = c / B + 1 ∧ (c + 1) % B = 0 := by
  refine ediv_emod_of_eq le_rfl hB ?_
  have hc := reading B c
  linarith

/-- After the others the low one does. -/
lemma tick_of_not_last (hB : 0 < B) (h : c % B ≠ B - 1) :
    (c + 1) / B = c / B ∧ (c + 1) % B = c % B + 1 := by
  have hnonneg := Int.emod_nonneg c hB.ne'
  have hlt := Int.emod_lt_of_pos c hB
  refine ediv_emod_of_eq (by omega) (by omega) ?_
  have hc := reading B c
  linarith

end Odometer
