import Mathlib.Algebra.Group.Basic
import Mathlib.Algebra.Group.Int.Defs
import Mathlib.Algebra.Group.Nat.Defs
import Mathlib.Data.Int.Notation
import Mathlib.Data.Nat.Notation
import Mathlib.Tactic.Common

/-!
The carries of a binary addition.

`BitVec.carry k x y c` is the carry into bit `k` of `x + y + c`.  On numbers of `w + 1` bits the
carry out of the sign bit and the one into it follow from the signs of the terms and of the sum,
and they differ exactly when the signed sum does not fit.

* `carry_eq_xor`, `carry_succ_eq`: the two carries in terms of the signs;
* `carry_add_eq_xor`, `carry_sub_eq_xor`: the carry into the sign bit of a sum, and of a difference
  as the sum with a complement;
* `value`: the signed sum, also of a complement and one (`value_not`);
* `carry_of_lt`, `carry_of_le`, `carry_of_fits`: the two carries in terms of the signed sum;
* `carry_ne_iff`: they differ exactly on overflow.
-/

namespace Carry

variable {w : ℕ} (x y : BitVec (w + 1)) (c : Bool)

/-! ### Signs -/

/-- The sign bit is the last one. -/
lemma msb_eq_getLsbD : x.msb = x.getLsbD w := BitVec.msb_eq_getLsbD_last x

/-- The carry out of the sign bit. -/
lemma carry_succ_eq :
    BitVec.carry (w + 1) x y c = Bool.atLeastTwo x.msb y.msb (BitVec.carry w x y c) := by
  rw [BitVec.carry_succ, ← msb_eq_getLsbD, ← msb_eq_getLsbD]

/-- The carry into the sign bit is what the sign of the sum has beyond those of the terms. -/
lemma carry_eq_xor :
    BitVec.carry w x y c =
      (x.msb ^^ (y.msb ^^ (x + y + BitVec.setWidth (w + 1) (BitVec.ofBool c)).msb)) := by
  rw [msb_eq_getLsbD (x + y + _), BitVec.getLsbD_add_add_bool (Nat.lt_succ_self w),
    ← msb_eq_getLsbD, ← msb_eq_getLsbD]
  cases x.msb <;> cases y.msb <;> cases BitVec.carry w x y c <;> rfl

/-- The carry into the sign bit of a sum. -/
lemma carry_add_eq_xor :
    BitVec.carry w x y false = (x.msb ^^ (y.msb ^^ (x + y).msb)) := by
  have hzero : BitVec.setWidth (w + 1) (BitVec.ofBool false) = 0#(w + 1) := by
    apply BitVec.eq_of_toNat_eq
    simp
  rw [carry_eq_xor, hzero, BitVec.add_zero]

/-- The carry into the sign bit of a difference, which adds the complement and one. -/
lemma carry_sub_eq_xor :
    BitVec.carry w x (~~~ y) true = (x.msb ^^ (!y.msb ^^ (x - y).msb)) := by
  have hone : BitVec.setWidth (w + 1) (BitVec.ofBool true) = 1#(w + 1) := by
    apply BitVec.eq_of_toNat_eq
    simp
  rw [carry_eq_xor, hone, BitVec.add_assoc, ← BitVec.neg_eq_not_add, ← BitVec.sub_eq_add_neg,
    BitVec.msb_not, decide_eq_true (Nat.succ_pos w), Bool.true_and]

/-! ### Values -/

/-- A number without its sign bit, which counts `-2^w`. -/
lemma toInt_eq : x.toInt = (x.toNat % 2 ^ w : ℕ) - if x.msb then 2 ^ w else 0 := by
  have hlt := x.isLt
  have hpow : 2 ^ (w + 1) = 2 * 2 ^ w := Nat.pow_succ'
  have hcast : ((2 ^ w : ℕ) : ℤ) = 2 ^ w := Int.natCast_pow 2 w
  rw [BitVec.toInt_eq_msb_cond]
  cases hmsb : x.msb with
  | false =>
      have hle := BitVec.msb_eq_false_iff_two_mul_lt.mp hmsb
      rw [Nat.mod_eq_of_lt (by omega)]
      exact (sub_zero _).symm
  | true =>
      have hle := BitVec.msb_eq_true_iff_two_mul_ge.mp hmsb
      have hsub : x.toNat % 2 ^ w = x.toNat - 2 ^ w := by
        rw [Nat.mod_eq_sub_mod (by omega), Nat.mod_eq_of_lt (by omega)]
      rw [hsub, hpow, if_pos rfl, if_pos rfl]
      omega

/-- The signed value of a sum. -/
def value : ℤ := x.toInt + y.toInt + c.toNat

/-- Adding nothing more, the value is the sum. -/
lemma value_add : value x y false = x.toInt + y.toInt := Int.add_zero _

/-- Adding a complement and one, the value is the difference. -/
lemma value_not : value x (~~~ y) true = x.toInt - y.toInt := by
  have hlt := y.isLt
  have hpow : 2 ^ (w + 1) = 2 * 2 ^ w := Nat.pow_succ'
  have hnot : (~~~ y).toInt = -y.toInt - 1 := by
    rw [BitVec.toInt_eq_msb_cond, BitVec.toInt_eq_msb_cond, BitVec.msb_not,
      decide_eq_true (Nat.succ_pos w), Bool.true_and, BitVec.toNat_not]
    cases y.msb <;> simp only [Bool.not_true, Bool.not_false, if_true, Bool.false_eq_true, if_false]
      <;> omega
  rw [value, hnot, Bool.toNat_true]
  omega

/-- The value by the carry into the sign bit: the terms without their signs, and the signs. -/
lemma value_cases :
    ∃ n : ℕ, (n : ℤ) < 2 * 2 ^ w ∧ BitVec.carry w x y c = decide ((2 : ℤ) ^ w ≤ n) ∧
      value x y c = n - (if x.msb then 2 ^ w else 0) - if y.msb then 2 ^ w else 0 := by
  have hx := Nat.mod_lt x.toNat (Nat.two_pow_pos w)
  have hy := Nat.mod_lt y.toNat (Nat.two_pow_pos w)
  have hc := Bool.toNat_le c
  have hcast : ((2 ^ w : ℕ) : ℤ) = 2 ^ w := Int.natCast_pow 2 w
  refine ⟨x.toNat % 2 ^ w + y.toNat % 2 ^ w + c.toNat, by omega, ?_, ?_⟩
  · rw [BitVec.carry, decide_eq_decide]
    omega
  · rw [value, toInt_eq x, toInt_eq y]
    omega

variable {x y c}

/-- A sum that is too small. -/
lemma carry_of_lt (h : value x y c < -2 ^ w) :
    BitVec.carry (w + 1) x y c = true ∧ BitVec.carry w x y c = false := by
  obtain ⟨n, hn, hcarry, hvalue⟩ := value_cases x y c
  rw [carry_succ_eq, hcarry]
  cases hx : x.msb <;> cases hy : y.msb <;> simp [hx, hy, Bool.atLeastTwo] at hvalue ⊢ <;> omega

/-- A sum that is too large. -/
lemma carry_of_le (h : 2 ^ w ≤ value x y c) :
    BitVec.carry (w + 1) x y c = false ∧ BitVec.carry w x y c = true := by
  obtain ⟨n, hn, hcarry, hvalue⟩ := value_cases x y c
  rw [carry_succ_eq, hcarry]
  cases hx : x.msb <;> cases hy : y.msb <;> simp [hx, hy, Bool.atLeastTwo] at hvalue ⊢ <;> omega

/-- A sum that fits: there is a carry into the sign bit if a term is negative and the sum is not,
or if both terms are negative. -/
lemma carry_of_fits (hle : -2 ^ w ≤ value x y c) (hlt : value x y c < 2 ^ w) :
    BitVec.carry (w + 1) x y c = BitVec.carry w x y c ∧
      BitVec.carry w x y c =
        if value x y c < 0 then x.msb && y.msb else x.msb || y.msb := by
  obtain ⟨n, hn, hcarry, hvalue⟩ := value_cases x y c
  rw [carry_succ_eq, hcarry]
  by_cases hneg : value x y c < 0
  · rw [if_pos hneg]
    cases hx : x.msb <;> cases hy : y.msb <;>
      simp [hx, hy, Bool.atLeastTwo] at hvalue ⊢ <;> omega
  · rw [if_neg hneg]
    cases hx : x.msb <;> cases hy : y.msb <;>
      simp [hx, hy, Bool.atLeastTwo] at hvalue ⊢ <;> omega

/-- **Overflow**: the carries out of the sign bit and into it differ exactly when the signed sum
does not fit. -/
theorem carry_ne_iff :
    (value x y c < -2 ^ w ∨ 2 ^ w ≤ value x y c) ↔
      BitVec.carry (w + 1) x y c ≠ BitVec.carry w x y c := by
  constructor
  · rintro (h | h)
    · obtain ⟨hout, hin⟩ := carry_of_lt h
      rw [hout, hin]
      decide
    · obtain ⟨hout, hin⟩ := carry_of_le h
      rw [hout, hin]
      decide
  · intro hne
    by_contra hfits
    rw [not_or, Int.not_lt, Int.not_le] at hfits
    exact hne (carry_of_fits hfits.1 hfits.2).1

end Carry
