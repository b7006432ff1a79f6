import Mathlib.Algebra.Group.Nat.Defs
import Mathlib.Data.Int.Notation
import Mathlib.Data.Nat.Notation
import Mathlib.Tactic.Common

/-!
The data words of the emulator (`word.hpp`, `word.cpp`).

A `W36` is the 36-bit machine word.  The source reads it through a union of packed bit
fields; the fields are the functions `rhu`, `lhu`, `vma`, `pcFlags`, `op`, `ac`, and so on,
numbered here from the rightmost bit as the C++ compiler lays them out, so that `lhu` is
bits 18 to 35 and the sign is bit 35.  A store into a field is a function `setRhu`, `setVma`,
and the laws that a store is read back and leaves the other fields alone are the simp
lemmas beside it.

* `W36`: the word, its fields and the stores into them;
* `W72`: the double word, with `fromMag` and `toMag` as the source computes them, 64-bit
  intermediates included;
* `W144` and `W256`: the four-word operand of DDIV and the accumulator of `W144.product`.
-/

namespace KM10

/-! ### The 36-bit word -/

/-- The 36-bit machine word. -/
abbrev W36 := BitVec 36

namespace W36

/-- The right half, `unsigned rhu: 18`. -/
def rhu (w : W36) : BitVec 18 := w.extractLsb' 0 18

/-- The left half, `unsigned lhu: 18`. -/
def lhu (w : W36) : BitVec 18 := w.extractLsb' 18 18

/-- The right half read as a signed number, `signed rhs: 18`. -/
def rhs (w : W36) : ℤ := w.rhu.toInt

/-- The left half read as a signed number, `signed lhs: 18`. -/
def lhs (w : W36) : ℤ := w.lhu.toInt

/-- The 35-bit magnitude field. -/
def mag (w : W36) : BitVec 35 := w.extractLsb' 0 35

/-- The sign bit. -/
def sign (w : W36) : Bool := w.getLsbD 35

/-- The address field of an instruction word. -/
def y (w : W36) : BitVec 18 := w.extractLsb' 0 18

/-- The index field of an instruction word. -/
def x (w : W36) : BitVec 4 := w.extractLsb' 18 4

/-- The indirect bit of an instruction word. -/
def i (w : W36) : Bool := w.getLsbD 22

/-- The accumulator field of an instruction word. -/
def ac (w : W36) : BitVec 4 := w.extractLsb' 23 4

/-- The operation code of an instruction word. -/
def op (w : W36) : BitVec 9 := w.extractLsb' 27 9

/-- The operation field of an I/O instruction. -/
def ioOp (w : W36) : BitVec 3 := w.extractLsb' 23 3

/-- The device field of an I/O instruction. -/
def ioDev (w : W36) : BitVec 7 := w.extractLsb' 26 7

/-- The 23-bit virtual address of a PC word. -/
def vma (w : W36) : BitVec 23 := w.extractLsb' 0 23

/-- The 13 flag bits of a PC word. -/
def pcFlags (w : W36) : BitVec 13 := w.extractLsb' 23 13

/-- The word as a signed number, `int64_t s: 36` and `ext64()`. -/
def ext64 (w : W36) : ℤ := w.toInt

/-- The constant `bit0`, the sign bit as a number. -/
def bit0 : ℕ := 2 ^ 35

/-- The constant `all1s`. -/
def all1s : W36 := BitVec.allOnes 36

/-- The constant `halfOnes`. -/
def halfOnes : BitVec 18 := BitVec.allOnes 18

/-- `W36(unsigned lh, unsigned rh)`. -/
def halves (lh rh : BitVec 18) : W36 := lh ++ rh

/-- `W36(int64_t w)`: the low 36 bits of a signed number. -/
def ofInt (n : ℤ) : W36 := BitVec.ofInt 36 n

/-- `W36(int64_t w)` from an unsigned value. -/
def ofNat (n : ℕ) : W36 := BitVec.ofNat 36 n

/-- The assembler constructor `W36(aOp, aAC, aI, aX, aY)`. -/
def assemble (aOp : BitVec 9) (aAC : BitVec 4) (aI : Bool) (aX : BitVec 4) (aY : BitVec 18) :
    W36 :=
  aOp ++ aAC ++ BitVec.ofBool aI ++ aX ++ aY

/-- `W36::fromMag`: a 35-bit magnitude under a sign bit. -/
def fromMag (aMag : BitVec 64) (aSign : Bool) : W36 :=
  BitVec.ofBool aSign ++ aMag.setWidth 35

/-- The store `w.rhu = r`. -/
def setRhu (w : W36) (r : BitVec 18) : W36 := w.lhu ++ r

/-- The store `w.vma = v`. -/
def setVma (w : W36) (v : BitVec 23) : W36 := w.pcFlags ++ v

/-- The store `w.pcFlags = f`. -/
def setPcFlags (w : W36) (f : BitVec 13) : W36 := f ++ w.vma

/-- The store `w.sign = b`. -/
def setSign (w : W36) (b : Bool) : W36 := BitVec.ofBool b ++ w.mag

/-- The stores `w.x = 0; w.i = 0`. -/
def clearIX (w : W36) : W36 := w.pcFlags ++ (0 : BitVec 5) ++ w.y

/-- `isSection0()`: the section bits of the address are zero. -/
def isSection0 (w : W36) : Bool := w.vma >>> 18 == 0

/-- `rMask(s)`: the rightmost `s` bits of a 64-bit mask. -/
def rMask (s : ℕ) : BitVec 64 := (1 <<< s) - 1

/-- `bMask(p, s)`: `s` bits at position `p`. -/
def bMask (p s : ℕ) : BitVec 64 := rMask s <<< p

/-- `incMag()`: step the magnitude field; the flag says that it overflowed. -/
def incMag (w : W36) : Bool × W36 :=
  (w.mag == BitVec.allOnes 35, BitVec.ofBool w.sign ++ (w.mag + 1))

/-! ### Laws of the fields -/

@[simp] lemma rhu_halves (l r : BitVec 18) : (halves l r).rhu = r :=
  BitVec.extractLsb'_append_eq_right

@[simp] lemma lhu_halves (l r : BitVec 18) : (halves l r).lhu = l :=
  BitVec.extractLsb'_append_eq_left

@[simp] lemma rhu_setRhu (w : W36) (r : BitVec 18) : (w.setRhu r).rhu = r :=
  BitVec.extractLsb'_append_eq_right

@[simp] lemma lhu_setRhu (w : W36) (r : BitVec 18) : (w.setRhu r).lhu = w.lhu :=
  BitVec.extractLsb'_append_eq_left

@[simp] lemma vma_setVma (w : W36) (v : BitVec 23) : (w.setVma v).vma = v :=
  BitVec.extractLsb'_append_eq_right

@[simp] lemma pcFlags_setVma (w : W36) (v : BitVec 23) : (w.setVma v).pcFlags = w.pcFlags :=
  BitVec.extractLsb'_append_eq_left

@[simp] lemma vma_setPcFlags (w : W36) (f : BitVec 13) : (w.setPcFlags f).vma = w.vma :=
  BitVec.extractLsb'_append_eq_right

@[simp] lemma pcFlags_setPcFlags (w : W36) (f : BitVec 13) : (w.setPcFlags f).pcFlags = f :=
  BitVec.extractLsb'_append_eq_left

/-- A word is its two halves. -/
@[simp] lemma halves_eta (w : W36) : halves w.lhu w.rhu = w :=
  BitVec.extractLsb'_append_extractLsb'

lemma toNat_halves (l r : BitVec 18) : (halves l r).toNat = l.toNat * 2 ^ 18 + r.toNat := by
  rw [halves, BitVec.toNat_append, ← Nat.shiftLeft_add_eq_or_of_lt r.isLt, Nat.shiftLeft_eq]

/-- Words with the same halves are the same. -/
lemma ext_halves {a b : W36} (hl : a.lhu = b.lhu) (hr : a.rhu = b.rhu) : a = b := by
  rw [← halves_eta a, hl, hr, halves_eta]

/-- Only the word of two zero halves is zero. -/
lemma halves_eq_zero_iff {l r : BitVec 18} : halves l r = 0 ↔ l = 0 ∧ r = 0 := by
  constructor
  · intro h
    have hl : (halves l r).lhu = (0 : W36).lhu := by rw [h]
    have hr : (halves l r).rhu = (0 : W36).rhu := by rw [h]
    rw [lhu_halves] at hl
    rw [rhu_halves] at hr
    exact ⟨hl, hr⟩
  · rintro ⟨rfl, rfl⟩
    rfl

/-- A half word in a whole one is its right half. -/
lemma setWidth_eq_halves (v : BitVec 18) : v.setWidth 36 = halves 0 v := by
  apply BitVec.eq_of_toNat_eq
  have hlt := v.isLt
  rw [halves, BitVec.toNat_append, BitVec.toNat_setWidth, BitVec.ofNat_eq_ofNat,
    BitVec.toNat_zero, Nat.zero_shiftLeft, Nat.zero_or]
  omega

section Bitwise

variable (a b : W36)

@[simp] lemma rhu_and : (a &&& b).rhu = a.rhu &&& b.rhu := BitVec.extractLsb'_and
@[simp] lemma lhu_and : (a &&& b).lhu = a.lhu &&& b.lhu := BitVec.extractLsb'_and
@[simp] lemma rhu_or : (a ||| b).rhu = a.rhu ||| b.rhu := BitVec.extractLsb'_or
@[simp] lemma lhu_or : (a ||| b).lhu = a.lhu ||| b.lhu := BitVec.extractLsb'_or
@[simp] lemma rhu_xor : (a ^^^ b).rhu = a.rhu ^^^ b.rhu := BitVec.extractLsb'_xor
@[simp] lemma lhu_xor : (a ^^^ b).lhu = a.lhu ^^^ b.lhu := BitVec.extractLsb'_xor

@[simp] lemma rhu_not : (~~~ a).rhu = ~~~ a.rhu :=
  BitVec.extractLsb'_not_of_lt (by decide)

@[simp] lemma lhu_not : (~~~ a).lhu = ~~~ a.lhu := by
  refine BitVec.eq_of_getLsbD_eq fun k hk => ?_
  have hbit : 18 + k < 36 := by omega
  simp only [lhu, BitVec.getLsbD_extractLsb', BitVec.getLsbD_not, hk, hbit, decide_true,
    Bool.true_and]

end Bitwise

section Assemble

variable (aOp : BitVec 9) (aAC : BitVec 4) (aI : Bool) (aX : BitVec 4) (aY : BitVec 18)

@[simp] lemma y_assemble : (assemble aOp aAC aI aX aY).y = aY :=
  BitVec.extractLsb'_append_eq_right

@[simp] lemma x_assemble : (assemble aOp aAC aI aX aY).x = aX := by
  refine BitVec.eq_of_getLsbD_eq fun n hn => ?_
  simp only [x, assemble, BitVec.getLsbD_extractLsb', BitVec.getLsbD_append, hn, decide_true,
    Bool.true_and]
  rw [if_neg (by omega), if_pos (by omega), Nat.add_sub_cancel_left]

@[simp] lemma i_assemble : (assemble aOp aAC aI aX aY).i = aI := by
  simp only [i, assemble, BitVec.getLsbD_append]
  rw [if_neg (by omega), if_neg (by omega), if_pos (by omega), BitVec.getLsbD_ofBool,
    decide_eq_true (by omega), Bool.true_and]

@[simp] lemma ac_assemble : (assemble aOp aAC aI aX aY).ac = aAC := by
  refine BitVec.eq_of_getLsbD_eq fun n hn => ?_
  simp only [ac, assemble, BitVec.getLsbD_extractLsb', BitVec.getLsbD_append, hn, decide_true,
    Bool.true_and]
  rw [if_neg (by omega), if_neg (by omega), if_neg (by omega), if_pos (by omega)]
  congr 1
  omega

@[simp] lemma op_assemble : (assemble aOp aAC aI aX aY).op = aOp := by
  refine BitVec.eq_of_getLsbD_eq fun n hn => ?_
  simp only [op, assemble, BitVec.getLsbD_extractLsb', BitVec.getLsbD_append, hn, decide_true,
    Bool.true_and]
  rw [if_neg (by omega), if_neg (by omega), if_neg (by omega), if_neg (by omega)]
  congr 1
  omega

end Assemble

/-- The bits of a right mask. -/
lemma getLsbD_rMask {n : ℕ} (hn : n < 64) (k : ℕ) : (rMask n).getLsbD k = decide (k < n) := by
  have hlt : 2 ^ n < 2 ^ 64 := Nat.pow_lt_pow_right (by decide) hn
  have hnat : (rMask n).toNat = 2 ^ n - 1 := by
    have hpos := Nat.two_pow_pos n
    have hone : (((1 <<< n : ℕ) : BitVec 64)).toNat = 2 ^ n := by
      rw [BitVec.natCast_eq_ofNat, BitVec.toNat_ofNat, Nat.one_shiftLeft, Nat.mod_eq_of_lt hlt]
    rw [rMask, BitVec.toNat_sub_of_le, hone]
    · rfl
    · rw [BitVec.le_def, hone]
      exact hpos
  rw [← BitVec.testBit_toNat, hnat, Nat.testBit_two_pow_sub_one]

/-- The right half sits inside the address. -/
lemma rhu_eq_vma (w : W36) : w.rhu = w.vma.extractLsb' 0 18 := by
  rw [rhu, vma, BitVec.extractLsb'_extractLsb'_of_le (by omega)]

/-- The address of a number. -/
@[simp] lemma toNat_vma_ofNat (n : ℕ) : (ofNat n).vma.toNat = n % 2 ^ 23 := by
  rw [vma, ofNat, BitVec.extractLsb'_toNat, BitVec.toNat_ofNat, Nat.shiftRight_zero]
  omega

/-- The right half of a number. -/
lemma toNat_rhu_ofNat (n : ℕ) : (ofNat n).rhu.toNat = n % 2 ^ 18 := by
  rw [rhu, ofNat, BitVec.extractLsb'_toNat, BitVec.toNat_ofNat, Nat.shiftRight_zero]
  omega

/-- A half word as a word has itself as its right half. -/
@[simp] lemma rhu_ofNat_toNat (a : BitVec 18) : (ofNat a.toNat).rhu = a := by
  apply BitVec.eq_of_toNat_eq
  rw [toNat_rhu_ofNat, Nat.mod_eq_of_lt a.isLt]

/-- A half word as a word has no flags. -/
@[simp] lemma pcFlags_ofNat_toNat (a : BitVec 18) : (ofNat a.toNat).pcFlags = 0 := by
  have hlt := a.isLt
  apply BitVec.eq_of_toNat_eq
  rw [pcFlags, ofNat, BitVec.extractLsb'_toNat, BitVec.toNat_ofNat, Nat.shiftRight_eq_div_pow]
  change _ = 0
  omega

/-- A word whose address is a half word is a direct link to it. -/
lemma link_of_vma {w : W36} {a : BitVec 18} (h : w.vma = (ofNat a.toNat).vma) :
    w.i = false ∧ w.x = 0 ∧ w.y = a := by
  have hlt := a.isLt
  have hvma : w.toNat % 2 ^ 23 = a.toNat := by
    have hnat := congrArg BitVec.toNat h
    rw [toNat_vma_ofNat, vma, BitVec.extractLsb'_toNat, Nat.shiftRight_zero] at hnat
    omega
  refine ⟨?_, BitVec.eq_of_toNat_eq ?_, BitVec.eq_of_toNat_eq ?_⟩
  · have hdiv : w.toNat / 2 ^ 22 % 2 = 0 := by omega
    rw [i, ← BitVec.testBit_toNat, Nat.testBit_eq_decide_div_mod_eq, hdiv]
    rfl
  · rw [x, BitVec.extractLsb'_toNat, Nat.shiftRight_eq_div_pow]
    change _ = 0
    omega
  · rw [y, BitVec.extractLsb'_toNat, Nat.shiftRight_zero]
    omega

/-- The section bits of the address are in the left half. -/
lemma toNat_vma_lt_iff (w : W36) : w.vma.toNat < 2 ^ 18 ↔ w.lhu.toNat % 2 ^ 5 = 0 := by
  have hlt := w.isLt
  rw [vma, lhu, BitVec.extractLsb'_toNat, BitVec.extractLsb'_toNat, Nat.shiftRight_zero,
    Nat.shiftRight_eq_div_pow]
  omega

/-- A word is in section 0 exactly when its address is below `2^18`. -/
lemma isSection0_iff (w : W36) : w.isSection0 = true ↔ w.vma.toNat < 2 ^ 18 := by
  have hlt := w.vma.isLt
  rw [isSection0, beq_iff_eq, ← BitVec.toNat_inj, BitVec.toNat_ushiftRight,
    Nat.shiftRight_eq_div_pow]
  change w.vma.toNat / 2 ^ 18 = 0 ↔ _
  omega

/-- The right half is the whole address exactly in section 0. -/
lemma toNat_rhu_eq_iff (w : W36) : w.rhu.toNat = w.vma.toNat ↔ w.vma.toNat < 2 ^ 18 := by
  rw [rhu_eq_vma, BitVec.extractLsb'_toNat, Nat.shiftRight_zero]
  omega

end W36

/-! ### The 72-bit double word -/

/-- The double word: two words, each with its own sign bit. -/
structure W72 where
  hi : W36
  lo : W36
deriving DecidableEq

namespace W72

/-- The high magnitude `hi35`. -/
def hi35 (w : W72) : BitVec 35 := w.hi.mag

/-- The low magnitude `lo35`. -/
def lo35 (w : W72) : BitVec 35 := w.lo.mag

/-- The sign of the high word. -/
def hiSign (w : W72) : Bool := w.hi.sign

/-- The sign of the low word. -/
def loSign (w : W72) : Bool := w.lo.sign

/-- All 72 bits, `uint128_t u: 72`. -/
def u (w : W72) : BitVec 72 := w.hi ++ w.lo

/-- `W72(uint64_t mag0, uint64_t mag1, int isNeg)`. -/
def ofMags (mag0 mag1 : BitVec 64) (isNeg : Bool) : W72 :=
  ⟨W36.fromMag mag0 isNeg, W36.fromMag mag1 isNeg⟩

/-- A double word from its 72 bits. -/
def ofBits (v : BitVec 72) : W72 := ⟨v.extractLsb' 36 36, v.extractLsb' 0 36⟩

/-- `W72::fromMag`: the magnitude is cast to 64 bits before it is split, and the low part
of it becomes the high word. -/
def fromMag (mag : BitVec 128) (isNeg : Bool) : W72 :=
  ofMags (mag.setWidth 64) (mag.setWidth 64 >>> 35) isNeg

/-- `W72::toMag`: `hi35 << 35` is computed in 64 bits. -/
def toMag (w : W72) : BitVec 128 :=
  w.lo35.setWidth 128 ||| (w.hi35.setWidth 64 <<< 35).setWidth 128

/-- The constant `W72::bit0`. -/
def bit0 : BitVec 128 := 1 <<< 71

/-- `isMaxNeg()`: the most negative number, the low sign ignored. -/
def isMaxNeg (w : W72) : Bool := w.hiSign && w.hi35 == 0 && w.lo35 == 0

/-- The store `w.loSign = b`. -/
def setLoSign (w : W72) (b : Bool) : W72 := { w with lo := w.lo.setSign b }

end W72

/-! ### Four words -/

/-- The four-word operand: the words `u0` (high) to `u3` (low) and the separate one-bit
field `sign`, which the constructor from four words does not set. -/
structure W144 where
  u0 : W36
  u1 : W36
  u2 : W36
  u3 : W36
  sign : Bool
deriving DecidableEq

namespace W144

/-- `W144(W36 a0, W36 a1, W36 a2, W36 a3)`: every word takes the sign of `a0`.  The field
`sign` keeps whatever value `indeterminate` its storage had. -/
def ofWords (a0 a1 a2 a3 : W36) (indeterminate : Bool) : W144 :=
  ⟨a0, a1.setSign a0.sign, a2.setSign a0.sign, a3.setSign a0.sign, indeterminate⟩

/-- `lowerU70()`. -/
def lowerU70 (w : W144) : BitVec 128 :=
  (w.u2.mag.setWidth 128 <<< 35) ||| w.u3.mag.setWidth 128

/-- `upperU70()`. -/
def upperU70 (w : W144) : BitVec 128 :=
  (w.u0.mag.setWidth 128 <<< 35) ||| w.u1.mag.setWidth 128

/-- `operator >=`: the 140-bit magnitude against a 70-bit one. -/
def ge (w : W144) (a70 : BitVec 128) : Bool := w.upperU70 != 0 || a70 ≤ w.lowerU70

/-- `setSign`. -/
def setSign (w : W144) (b : Bool) : W144 :=
  { w with u0 := w.u0.setSign b, u1 := w.u1.setSign b, u2 := w.u2.setSign b,
           u3 := w.u3.setSign b }

/-- `W144::fromMag`. -/
def fromMag (aMag0 aMag1 : BitVec 128) (aNeg : Bool) : W144 :=
  ofWords (W36.fromMag ((aMag0 >>> 35).setWidth 64) aNeg)
    (W36.fromMag (aMag0.setWidth 64) aNeg)
    (W36.fromMag ((aMag1 >>> 35).setWidth 64) aNeg)
    (W36.fromMag (aMag1.setWidth 64) aNeg) false

/-- The complement `~mag` of a magnitude as a 36-bit word. -/
def complement (w : W36) : W36 := ~~~ (w.mag.setWidth 36)

/-- `W144::negate`: complement the magnitudes and add one, the carry rippling up. -/
def negate (w : W144) : W144 :=
  let r3 := complement w.u3
  let r2 := complement w.u2
  let r1 := complement w.u1
  let r0 := complement w.u0
  let (c3, r3) := r3.incMag
  let (c2, r2) := if c3 then r2.incMag else (false, r2)
  let (c1, r1) := if c2 then r1.incMag else (false, r1)
  let (_, r0) := if c1 then r0.incMag else (false, r0)
  (ofWords r0 r1 r2 r3 false).setSign (!w.u0.sign)

end W144

/-- `W72::setSign`. -/
def W72.setSign (w : W72) (b : Bool) : W72 := ⟨w.hi.setSign b, w.lo.setSign b⟩

/-- `W72::negate`: the magnitudes as in `W144::negate`, but the sign stays. -/
def W72.negate (w : W72) : W72 :=
  let rHi := W144.complement w.hi
  let rLo := W144.complement w.lo
  let (carry, rLo) := rLo.incMag
  let rHi := if carry then rHi.incMag.2 else rHi
  W72.setSign ⟨rHi, rLo⟩ w.hiSign

/-- The 256-bit accumulator of the long multiplication. -/
structure W256 where
  lo : BitVec 128
  hi : BitVec 128
deriving DecidableEq

namespace W256

/-- `operator+=` and `operator+`: the carry is read off the wrapped low sum.  The code compares it
with the low part of the operand after it has been stored, which is the same as long as the operand
is another object than the accumulator. -/
def add (r a : W256) : W256 :=
  let lo := r.lo + a.lo
  ⟨lo, r.hi + a.hi + (if lo < a.lo then 1 else 0)⟩

/-- `operator<<=` and `operator<<`. -/
def shl (r : W256) (n : ℕ) : W256 :=
  if 128 ≤ n then ⟨0, r.lo <<< (n - 128)⟩
  else if n ≠ 0 then ⟨r.lo <<< n, (r.hi <<< n) ||| (r.lo >>> (128 - n))⟩
  else r

/-- `operator>>=` and `operator>>`. -/
def shr (r : W256) (n : ℕ) : W256 :=
  if 128 ≤ n then ⟨r.hi >>> (n - 128), 0⟩
  else if n ≠ 0 then ⟨(r.lo >>> n) ||| (r.hi <<< (128 - n)), r.hi >>> n⟩
  else r

end W256

/-- `W144::product`.  The calls of `W36::negate` in it discard their results, so the
"absolute values" are the magnitude fields as they stand, plus the carry bit 35 of a 35-bit
number, which is zero. -/
def W144.product (a b : W72) : W144 :=
  let aAbsLo : BitVec 128 := a.lo35.setWidth 128
  let aAbsHi : BitVec 128 := a.hi35.setWidth 128
  let bAbsLo : BitVec 128 := b.lo35.setWidth 128
  let bAbsHi : BitVec 128 := b.hi35.setWidth 128
  let p256 := W256.shl ⟨aAbsLo * bAbsLo, 0⟩ 0
  let p256 := p256.add (W256.shl ⟨aAbsHi * bAbsLo, 0⟩ 35)
  let p256 := p256.add (W256.shl ⟨aAbsLo * bAbsHi, 0⟩ 35)
  let p256 := p256.add (W256.shl ⟨aAbsHi * bAbsHi, 0⟩ 70)
  let hi70 := (p256.shr 70).lo
  let lo70 := p256.lo &&& ((1 <<< 70) - 1)
  let result := W144.fromMag hi70 lo70 false
  if a.hiSign != b.hiSign then result.negate else result

end KM10
