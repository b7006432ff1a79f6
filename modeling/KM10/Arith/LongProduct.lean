import KM10.Arith.Product
import KM10.Library.Limbs
import Mathlib.Tactic.Positivity

/-!
Numbers in four words, and the long multiplication that makes them.

* `W144.mag`, `W144.toInt`, `W144.ofInt`: the magnitude fields of four words, their signed number,
  and the words of a number;
* `W256.toNat`: the accumulator as a number, with what its operations do to it;
* `mag_negate`: the ripple of `W144::negate`;
* `mag_product`, `toInt_product`: `W144::product` multiplies magnitude fields.
-/

namespace KM10

/-! ### Four words -/

namespace W144

/-- The magnitude fields of the four words in a row. -/
def mag (w : W144) : ℕ :=
  w.u0.mag.toNat * 2 ^ 105 + w.u1.mag.toNat * 2 ^ 70 + w.u2.mag.toNat * 2 ^ 35 + w.u3.mag.toNat

/-- The signed number of four words, of which the first one gives the sign. -/
def toInt (w : W144) : ℤ := w.mag - if w.u0.sign then 2 ^ 140 else 0

/-- The four words of a number, its sign in each. -/
def ofInt (n : ℤ) : W144 :=
  ofWords (W36.ofInt (n / 2 ^ 105)) (W36.ofInt (n / 2 ^ 70)) (W36.ofInt (n / 2 ^ 35)) (W36.ofInt n)
    false

/-- All four words have a sign. -/
structure Signed (w : W144) (b : Bool) : Prop where
  u0 : w.u0.sign = b
  u1 : w.u1.sign = b
  u2 : w.u2.sign = b
  u3 : w.u3.sign = b

/-- The four words are the same; the field `sign` is not one of them. -/
structure SameWords (w v : W144) : Prop where
  u0 : w.u0 = v.u0
  u1 : w.u1 = v.u1
  u2 : w.u2 = v.u2
  u3 : w.u3 = v.u3

lemma mag_lt (w : W144) : w.mag < 2 ^ 140 := by
  have h0 := w.u0.mag.isLt
  have h1 := w.u1.mag.isLt
  have h2 := w.u2.mag.isLt
  have h3 := w.u3.mag.isLt
  rw [mag]
  omega

end W144

namespace W144

lemma signed_ofWords (a0 a1 a2 a3 : W36) (b : Bool) : (ofWords a0 a1 a2 a3 b).Signed a0.sign :=
  ⟨rfl, sign_setSign _ _, sign_setSign _ _, sign_setSign _ _⟩

lemma signed_ofInt (n : ℤ) : (ofInt n).Signed (W36.ofInt (n / 2 ^ 105)).sign :=
  signed_ofWords _ _ _ _ _

lemma mag_ofWords (a0 a1 a2 a3 : W36) (b : Bool) :
    (ofWords a0 a1 a2 a3 b).mag = a0.mag.toNat * 2 ^ 105 + a1.mag.toNat * 2 ^ 70 +
      a2.mag.toNat * 2 ^ 35 + a3.mag.toNat := by
  rw [mag, ofWords, W72.mag_setSign, W72.mag_setSign, W72.mag_setSign]

/-- Four words with one sign are those of their number. -/
lemma Signed.sameWords_iff {w v : W144} {b c : Bool} (hw : w.Signed b) (hv : v.Signed c) :
    w.SameWords v ↔ w.toInt = v.toInt := by
  constructor
  · intro h
    rw [toInt, toInt, mag, mag, h.u0, h.u1, h.u2, h.u3]
  · intro h
    have hwlt := w.mag_lt
    have hvlt := v.mag_lt
    have hsame : b = c ∧ w.mag = v.mag := by
      rw [toInt, toInt, hw.u0, hv.u0] at h
      cases b <;> cases c <;> simp only [if_true, if_false, Bool.false_eq_true] at h <;>
        simp only [true_and, reduceCtorEq, false_and] <;> omega
    have hw0 := w.u0.mag.isLt
    have hw1 := w.u1.mag.isLt
    have hw2 := w.u2.mag.isLt
    have hw3 := w.u3.mag.isLt
    have hv0 := v.u0.mag.isLt
    have hv1 := v.u1.mag.isLt
    have hv2 := v.u2.mag.isLt
    have hv3 := v.u3.mag.isLt
    obtain ⟨rfl, hmag⟩ := hsame
    rw [mag, mag] at hmag
    exact ⟨ext_mag (hw.u0.trans hv.u0.symm) (by omega), ext_mag (hw.u1.trans hv.u1.symm) (by omega),
      ext_mag (hw.u2.trans hv.u2.symm) (by omega), ext_mag (hw.u3.trans hv.u3.symm) (by omega)⟩

/-- The words of a number that fits have that number. -/
lemma toInt_ofInt {n : ℤ} (hle : -2 ^ 140 ≤ n) (hlt : n < 2 ^ 140) : (ofInt n).toInt = n := by
  have h0 := mag_ofInt (n / 2 ^ 105)
  have h1 := mag_ofInt (n / 2 ^ 70)
  have h2 := mag_ofInt (n / 2 ^ 35)
  have h3 := mag_ofInt n
  have hsign : (W36.ofInt (n / 2 ^ 105)).sign = decide (n < 0) := by
    rw [sign_eq, ext64_ofInt, decide_eq_decide]
    · omega
    · rw [overflows, decide_eq_false_iff_not]
      omega
  have hmag : ((ofInt n).mag : ℤ) = n + if n < 0 then 2 ^ 140 else 0 := by
    rw [ofInt, mag_ofWords]
    split <;> omega
  have hsign' : (ofInt n).u0.sign = decide (n < 0) := hsign
  rw [toInt, hmag, hsign']
  simp only [decide_eq_true_eq]
  omega

end W144

/-! ### The accumulator -/

namespace W256

open Limbs

/-- The accumulator as a number. -/
def toNat (r : W256) : ℕ := value r.hi r.lo

/-- A product in the low limb. -/
lemma toNat_low (v : BitVec 128) : (W256.mk v 0).toNat = v.toNat := by
  rw [toNat, value, BitVec.ofNat_eq_ofNat, BitVec.toNat_zero, Nat.zero_mul, Nat.zero_add]

/-- An addition that fits. -/
lemma toNat_add {r a : W256} {x y : ℕ} (hr : r.toNat = x) (ha : a.toNat = y)
    (h : x + y < 2 ^ 256) : (r.add a).toNat = x + y := by
  have hadd := value_add r.hi r.lo a.hi a.lo
  rw [← hr, ← ha] at h ⊢
  rw [toNat, add, hadd]
  exact Nat.mod_eq_of_lt h

/-- A shift to the left that fits. -/
lemma toNat_shl {r : W256} {n : ℕ} (hn : n < 128) (h : r.toNat * 2 ^ n < 2 ^ 256) :
    (r.shl n).toNat = r.toNat * 2 ^ n := by
  rw [shl, if_neg (by omega)]
  split
  case isTrue =>
    rw [toNat, value_shl hn]
    exact Nat.mod_eq_of_lt h
  case isFalse hzero =>
    rw [not_not.mp hzero, pow_zero, Nat.mul_one]

/-- The low limb of a shift to the right. -/
lemma toNat_lo_shr {r : W256} {n : ℕ} (hpos : 0 < n) (hn : n < 128) :
    (r.shr n).lo.toNat = r.toNat / 2 ^ n % 2 ^ 128 := by
  rw [shr, if_neg (by omega), if_pos (by omega)]
  exact lo_shr hpos hn.le r.hi r.lo

end W256

/-! ### The product -/

namespace W144

lemma mag_setSign (w : W144) (b : Bool) : (w.setSign b).mag = w.mag := by
  rw [mag, setSign, W72.mag_setSign, W72.mag_setSign, W72.mag_setSign, W72.mag_setSign, mag]

/-- The complement of a magnitude field, its carry on increment, and the incremented field. -/
lemma incMag_complement (w : W36) :
    (complement w).incMag.1 = decide (w.mag.toNat = 0) ∧
      (complement w).incMag.2.mag.toNat = (2 ^ 35 - w.mag.toNat) % 2 ^ 35 ∧
      (complement w).mag.toNat = 2 ^ 35 - 1 - w.mag.toNat := by
  have hlt := w.mag.isLt
  have hcomplement : (complement w).mag.toNat = 2 ^ 35 - 1 - w.mag.toNat := by
    rw [complement, W36.mag, BitVec.extractLsb'_toNat, BitVec.toNat_not, BitVec.toNat_setWidth,
      Nat.shiftRight_zero]
    omega
  have hcarry : (complement w).mag = BitVec.allOnes 35 ↔ w.mag.toNat = 0 := by
    rw [← BitVec.toNat_inj, hcomplement, BitVec.toNat_allOnes]
    omega
  refine ⟨?_, ?_, hcomplement⟩
  · rw [W36.incMag, Bool.eq_iff_iff, beq_iff_eq, decide_eq_true_iff]
    exact hcarry
  · have hmag : (complement w).incMag.2.mag = (complement w).mag + 1 :=
      BitVec.extractLsb'_append_eq_right
    have hone : (1 : BitVec 35).toNat = 1 := rfl
    rw [hmag, BitVec.toNat_add, hcomplement, hone]
    omega

/-- **The ripple** of a negation: the magnitude fields in a row are complemented and incremented,
and the sign is inverted. -/
lemma mag_negate (w : W144) :
    w.negate.mag = (2 ^ 140 - w.mag) % 2 ^ 140 ∧ w.negate.Signed (!w.u0.sign) := by
  obtain ⟨hc3, hi3, h3⟩ := incMag_complement w.u3
  obtain ⟨hc2, hi2, h2⟩ := incMag_complement w.u2
  obtain ⟨hc1, hi1, h1⟩ := incMag_complement w.u1
  obtain ⟨hc0, hi0, h0⟩ := incMag_complement w.u0
  constructor
  · have hw0 := w.u0.mag.isLt
    have hw1 := w.u1.mag.isLt
    have hw2 := w.u2.mag.isLt
    have hw3 := w.u3.mag.isLt
    rw [negate, mag_setSign, mag_ofWords, hi3, mag]
    -- the carry goes up as far as the fields are zero
    by_cases hz3 : w.u3.mag.toNat = 0
    · by_cases hz2 : w.u2.mag.toNat = 0
      · by_cases hz1 : w.u1.mag.toNat = 0
        · simp only [hc3, hc2, hc1, hz3, hz2, hz1, decide_true, if_true, hi2, hi1, hi0]
          omega
        · simp only [hc3, hc2, hc1, hz3, hz2, hz1, decide_true, decide_false, if_true, if_false,
            Bool.false_eq_true, hi2, hi1, h0]
          omega
      · simp only [hc3, hc2, hz3, hz2, decide_true, decide_false, if_true, if_false,
          Bool.false_eq_true, hi2, h1, h0]
        omega
    · simp only [hc3, hz3, decide_false, if_false, Bool.false_eq_true, h2, h1, h0]
      omega
  · exact ⟨sign_setSign _ _, sign_setSign _ _, sign_setSign _ _, sign_setSign _ _⟩

end W144

/-- A product of two fields does not overflow 128 bits. -/
lemma toNat_mul_fields (x y : BitVec 35) :
    (x.setWidth 128 * y.setWidth 128).toNat = x.toNat * y.toNat ∧ x.toNat * y.toNat < 2 ^ 70 := by
  have hx := x.isLt
  have hy := y.isLt
  have hlt : x.toNat * y.toNat < 2 ^ 35 * 2 ^ 35 := Nat.mul_lt_mul'' hx hy
  refine ⟨?_, hlt⟩
  rw [BitVec.toNat_mul, BitVec.toNat_setWidth_of_le (by decide),
    BitVec.toNat_setWidth_of_le (by decide), Nat.mod_eq_of_lt (by omega)]

namespace W256

/-- The four partial products of `W144::product`, each in its place. -/
def accumulated (a b : W72) : W256 :=
  (((shl ⟨a.lo35.setWidth 128 * b.lo35.setWidth 128, 0⟩ 0).add
    (shl ⟨a.hi35.setWidth 128 * b.lo35.setWidth 128, 0⟩ 35)).add
    (shl ⟨a.lo35.setWidth 128 * b.hi35.setWidth 128, 0⟩ 35)).add
    (shl ⟨a.hi35.setWidth 128 * b.hi35.setWidth 128, 0⟩ 70)

/-- They add up to the product of the magnitude fields. -/
lemma toNat_accumulated (a b : W72) : (accumulated a b).toNat = a.mag * b.mag := by
  have hmul : a.mag * b.mag = a.lo35.toNat * b.lo35.toNat * 2 ^ 0 +
      a.hi35.toNat * b.lo35.toNat * 2 ^ 35 + a.lo35.toNat * b.hi35.toNat * 2 ^ 35 +
      a.hi35.toNat * b.hi35.toNat * 2 ^ 70 := by
    rw [W72.mag, W72.mag]
    ring
  have hterm (x y : BitVec 35) {n : ℕ} (hn : n ≤ 70) :
      (shl ⟨x.setWidth 128 * y.setWidth 128, 0⟩ n).toNat = x.toNat * y.toNat * 2 ^ n ∧
        x.toNat * y.toNat * 2 ^ n < 2 ^ 140 := by
    obtain ⟨hnat, hlt⟩ := toNat_mul_fields x y
    have hpow : 2 ^ n ≤ 2 ^ 70 := Nat.pow_le_pow_right (by decide) hn
    have hfits : x.toNat * y.toNat * 2 ^ n < 2 ^ 70 * 2 ^ 70 :=
      Nat.mul_lt_mul_of_lt_of_le hlt hpow (by decide)
    refine ⟨?_, hfits⟩
    rw [toNat_shl (by omega), toNat_low, hnat]
    rw [toNat_low, hnat]
    omega
  obtain ⟨hll, hll'⟩ := hterm a.lo35 b.lo35 (Nat.zero_le 70)
  obtain ⟨hhl, hhl'⟩ := hterm a.hi35 b.lo35 (show 35 ≤ 70 by decide)
  obtain ⟨hlh, hlh'⟩ := hterm a.lo35 b.hi35 (show 35 ≤ 70 by decide)
  obtain ⟨hhh, hhh'⟩ := hterm a.hi35 b.hi35 le_rfl
  have htwo := toNat_add hll hhl (by omega)
  have hthree := toNat_add htwo hlh (by omega)
  have hfour := toNat_add hthree hhh (by omega)
  rw [hmul]
  exact hfour

end W256

namespace W144

/-- Two numbers of 70 bits as the magnitude fields of four words. -/
lemma mag_fromMag {hi lo : BitVec 128} (hhi : hi.toNat < 2 ^ 70) (hlo : lo.toNat < 2 ^ 70)
    (b : Bool) : (fromMag hi lo b).mag = hi.toNat * 2 ^ 70 + lo.toNat := by
  have hhigh (v : BitVec 128) (hv : v.toNat < 2 ^ 70) :
      (W36.fromMag ((v >>> 35).setWidth 64) b).mag.toNat = v.toNat / 2 ^ 35 := by
    rw [KM10.mag_fromMag, BitVec.toNat_setWidth, BitVec.toNat_setWidth, BitVec.toNat_ushiftRight,
      Nat.shiftRight_eq_div_pow]
    omega
  have hlow (v : BitVec 128) : (W36.fromMag (v.setWidth 64) b).mag.toNat = v.toNat % 2 ^ 35 := by
    rw [KM10.mag_fromMag, BitVec.toNat_setWidth, BitVec.toNat_setWidth]
    omega
  rw [fromMag, mag_ofWords, hhigh hi hhi, hhigh lo hlo, hlow, hlow]
  omega

/-- The accumulator, split at bit 70, as four words. -/
lemma mag_split {p : W256} (h : p.toNat < 2 ^ 140) :
    (fromMag (p.shr 70).lo (p.lo &&& ((1 <<< 70) - 1)) false).mag = p.toNat ∧
      (fromMag (p.shr 70).lo (p.lo &&& ((1 <<< 70) - 1)) false).Signed false := by
  have hhi : (p.shr 70).lo.toNat = p.toNat / 2 ^ 70 := by
    rw [W256.toNat_lo_shr (by decide) (by decide)]
    omega
  have hlo : (p.lo &&& ((1 <<< 70) - 1)).toNat = p.toNat % 2 ^ 70 := by
    have hmask : ((1 <<< 70) - 1 : BitVec 128).toNat = 2 ^ 70 - 1 := by decide
    have hlimb : p.toNat % 2 ^ 128 = p.lo.toNat := by
      rw [W256.toNat, Limbs.value, Nat.mul_add_mod_self_right, Nat.mod_eq_of_lt p.lo.isLt]
    rw [BitVec.toNat_and, hmask, Nat.and_two_pow_sub_one_eq_mod, ← hlimb]
    omega
  constructor
  · rw [mag_fromMag (by omega) (by omega), hhi, hlo]
    omega
  · have hsigned := signed_ofWords (W36.fromMag (((p.shr 70).lo >>> 35).setWidth 64) false)
    rw [sign_fromMag] at hsigned
    exact hsigned _ _ _ _

/-- **The long multiplication** multiplies the magnitude fields, and negates the product if the
signs differ. -/
lemma mag_product (a b : W72) :
    (product a b).mag =
        (if a.hiSign != b.hiSign then (2 ^ 140 - a.mag * b.mag) % 2 ^ 140 else a.mag * b.mag) ∧
      (product a b).Signed (a.hiSign != b.hiSign) := by
  have hfits : a.mag * b.mag < 2 ^ 70 * 2 ^ 70 := Nat.mul_lt_mul'' a.mag_lt b.mag_lt
  have hp := W256.toNat_accumulated a b
  obtain ⟨hmag, hsigned⟩ := mag_split (p := W256.accumulated a b) (by rw [hp]; exact hfits)
  rw [hp] at hmag
  have hproduct : product a b = if a.hiSign != b.hiSign then
      (fromMag ((W256.accumulated a b).shr 70).lo
        ((W256.accumulated a b).lo &&& ((1 <<< 70) - 1)) false).negate
      else fromMag ((W256.accumulated a b).shr 70).lo
        ((W256.accumulated a b).lo &&& ((1 <<< 70) - 1)) false := rfl
  rw [hproduct]
  cases a.hiSign != b.hiSign with
  | false =>
      rw [if_neg Bool.false_ne_true, if_neg Bool.false_ne_true]
      exact ⟨hmag, hsigned⟩
  | true =>
      obtain ⟨hnegate, hnegated⟩ := mag_negate (fromMag ((W256.accumulated a b).shr 70).lo
        ((W256.accumulated a b).lo &&& ((1 <<< 70) - 1)) false)
      rw [hmag] at hnegate
      rw [hsigned.u0] at hnegated
      rw [if_pos rfl, if_pos rfl]
      exact ⟨hnegate, hnegated⟩

end W144

end KM10
