import KM10.Arith.DoubleWord

/-!
Multiplication of words.

The factory `W72::fromMag` puts the low 35 bits of the magnitude into the high word, and what is
left of its high bits after a cast to 64 bits into the low word, below the sign of the product.

* `W72.ofInt`: the double word of an integer;
* `Multiplies`: what MUL promises;
* `toNat_hi_productWord`, `toNat_lo_productWord`: the words that the code makes of a product;
* `multiplies_iff`: when it keeps the promise;
* `multiplies_two_three`: factors for which it does not;
* `MultipliesWord`, `multipliesWord_iff`: the same of IMUL, which returns the low word.
-/

namespace KM10

open StateExcept

/-! ### What a multiplication promises -/

/-- The double word of an integer: the quotient by `2^35` in the high word, and the remainder below
the same sign in the low word. -/
def W72.ofInt (n : ℤ) : W72 :=
  ⟨W36.ofInt (n / 2 ^ 35), (W36.ofInt n).setSign (W36.ofInt (n / 2 ^ 35)).sign⟩

/-- It is the double word of the 71-bit number. -/
lemma W72.ofInt_eq_ofNum (n : ℤ) : W72.ofInt n = W72.ofNum (BitVec.ofInt 71 n) := by
  have h := W72.ofNum_ofInt 0 n
  rw [Int.zero_mul, Int.zero_add, Int.zero_add] at h
  exact h.symm

lemma toInt_num_ofInt {n : ℤ} (hle : -2 ^ 70 ≤ n) (hlt : n < 2 ^ 70) :
    (W72.ofInt n).num.toInt = n := by
  rw [W72.ofInt_eq_ofNum, W72.num_ofNum]
  exact BitVec.toInt_ofInt_eq_self (by decide) hle hlt

/-- Two factors that are the most negative word. -/
def BothMaxNeg (s1 s2 : W36) : Prop := s1.ext64 = -2 ^ 35 ∧ s2.ext64 = -2 ^ 35

/-- A multiplication returns the double word of the product and changes no flag.  It sets OV and
TR1 if both factors are the most negative word. -/
structure Multiplies (s1 s2 : W36) (s : Cpu) : Prop where
  product : ¬ BothMaxNeg s1 s2 →
    (mulWord s1 s2).run s = .ok (W72.ofInt (s1.ext64 * s2.ext64), s)
  overflow : BothMaxNeg s1 s2 →
    ∃ r, (mulWord s1 s2).run s = .ok (r, { s with flags := s.flags.overflow })

/-! ### The code -/

lemma bothMaxNeg_iff {s1 s2 : W36} : bothMaxNeg s1 s2 = true ↔ BothMaxNeg s1 s2 := by
  have hmost (w : W36) : w = W36.ofNat W36.bit0 ↔ w.ext64 = -2 ^ 35 := by
    rw [← BitVec.toInt_inj]
    rfl
  rw [bothMaxNeg, decide_eq_true_iff, hmost, hmost, BothMaxNeg]

/-- The magnitude of a product of words is at most that of the most negative words. -/
lemma natAbs_product_le (s1 s2 : W36) : (s1.ext64 * s2.ext64).natAbs ≤ 2 ^ 70 := by
  have h1 := ext64_bounds s1
  have h2 := ext64_bounds s2
  have hle := Nat.mul_le_mul (show s1.ext64.natAbs ≤ 2 ^ 35 by omega)
    (show s2.ext64.natAbs ≤ 2 ^ 35 by omega)
  rw [Int.natAbs_mul]
  omega

/-- A product of magnitudes, of which one is not the largest. -/
lemma natAbs_mul_lt {A B : ℤ} {m : ℕ} (hA : A.natAbs ≤ m) (hB : B.natAbs ≤ m)
    (h : A.natAbs < m ∨ B.natAbs < m) : (A * B).natAbs < m * m := by
  rw [Int.natAbs_mul]
  rcases h with h | h
  · exact Nat.mul_lt_mul_of_lt_of_le h hB (Nat.zero_lt_of_lt h)
  · exact Nat.mul_lt_mul_of_le_of_lt hA h (Nat.zero_lt_of_lt h)

/-- A product is smaller unless both factors are the most negative word. -/
lemma natAbs_product_lt {s1 s2 : W36} (h : ¬ BothMaxNeg s1 s2) :
    (s1.ext64 * s2.ext64).natAbs < 2 ^ 70 := by
  have h1 := ext64_bounds s1
  have h2 := ext64_bounds s2
  rw [BothMaxNeg] at h
  have hlt := natAbs_mul_lt (A := s1.ext64) (B := s2.ext64) (m := 2 ^ 35) (by omega) (by omega)
    (by omega)
  omega

/-- A magnitude below a sign. -/
lemma toNat_signed (b : Bool) (m : BitVec 35) :
    (BitVec.ofBool b ++ m).toNat = (if b then 2 ^ 35 else 0) + m.toNat := by
  rw [BitVec.toNat_append, ← Nat.shiftLeft_add_eq_or_of_lt m.isLt]
  cases b <;> rfl

lemma toNat_fromMag (m : BitVec 64) (b : Bool) :
    (W36.fromMag m b).toNat = (if b then 2 ^ 35 else 0) + m.toNat % 2 ^ 35 := by
  rw [W36.fromMag, toNat_signed, BitVec.toNat_setWidth]

lemma sign_fromMag (m : BitVec 64) (b : Bool) : (W36.fromMag m b).sign = b := by
  rw [← msb_eq_sign, W36.fromMag, BitVec.msb_append]
  cases b <;> rfl

lemma mag_fromMag (m : BitVec 64) (b : Bool) : (W36.fromMag m b).mag = m.setWidth 35 :=
  BitVec.extractLsb'_append_eq_right

/-- The high word has the low bits of the magnitude. -/
lemma toNat_hi_productWord (s1 s2 : W36) :
    (productWord s1 s2).hi.toNat = (if s1.ext64 * s2.ext64 < 0 then 2 ^ 35 else 0) +
      (s1.ext64 * s2.ext64).natAbs % 2 ^ 35 := by
  have hle := natAbs_product_le s1 s2
  rw [productWord, W72.fromMag, W72.ofMags, toNat_fromMag, BitVec.toNat_setWidth,
    BitVec.toNat_ofNat]
  simp only [decide_eq_true_eq]
  omega

/-- The low word has the next 29 bits. -/
lemma toNat_lo_productWord (s1 s2 : W36) :
    (productWord s1 s2).lo.toNat = (if s1.ext64 * s2.ext64 < 0 then 2 ^ 35 else 0) +
      (s1.ext64 * s2.ext64).natAbs / 2 ^ 35 % 2 ^ 29 := by
  have hle := natAbs_product_le s1 s2
  rw [productWord, W72.fromMag, W72.ofMags, toNat_fromMag, BitVec.toNat_ushiftRight,
    BitVec.toNat_setWidth, BitVec.toNat_ofNat, Nat.shiftRight_eq_div_pow]
  simp only [decide_eq_true_eq]
  omega

/-- The words of the double word of an integer that fits. -/
lemma toNat_ofInt {n : ℤ} (hle : -2 ^ 70 ≤ n) (hlt : n < 2 ^ 70) :
    ((W72.ofInt n).hi.toNat : ℤ) = (if n < 0 then 2 ^ 36 else 0) + n / 2 ^ 35 ∧
      ((W72.ofInt n).lo.toNat : ℤ) = (if n < 0 then 2 ^ 35 else 0) + n % 2 ^ 35 := by
  have hcast : ((2 ^ 36 : ℕ) : ℤ) = 2 ^ 36 := rfl
  have hhi : ((W36.ofInt (n / 2 ^ 35)).toNat : ℤ) =
      (if n < 0 then 2 ^ 36 else 0) + n / 2 ^ 35 := by
    rw [W36.ofInt, BitVec.toNat_ofInt, hcast]
    split <;> omega
  refine ⟨hhi, ?_⟩
  have hsign : (W36.ofInt (n / 2 ^ 35)).sign = decide (n < 0) := by
    rw [← msb_eq_sign, BitVec.msb_eq_decide, decide_eq_decide]
    split at hhi <;> omega
  have hmag : ((W36.ofInt n).mag.toNat : ℤ) = n % 2 ^ 35 := by
    rw [W36.ofInt, W36.mag, BitVec.extractLsb'_toNat, BitVec.toNat_ofInt, hcast]
    omega
  rw [W72.ofInt, W36.setSign, hsign, toNat_signed, Int.natCast_add, hmag]
  simp only [decide_eq_true_eq]
  split <;> rfl

/-- The code makes the right double word exactly of the products without sign whose halves are
equal and short. -/
lemma productWord_eq_iff {s1 s2 : W36} (h : ¬ BothMaxNeg s1 s2) :
    productWord s1 s2 = W72.ofInt (s1.ext64 * s2.ext64) ↔
      0 ≤ s1.ext64 * s2.ext64 ∧ s1.ext64 * s2.ext64 / 2 ^ 35 = s1.ext64 * s2.ext64 % 2 ^ 35 ∧
        s1.ext64 * s2.ext64 / 2 ^ 35 < 2 ^ 29 := by
  have hlt := natAbs_product_lt h
  have hhi := toNat_hi_productWord s1 s2
  have hlo := toNat_lo_productWord s1 s2
  obtain ⟨hhi', hlo'⟩ := toNat_ofInt (n := s1.ext64 * s2.ext64) (by omega) (by omega)
  have hext : productWord s1 s2 = W72.ofInt (s1.ext64 * s2.ext64) ↔
      (productWord s1 s2).hi.toNat = (W72.ofInt (s1.ext64 * s2.ext64)).hi.toNat ∧
        (productWord s1 s2).lo.toNat = (W72.ofInt (s1.ext64 * s2.ext64)).lo.toNat := by
    rw [BitVec.toNat_inj, BitVec.toNat_inj]
    exact Iff.of_eq (W72.mk.injEq _ _ _ _)
  rw [hext]
  generalize s1.ext64 * s2.ext64 = p at *
  -- the magnitude in two halves
  have hm := Nat.div_add_mod p.natAbs (2 ^ 35)
  have hl := Nat.mod_lt p.natAbs (Nat.two_pow_pos 35)
  generalize p.natAbs / 2 ^ 35 = h at *
  generalize p.natAbs % 2 ^ 35 = l at *
  by_cases hneg : p < 0
  · rw [if_pos hneg] at hhi hlo hhi' hlo'
    rcases Nat.eq_zero_or_pos l with rfl | hpos
    · have hdiv : p / 2 ^ 35 = -h := by omega
      rw [hdiv] at hhi'
      omega
    · have hdiv : p / 2 ^ 35 = -h - 1 := by omega
      have hmod : p % 2 ^ 35 = 2 ^ 35 - l := by omega
      rw [hdiv] at hhi'
      rw [hmod] at hlo'
      omega
  · rw [if_neg hneg] at hhi hlo hhi' hlo'
    have hdiv : p / 2 ^ 35 = h := by omega
    have hmod : p % 2 ^ 35 = l := by omega
    rw [hdiv] at hhi'
    rw [hmod] at hlo'
    rw [hdiv, hmod]
    omega

/-! ### When the promise is kept -/

/-- **MUL** keeps its promise for two words that are the most negative one, and otherwise exactly
if the product has no sign and two equal halves below `2^29`, so that it does not matter which of
them goes where. -/
theorem multiplies_iff (s1 s2 : W36) (s : Cpu) :
    Multiplies s1 s2 s ↔ BothMaxNeg s1 s2 ∨
      (0 ≤ s1.ext64 * s2.ext64 ∧ s1.ext64 * s2.ext64 / 2 ^ 35 = s1.ext64 * s2.ext64 % 2 ^ 35 ∧
        s1.ext64 * s2.ext64 / 2 ^ 35 < 2 ^ 29) := by
  by_cases hboth : BothMaxNeg s1 s2
  · refine iff_of_true ⟨fun h => absurd hboth h, fun _ => ⟨⟨W36.ofNat (2 ^ 34), 0⟩, ?_⟩⟩
      (.inl hboth)
    rw [mulWord, if_pos (bothMaxNeg_iff.mpr hboth)]
    rfl
  · have hrun : (mulWord s1 s2).run s = .ok (productWord s1 s2, s) := by
      rw [mulWord, if_neg fun h => hboth (bothMaxNeg_iff.mp h)]
      rfl
    rw [or_iff_right hboth, ← productWord_eq_iff hboth]
    constructor
    · intro h
      have hproduct := h.product hboth
      rw [hrun, Except.ok.injEq, Prod.mk.injEq] at hproduct
      exact hproduct.1
    · intro h
      exact ⟨fun _ => by rw [hrun, h], fun h => absurd h hboth⟩

/-- **A product in the wrong half**: 2 times 3 has 6 in the high word. -/
theorem multiplies_two_three :
    (mulWord 2 3).run Cpu.initial = .ok (⟨6, 0⟩, Cpu.initial) ∧
      W72.ofInt 6 = ⟨0, 6⟩ ∧ ¬ Multiplies 2 3 Cpu.initial := by
  have hboth : ¬ BothMaxNeg 2 3 := fun h => absurd h.1 (by decide)
  refine ⟨rfl, by decide, fun h => ?_⟩
  have hproduct := h.product hboth
  have hrun : (mulWord 2 3).run Cpu.initial = .ok (⟨6, 0⟩, Cpu.initial) := rfl
  rw [hrun, Except.ok.injEq, Prod.mk.injEq] at hproduct
  exact absurd hproduct.1 (by decide)

/-! ### The product in one word -/

/-- A multiplication to one word returns a product that fits and changes no flag.  It sets OV and
TR1 if the product does not fit. -/
structure MultipliesWord (s1 s2 : W36) (s : Cpu) : Prop where
  product : overflows (s1.ext64 * s2.ext64) = false →
    (imulWord s1 s2).run s = .ok (W36.ofInt (s1.ext64 * s2.ext64), s)
  overflow : overflows (s1.ext64 * s2.ext64) = true →
    ∃ r, (imulWord s1 s2).run s = .ok (r, { s with flags := s.flags.overflow })

/-- The word that `imulWord` assembles is the low word of the product. -/
lemma run_imulWord (s1 s2 : W36) (s : Cpu) :
    (imulWord s1 s2).run s = .ok ((productWord s1 s2).lo,
      { s with flags := if bothMaxNeg s1 s2 then s.flags.overflow else s.flags }) := by
  have hlo : BitVec.ofBool (productWord s1 s2).hiSign ++ (productWord s1 s2).lo35 =
      (productWord s1 s2).lo := by
    rw [productWord, W72.fromMag, W72.ofMags, W72.hiSign, W72.lo35, sign_fromMag, mag_fromMag]
    rfl
  rw [imulWord]
  cases bothMaxNeg s1 s2 <;> rw [hlo] <;> rfl

/-- The low word has none of the low bits of the magnitude, which are all that a product that fits
has. -/
lemma lo_productWord_eq_iff {s1 s2 : W36} (h : overflows (s1.ext64 * s2.ext64) = false) :
    (productWord s1 s2).lo = W36.ofInt (s1.ext64 * s2.ext64) ↔ s1.ext64 * s2.ext64 = 0 := by
  have hlo := toNat_lo_productWord s1 s2
  rw [overflows, decide_eq_false_iff_not, not_or, not_lt, not_le] at h
  have hint : ((W36.ofInt (s1.ext64 * s2.ext64)).toNat : ℤ) = s1.ext64 * s2.ext64 % 2 ^ 36 := by
    rw [W36.ofInt, BitVec.toNat_ofInt]
    omega
  rw [← BitVec.toNat_inj]
  generalize s1.ext64 * s2.ext64 = p at *
  by_cases hleast : p = -2 ^ 35
  · subst hleast
    rw [hlo]
    decide
  · have hsmall : p.natAbs / 2 ^ 35 % 2 ^ 29 = 0 := by omega
    rw [hsmall] at hlo
    split at hlo <;> omega

/-- A product that fits must be zero. -/
lemma multipliesWord_of_fits {s1 s2 : W36} {s : Cpu}
    (hover : overflows (s1.ext64 * s2.ext64) = false) :
    MultipliesWord s1 s2 s ↔ s1.ext64 * s2.ext64 = 0 := by
  have hboth : ¬ bothMaxNeg s1 s2 = true := by
    rw [bothMaxNeg_iff]
    rintro ⟨h1, h2⟩
    rw [h1, h2] at hover
    exact absurd hover (by decide)
  have hrun := run_imulWord s1 s2 s
  rw [if_neg hboth] at hrun
  rw [← lo_productWord_eq_iff hover]
  constructor
  · intro h
    have hproduct := h.product hover
    rw [hrun, Except.ok.injEq, Prod.mk.injEq] at hproduct
    exact hproduct.1
  · intro h
    refine ⟨fun _ => by rw [hrun, h], fun h => ?_⟩
    rw [hover] at h
    exact absurd h Bool.false_ne_true

/-- One that does not fit must be that of the most negative words, or add nothing to the flags. -/
lemma multipliesWord_of_overflows {s1 s2 : W36} {s : Cpu}
    (hover : overflows (s1.ext64 * s2.ext64) = true) :
    MultipliesWord s1 s2 s ↔ BothMaxNeg s1 s2 ∨ (s.flags.ov ∧ s.flags.tr1) := by
  have hflags : MultipliesWord s1 s2 s ↔
      (if bothMaxNeg s1 s2 then s.flags.overflow else s.flags) = s.flags.overflow := by
    constructor
    · intro h
      obtain ⟨r, hrun⟩ := h.overflow hover
      rw [run_imulWord, Except.ok.injEq, Prod.mk.injEq, with_flags_inj] at hrun
      exact hrun.2
    · intro h
      refine ⟨fun h => ?_, fun _ => ⟨(productWord s1 s2).lo, ?_⟩⟩
      · rw [hover] at h
        exact absurd h.symm Bool.false_ne_true
      · rw [run_imulWord, h]
  rw [hflags, ← bothMaxNeg_iff]
  by_cases hboth : bothMaxNeg s1 s2 = true
  · rw [if_pos hboth]
    exact iff_of_true rfl (.inl hboth)
  · rw [if_neg hboth, or_iff_right hboth, eq_comm]
    exact overflow_eq_self_iff s.flags

/-- **IMUL** keeps its promise for a product of zero, and otherwise only for one that does not fit
and whose factors are both the most negative word, or if OV and TR1 are set already. -/
theorem multipliesWord_iff (s1 s2 : W36) (s : Cpu) :
    MultipliesWord s1 s2 s ↔ s1.ext64 * s2.ext64 = 0 ∨
      (overflows (s1.ext64 * s2.ext64) = true ∧
        (BothMaxNeg s1 s2 ∨ (s.flags.ov ∧ s.flags.tr1))) := by
  cases hover : overflows (s1.ext64 * s2.ext64) with
  | false =>
      rw [or_iff_left (fun h => Bool.false_ne_true h.1)]
      exact multipliesWord_of_fits hover
  | true =>
      have hzero : s1.ext64 * s2.ext64 ≠ 0 := by
        intro h
        rw [h] at hover
        exact absurd hover (by decide)
      rw [or_iff_right hzero, and_iff_right rfl]
      exact multipliesWord_of_overflows hover

/-- **A product that fits is lost**: 2 times 3 has nothing in the low word. -/
theorem multipliesWord_two_three :
    (imulWord 2 3).run Cpu.initial = .ok (0, Cpu.initial) ∧
      ¬ MultipliesWord 2 3 Cpu.initial := by
  refine ⟨rfl, fun h => ?_⟩
  have hproduct := h.product (by decide)
  have hrun : (imulWord 2 3).run Cpu.initial = .ok (0, Cpu.initial) := rfl
  rw [hrun, Except.ok.injEq, Prod.mk.injEq] at hproduct
  exact absurd hproduct.1 (by decide)

end KM10
