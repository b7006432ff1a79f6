import KM10.Arith.Product
import KM10.Library.Truncated
import Mathlib.Tactic.Positivity
import Mathlib.Tactic.Ring

/-!
Division of words and of double words.

`idivWord` gives the remainder its absolute value, whichever sign it was given before.  `divWord`
divides magnitude fields, which are not the magnitudes of negative numbers, and puts the sign of
the dividend on both results.

* `LeavesQuotient`: what a division promises;
* `leavesQuotient_iff`: what it takes;
* `idiv_iff`: when IDIV keeps the promise;
* `isQuotient_divWord_iff`: the results of `divWord`, for each pair of signs;
* `div_iff`: when DIV keeps the promise;
* `idiv_minus_seven`, `div_minus_six`: dividends for which they do not.
-/

namespace KM10

open StateExcept Truncated

/-! ### What a division promises -/

/-- A division of `D` by `d` sets the flags of no-divide in the exceptional cases.  Otherwise it
returns a quotient and a remainder and changes no flag. -/
structure LeavesQuotient (m : Exec W72) (D d : ℤ) (noDivide : Prop) : Prop where
  signals : noDivide → ∀ s, ∃ w, m.run s = .ok (w, { s with flags := s.flags.noDivide })
  divides : ¬ noDivide → ∃ w : W72, IsQuotient D d w.hi.ext64 w.lo.ext64 ∧
    ∀ s, m.run s = .ok (w, s)

/-- The form of both divisions: a test for no-divide, and the results. -/
def divided (fails : Bool) (back w : W72) : Exec W72 :=
  if fails then do
    modifyFlags .noDivide
    return back
  else return w

/-- The test must be right, and the results where it does not apply. -/
lemma leavesQuotient_iff {fails : Bool} {back w : W72} {D d : ℤ} {noDivide : Prop} :
    LeavesQuotient (divided fails back w) D d noDivide ↔
      (noDivide ∧ fails = true) ∨
        (¬ noDivide ∧ fails = false ∧ IsQuotient D d w.hi.ext64 w.lo.ext64) := by
  -- a machine without flags tells the two outcomes apart
  have hflags : Cpu.initial.flags ≠ Cpu.initial.flags.noDivide := by decide
  cases fails with
  | true =>
      have hrun (s : Cpu) : (divided true back w).run s =
          .ok (back, { s with flags := s.flags.noDivide }) := rfl
      constructor
      · intro h
        refine .inl ⟨?_, rfl⟩
        by_contra hno
        obtain ⟨v, -, hv⟩ := h.divides hno
        have heq := hv Cpu.initial
        rw [hrun, Except.ok.injEq, Prod.mk.injEq] at heq
        exact hflags (congrArg Cpu.flags heq.2).symm
      · rintro (⟨hno, -⟩ | ⟨-, hfails, -⟩)
        · exact ⟨fun _ s => ⟨back, hrun s⟩, fun h => absurd hno h⟩
        · cases hfails
  | false =>
      have hrun (s : Cpu) : (divided false back w).run s = .ok (w, s) := rfl
      constructor
      · intro h
        have hno : ¬ noDivide := by
          intro hno
          obtain ⟨v, hv⟩ := h.signals hno Cpu.initial
          rw [hrun, Except.ok.injEq, Prod.mk.injEq] at hv
          exact hflags (congrArg Cpu.flags hv.2)
        obtain ⟨v, hquotient, hv⟩ := h.divides hno
        have heq := hv Cpu.initial
        rw [hrun, Except.ok.injEq, Prod.mk.injEq] at heq
        rw [heq.1]
        exact .inr ⟨hno, rfl, hquotient⟩
      · rintro (⟨-, hfails⟩ | ⟨hno, -, hquotient⟩)
        · cases hfails
        · exact ⟨fun h => absurd h hno, fun _ => ⟨w, hquotient, hrun⟩⟩

/-! ### Words -/

/-- The divisions of words that cannot be done. -/
def IdivNoDivide (D d : ℤ) : Prop := d = 0 ∨ (D = -2 ^ 35 ∧ d = -1)

lemma idivFails_iff {s1 s2 : W36} :
    idivFails s1 s2 = true ↔ IdivNoDivide s1.ext64 s2.ext64 := by
  have hmost : s1 = W36.ofNat W36.bit0 ↔ s1.ext64 = -2 ^ 35 := by
    rw [← BitVec.toInt_inj]
    rfl
  rw [idivFails, decide_eq_true_iff, hmost, IdivNoDivide, ext64_eq_zero_iff]
  exact or_comm

/-- All other quotients fit. -/
lemma overflows_tdiv {D d : ℤ} (hle : -2 ^ 35 ≤ D) (hlt : D < 2 ^ 35)
    (h : ¬ IdivNoDivide D d) : overflows (D.tdiv d) = false := by
  rw [IdivNoDivide, not_or] at h
  rw [overflows, decide_eq_false_iff_not]
  by_cases hone : d.natAbs = 1
  · rcases Int.natAbs_eq_iff.mp hone with rfl | rfl
    · rw [Nat.cast_one, Int.tdiv_one]
      omega
    · rw [Nat.cast_one, Int.tdiv_neg, Int.tdiv_one]
      omega
  · have hhalf : (D.tdiv d).natAbs ≤ D.natAbs / 2 := by
      rw [Int.natAbs_tdiv]
      exact Nat.div_le_div_left (by omega) (by decide)
    omega

/-- The remainder of the code is right if it has no sign. -/
lemma isQuotient_idivWord_iff {s1 s2 : W36} (h : ¬ IdivNoDivide s1.ext64 s2.ext64) :
    IsQuotient s1.ext64 s2.ext64 (W36.ofInt (s1.ext64.tdiv s2.ext64)).ext64
        (W36.ofNat (s1.ext64.tmod s2.ext64).natAbs).ext64 ↔
      0 ≤ s1.ext64 ∨ s2.ext64 ∣ s1.ext64 := by
  have hD := ext64_bounds s1
  have hd := ext64_bounds s2
  have hzero : s2.ext64 ≠ 0 := (not_or.mp h).1
  have hquotient := isQuotient_tdiv s1.ext64 hzero
  have hrem : (W36.ofNat (s1.ext64.tmod s2.ext64).natAbs).ext64 =
      (s1.ext64.tmod s2.ext64).natAbs := by
    have hlt := hquotient.lt
    rw [← ofInt_natCast]
    refine ext64_ofInt ?_
    rw [overflows, decide_eq_false_iff_not]
    omega
  rw [ext64_ofInt (overflows_tdiv hD.1 hD.2 h), hrem, isQuotient_iff hzero, and_iff_right rfl,
    Int.dvd_iff_tmod_eq_zero]
  have hpos := hquotient.pos
  have hneg := hquotient.neg
  omega

/-- **IDIV** keeps its promise for dividends without sign, and otherwise exactly if there is no
remainder or the divisor is zero. -/
theorem idiv_iff (s1 s2 : W36) :
    LeavesQuotient (idivWord s1 s2) s1.ext64 s2.ext64 (IdivNoDivide s1.ext64 s2.ext64) ↔
      s2.ext64 = 0 ∨ 0 ≤ s1.ext64 ∨ s2.ext64 ∣ s1.ext64 := by
  have hdivided : idivWord s1 s2 = divided (idivFails s1 s2) ⟨s1, s2⟩
      ⟨W36.ofInt (s1.ext64.tdiv s2.ext64), W36.ofNat (s1.ext64.tmod s2.ext64).natAbs⟩ := rfl
  rw [hdivided, leavesQuotient_iff, ← Bool.not_eq_true, idivFails_iff, and_self]
  by_cases hno : IdivNoDivide s1.ext64 s2.ext64
  · refine iff_of_true (.inl hno) ?_
    rcases hno with hzero | ⟨-, hone⟩
    · exact .inl hzero
    · rw [hone]
      exact .inr (.inr (Int.neg_dvd.mpr (one_dvd _)))
  · have hzero : s2.ext64 ≠ 0 := (not_or.mp hno).1
    rw [or_iff_right hno, or_iff_right hzero, and_iff_right hno, and_iff_right hno]
    exact isQuotient_idivWord_iff hno

/-- **A remainder without its sign**: -7 divided by 2 is -3, and the remainder is 1. -/
theorem idiv_minus_seven :
    (idivWord (W36.ofInt (-7)) 2).run Cpu.initial = .ok (⟨W36.ofInt (-3), 1⟩, Cpu.initial) ∧
      ¬ LeavesQuotient (idivWord (W36.ofInt (-7)) 2) (-7) 2 (IdivNoDivide (-7) 2) := by
  have hrun : (idivWord (W36.ofInt (-7)) 2).run Cpu.initial =
      .ok (⟨W36.ofInt (-3), 1⟩, Cpu.initial) := rfl
  refine ⟨hrun, fun h => ?_⟩
  have hno : ¬ IdivNoDivide (-7) 2 := fun h => by
    rcases h with h | ⟨-, h⟩ <;> exact absurd h (by decide)
  obtain ⟨w, hquotient, hw⟩ := h.divides hno
  have heq := hw Cpu.initial
  rw [hrun, Except.ok.injEq, Prod.mk.injEq] at heq
  rw [← heq.1] at hquotient
  exact absurd hquotient.eq (by decide)

/-! ### Double words -/

/-- The divisions of a double word by a word that cannot be done. -/
def DivNoDivide (D d : ℤ) : Prop := d = 0 ∨ d.natAbs * 2 ^ 35 ≤ D.natAbs

/-- A short magnitude below a sign, as a signed number. -/
lemma ext64_fromMag {n : ℕ} (h : n < 2 ^ 35) (b : Bool) :
    (W36.fromMag (BitVec.ofNat 64 n) b).ext64 = (n : ℤ) - if b then 2 ^ 35 else 0 := by
  have hmag : (W36.fromMag (BitVec.ofNat 64 n) b).mag.toNat = n := by
    rw [mag_fromMag, BitVec.toNat_setWidth, BitVec.toNat_ofNat]
    omega
  rw [ext64_eq_mag, sign_fromMag, hmag]

/-- When the quotient and the remainder of the magnitude fields, with the sign of the dividend on
both, are those of the signed numbers: always without signs, and rarely otherwise. -/
def SignsAgree (den mag : ℕ) (negD negd : Bool) : Prop :=
  match negD, negd with
  | false, false => True
  | false, true => den < mag ∧ den < 2 ^ 35 - mag
  | true, false => mag = 2 ^ 35 - 1 ∧ 2 ≤ den % mag
  | true, true => False

section Magnitudes

variable {den mag q r : ℕ}

/-- Below a divisor with sign, the quotient has the wrong sign unless it is zero. -/
lemma isQuotient_negative_divisor_iff (hdm : (q : ℤ) * mag + r = den) (hmag : mag < 2 ^ 35)
    (hsmall : q = 0 ↔ den < mag) :
    IsQuotient den (mag - 2 ^ 35) q r ↔ den < mag ∧ den < 2 ^ 35 - mag := by
  have hmul : (q : ℤ) * (mag - 2 ^ 35) = q * mag - 2 ^ 35 * q := by ring
  constructor
  · intro h
    have heq := h.eq
    have hlt := h.lt
    rw [hmul] at heq
    have hzero : q = 0 := by omega
    rw [hzero, Nat.cast_zero, Int.zero_mul] at hdm
    exact ⟨hsmall.mp hzero, by omega⟩
  · rintro ⟨hmagnitude, hdivisor⟩
    have hzero : q = 0 := hsmall.mpr hmagnitude
    subst hzero
    exact ⟨by omega, by omega, by omega, by omega⟩

/-- For a dividend with sign, both results are too small by `2^35`, and the dividend by `2^70`. -/
lemma isQuotient_negative_dividend_iff (hdm : (q : ℤ) * mag + r = den) (hr : r < mag)
    (hmag : mag < 2 ^ 35) (hden : den < mag * 2 ^ 35) :
    IsQuotient (den - 2 ^ 70) mag (q - 2 ^ 35) (r - 2 ^ 35) ↔ mag = 2 ^ 35 - 1 ∧ 2 ≤ r := by
  have hmul : ((q : ℤ) - 2 ^ 35) * mag = q * mag - 2 ^ 35 * mag := by ring
  constructor
  · intro h
    have heq := h.eq
    have hlt := h.lt
    rw [hmul] at heq
    omega
  · rintro ⟨rfl, hrest⟩
    exact ⟨by rw [hmul]; omega, by omega, by omega, by omega⟩

/-- With both signs, the quotient should have none. -/
lemma not_isQuotient_negative (hdm : (q : ℤ) * mag + r = den) (hmag : mag < 2 ^ 35)
    (hq : q < 2 ^ 35) :
    ¬ IsQuotient (den - 2 ^ 70) (mag - 2 ^ 35) (q - 2 ^ 35) (r - 2 ^ 35) := by
  have hmul : ((q : ℤ) - 2 ^ 35) * (mag - 2 ^ 35) =
      q * mag - 2 ^ 35 * q - 2 ^ 35 * mag + 2 ^ 70 := by ring
  intro h
  have heq := h.eq
  rw [hmul] at heq
  omega

end Magnitudes

lemma isQuotient_divWord_iff {den mag : ℕ} (hmag : mag < 2 ^ 35) (hden : den < mag * 2 ^ 35)
    (negD negd : Bool) :
    IsQuotient (den - if negD then 2 ^ 70 else 0) (mag - if negd then 2 ^ 35 else 0)
        ((den / mag : ℕ) - if negD then 2 ^ 35 else 0)
        ((den % mag : ℕ) - if negD then 2 ^ 35 else 0) ↔
      SignsAgree den mag negD negd := by
  have hpos : 0 < mag := by omega
  have hq : den / mag < 2 ^ 35 := Nat.div_lt_of_lt_mul hden
  have hr : den % mag < mag := Nat.mod_lt den hpos
  have hle : den % mag ≤ den := Nat.mod_le den mag
  have hdm : ((den / mag : ℕ) : ℤ) * mag + (den % mag : ℕ) = den := by
    rw [Int.mul_comm]
    exact_mod_cast Nat.div_add_mod den mag
  cases negD <;> cases negd <;>
    simp only [SignsAgree, if_true, if_false, Bool.false_eq_true, Int.sub_zero]
  · refine iff_of_true ⟨hdm.symm, by omega, by omega, by omega⟩ trivial
  · exact isQuotient_negative_divisor_iff hdm hmag (Nat.div_eq_zero_iff_lt hpos)
  · exact isQuotient_negative_dividend_iff hdm hr hmag hden
  · exact iff_of_false (not_isQuotient_negative hdm hmag hq) id

/-- The divisions that `divWord` gets right: those of numbers without sign, by zero, those of which
both the code and its promise say that they cannot be done, those of a dividend without sign that
is smaller than the divisor and than its magnitude field, and those of a negative dividend by the
largest divisor with a remainder of two at least. -/
def DivRight (D d : ℤ) : Prop :=
  (0 ≤ D ∧ 0 < d) ∨ d = 0 ∨
    (d.natAbs * 2 ^ 35 ≤ D.natAbs ∧ d % 2 ^ 35 ≤ D / 2 ^ 35 % 2 ^ 35) ∨
    (0 ≤ D ∧ d < 0 ∧ D < -d ∧ D < 2 ^ 35 + d) ∨
    (D < 0 ∧ d = 2 ^ 35 - 1 ∧ 2 ^ 35 < D.natAbs ∧ D.natAbs < (2 ^ 35 - 1) * 2 ^ 35 ∧
      2 ≤ D.natAbs % (2 ^ 35 - 1))

section Fields

variable {hi lo mag : ℕ} {negD negd : Bool} {D d : ℤ}

/-- The test of the code in terms of the numbers. -/
lemma test_iff (hhi : hi < 2 ^ 35) (hlo : lo < 2 ^ 35) (hmag : mag < 2 ^ 35)
    (hD : D = (hi * 2 ^ 35 + lo : ℕ) - if negD then 2 ^ 70 else 0)
    (hd : d = mag - if negd then 2 ^ 35 else 0) :
    d % 2 ^ 35 ≤ D / 2 ^ 35 % 2 ^ 35 ↔ mag ≤ hi := by
  have hmag' : d % 2 ^ 35 = mag := by
    rw [hd]
    split <;> omega
  have hhi' : D / 2 ^ 35 % 2 ^ 35 = hi := by
    rw [hD]
    split <;> omega
  rw [hmag', hhi']
  exact Nat.cast_le

/-- The divisions that are done right, in terms of the fields: the test of the code must be right,
and the signs agree. -/
lemma divRight_iff (hhi : hi < 2 ^ 35) (hlo : lo < 2 ^ 35) (hmag : mag < 2 ^ 35)
    (hD : D = (hi * 2 ^ 35 + lo : ℕ) - if negD then 2 ^ 70 else 0)
    (hd : d = mag - if negd then 2 ^ 35 else 0) :
    DivRight D d ↔ (DivNoDivide D d ∧ mag ≤ hi) ∨
      (¬ DivNoDivide D d ∧ hi < mag ∧ SignsAgree (hi * 2 ^ 35 + lo) mag negD negd) := by
  rw [DivRight, test_iff hhi hlo hmag hD hd, DivNoDivide]
  cases negD with
  | false =>
      rw [if_neg Bool.false_ne_true, Int.sub_zero] at hD
      have hpos : 0 ≤ D := by omega
      cases negd with
      | false =>
          rw [if_neg Bool.false_ne_true, Int.sub_zero] at hd
          have htest : d.natAbs * 2 ^ 35 ≤ D.natAbs ↔ mag ≤ hi := by omega
          rw [htest, SignsAgree, and_true]
          omega
      | true =>
          rw [if_pos rfl] at hd
          rw [SignsAgree]
          omega
  | true =>
      rw [if_pos rfl] at hD
      cases negd with
      | false =>
          rw [if_neg Bool.false_ne_true, Int.sub_zero] at hd
          have habs : D.natAbs = 2 ^ 70 - (hi * 2 ^ 35 + lo) := by omega
          rw [SignsAgree]
          by_cases hmost : mag = 2 ^ 35 - 1
          · have hrem : 2 ≤ D.natAbs % (2 ^ 35 - 1) ↔ 2 ≤ (hi * 2 ^ 35 + lo) % mag := by
              rw [habs, hmost]
              omega
            rw [hrem]
            omega
          · omega
      | true =>
          rw [if_pos rfl] at hd
          rw [SignsAgree, and_false, and_false, or_false]
          omega

end Fields

/-- A multiple by less than `2^35` can be divided. -/
lemma not_divNoDivide_mul {a d : ℤ} (hd : d ≠ 0) (ha : a.natAbs < 2 ^ 35) :
    ¬ DivNoDivide (a * d) d := by
  rw [DivNoDivide, or_iff_right hd, Int.natAbs_mul, Nat.mul_comm, not_le]
  exact Nat.mul_lt_mul_of_pos_right ha (Int.natAbs_pos.mpr hd)

/-- The multiples that are divided right. -/
lemma divRight_mul_iff {a d : ℤ} (hd : d ≠ 0) (ha : a.natAbs < 2 ^ 35) :
    DivRight (a * d) d ↔ (0 ≤ a ∧ 0 < d) ∨ (a = 0 ∧ -2 ^ 35 < d) := by
  have hno := not_divNoDivide_mul hd ha
  rw [DivNoDivide, or_iff_right hd] at hno
  constructor
  · rintro (⟨hD, hpos⟩ | hzero | ⟨hle, -⟩ | ⟨hD, hneg, hlt, hfield⟩ | ⟨-, rfl, -, -, hrem⟩)
    · exact .inl ⟨nonneg_of_mul_nonneg_left hD hpos, hpos⟩
    · exact absurd hzero hd
    · exact absurd hle hno
    · have hzero : a = 0 := by nlinarith
      exact .inr ⟨hzero, by rw [hzero] at hfield; omega⟩
    · have hmul : (a * (2 ^ 35 - 1)).natAbs % (2 ^ 35 - 1) = 0 := by
        rw [Int.natAbs_mul]
        exact Nat.mul_mod_left _ _
      rw [hmul] at hrem
      exact absurd hrem (by decide)
  · rintro (⟨hD, hpos⟩ | ⟨rfl, hlt⟩)
    · exact .inl ⟨mul_nonneg hD hpos.le, hpos⟩
    · rw [Int.zero_mul, DivRight]
      rcases lt_or_gt_of_ne hd with hneg | hpos
      · exact .inr (.inr (.inr (.inl ⟨le_rfl, hneg, by omega, by omega⟩)))
      · exact .inl ⟨le_rfl, hpos⟩

/-- `divWord` is a division of the magnitude fields. -/
lemma divWord_eq (s1 : W72) (s2 : W36) :
    divWord s1 s2 = divided (divFails s1 s2) s1
      (W72.ofMags (BitVec.ofNat 64 ((s1.hi35.toNat * 2 ^ 35 + s1.lo35.toNat) / s2.mag.toNat))
        (BitVec.ofNat 64 ((s1.hi35.toNat * 2 ^ 35 + s1.lo35.toNat) % s2.mag.toNat)) s1.hiSign) :=
  rfl

lemma divFails_iff {s1 : W72} {s2 : W36} :
    divFails s1 s2 = true ↔ s2.mag.toNat ≤ s1.hi35.toNat := by
  rw [divFails, decide_eq_true_iff, BitVec.le_def, or_iff_left_iff_imp]
  rintro rfl
  exact Nat.zero_le _

/-- **DIV** keeps its promise exactly for the divisions above.  A product divided by one of its
factors gives the other if both are without sign, or if the product is zero and the divisor not the
most negative word. -/
theorem div_iff (s1 : W72) (s2 : W36) :
    (LeavesQuotient (divWord s1 s2) s1.num.toInt s2.ext64
        (DivNoDivide s1.num.toInt s2.ext64) ↔ DivRight s1.num.toInt s2.ext64) ∧
      ∀ a : W36, a.ext64 ≠ -2 ^ 35 → s2.ext64 ≠ 0 → s1.num.toInt = a.ext64 * s2.ext64 →
        ((∀ s, (divWord s1 s2).run s = .ok (⟨a, 0⟩, s)) ↔
          (0 ≤ a.ext64 ∧ 0 < s2.ext64) ∨ (a.ext64 = 0 ∧ -2 ^ 35 < s2.ext64)) := by
  have hiff : LeavesQuotient (divWord s1 s2) s1.num.toInt s2.ext64
      (DivNoDivide s1.num.toInt s2.ext64) ↔ DivRight s1.num.toInt s2.ext64 := by
    have hhi := s1.hi35.isLt
    have hlo := s1.lo35.isLt
    have hmag := s2.mag.isLt
    rw [divWord_eq, leavesQuotient_iff, ← Bool.not_eq_true, divFails_iff, not_le,
      divRight_iff hhi hlo hmag s1.toInt_num (ext64_eq_mag s2)]
    refine or_congr_right (and_congr_right fun _ => and_congr_right fun htest => ?_)
    have hden : s1.hi35.toNat * 2 ^ 35 + s1.lo35.toNat < s2.mag.toNat * 2 ^ 35 := by omega
    have hq : (s1.hi35.toNat * 2 ^ 35 + s1.lo35.toNat) / s2.mag.toNat < 2 ^ 35 :=
      Nat.div_lt_of_lt_mul hden
    have hr : (s1.hi35.toNat * 2 ^ 35 + s1.lo35.toNat) % s2.mag.toNat < 2 ^ 35 :=
      (Nat.mod_lt _ (by omega)).trans hmag
    rw [← isQuotient_divWord_iff hmag hden, W72.ofMags, ext64_fromMag hq, ext64_fromMag hr,
      s1.toInt_num, ext64_eq_mag s2]
  refine ⟨hiff, fun a ha hzero hproduct => ?_⟩
  have hbounds := ext64_bounds a
  have hno := not_divNoDivide_mul (a := a.ext64) hzero (by omega)
  rw [← divRight_mul_iff (a := a.ext64) hzero (by omega), ← hproduct, ← hiff]
  rw [← hproduct] at hno
  constructor
  · intro h
    refine ⟨fun h => absurd h hno, fun _ => ⟨⟨a, 0⟩, ?_, h⟩⟩
    rw [hproduct, isQuotient_mul_iff hzero]
    exact ⟨rfl, rfl⟩
  · intro h
    obtain ⟨w, hquotient, hw⟩ := h.divides hno
    rw [hproduct, isQuotient_mul_iff hzero] at hquotient
    have hhi : w.hi = a := BitVec.toInt_inj.mp hquotient.1
    have hlo : w.lo = 0 := ext64_eq_zero_iff.mp hquotient.2
    rw [← hhi, ← hlo]
    exact hw

theorem div_iff_six :
    (divWord (W72.ofInt 6) 2).run Cpu.initial = .ok (⟨3, 0⟩, Cpu.initial) := by
  have h := (div_iff (W72.ofInt 6) 2).2 3 (by decide) (by decide) (by decide)
  exact h.mpr (.inl ⟨by decide, by decide⟩) Cpu.initial

/-- **A negative dividend**: -6 divided by 2 signals no-divide. -/
theorem div_minus_six :
    (W72.ofInt (-6)).num.toInt = -6 ∧
      (divWord (W72.ofInt (-6)) 2).run Cpu.initial =
        .ok (W72.ofInt (-6), { Cpu.initial with flags := ProgramFlags.none.noDivide }) ∧
      ¬ LeavesQuotient (divWord (W72.ofInt (-6)) 2) (-6) 2 (DivNoDivide (-6) 2) := by
  have hrun : (divWord (W72.ofInt (-6)) 2).run Cpu.initial =
      .ok (W72.ofInt (-6), { Cpu.initial with flags := ProgramFlags.none.noDivide }) := rfl
  refine ⟨by decide, hrun, fun h => ?_⟩
  have hno : ¬ DivNoDivide (-6) 2 := fun h => by
    rcases h with h | h <;> exact absurd h (by decide)
  obtain ⟨w, -, hw⟩ := h.divides hno
  have heq := hw Cpu.initial
  rw [hrun, Except.ok.injEq, Prod.mk.injEq] at heq
  exact absurd (congrArg Cpu.flags heq.2) (by decide)

end KM10
