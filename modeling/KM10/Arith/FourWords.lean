import KM10.Arith.Division
import KM10.Arith.LongProduct

/-!
Multiplication of double words, and division of four words by a double word.

The long multiplication and the long division are of magnitude fields, which are not the magnitudes
of negative numbers.

* `MultipliesPairs`: what DMUL promises, and `dmul_iff`: when it keeps the promise;
* `DividesQuad`: what DDIV promises, and `ddiv_iff`: when it keeps the promise;
* `dmul_minus_one`, `ddiv_six`: operands for which they do not.
-/

namespace KM10

open StateExcept Truncated

/-! ### Four accumulators -/

/-- The machine with four words in the accumulators. -/
def Cpu.setQuad (s : Cpu) (w : W144) : Cpu :=
  (((s.setAC w.u0 s.iw.ac).setAC w.u1 (s.iw.ac + 1)).setAC w.u2 (s.iw.ac + 2)).setAC w.u3
    (s.iw.ac + 3)

lemma run_acPutQuad (w : W144) {s : Cpu} (h : s.iw.ac.toNat + 3 < 16) :
    (acPutQuad w.u0 w.u1 w.u2 w.u3).run s = .ok ((), s.setQuad w) := by
  have hput {k : ℕ} (hk : k < 4) (v : W36) (t : Cpu) (ht : t.iw = s.iw) :
      (acPutPlus v k).run t = .ok ((), t.setAC v (s.iw.ac + BitVec.ofNat 4 k)) := by
    have hrun := run_acPutPlus v (s := t) (k := k) (by rw [ht]; omega)
    rwa [ht] at hrun
  have h0 := hput (k := 0) (by decide) w.u0 s rfl
  have h1 := hput (k := 1) (by decide) w.u1 (s.setAC w.u0 s.iw.ac) rfl
  have h2 := hput (k := 2) (by decide) w.u2
    ((s.setAC w.u0 s.iw.ac).setAC w.u1 (s.iw.ac + 1)) rfl
  have h3 := hput (k := 3) (by decide) w.u3
    (((s.setAC w.u0 s.iw.ac).setAC w.u1 (s.iw.ac + 1)).setAC w.u2 (s.iw.ac + 2)) rfl
  rw [BitVec.add_zero] at h0
  rw [acPutQuad, run_bind_of_ok h0, run_bind_of_ok h1]
  exact (run_bind_of_ok h2).trans h3

/-- The four accumulators are different ones. -/
lemma acs_setQuad (s : Cpu) (w : W144) :
    (s.setQuad w).acs s.iw.ac = w.u0 ∧ (s.setQuad w).acs (s.iw.ac + 1) = w.u1 ∧
      (s.setQuad w).acs (s.iw.ac + 2) = w.u2 ∧ (s.setQuad w).acs (s.iw.ac + 3) = w.u3 := by
  have hne : ∀ n : BitVec 4, n ≠ n + 1 ∧ n ≠ n + 2 ∧ n ≠ n + 3 ∧ n + 1 ≠ n + 2 ∧ n + 1 ≠ n + 3 ∧
      n + 2 ≠ n + 3 := by decide
  obtain ⟨h01, h02, h03, h12, h13, h23⟩ := hne s.iw.ac
  simp only [Cpu.setQuad, acs_setAC, h01, h02, h03, h12, h13, h23, if_false, if_true, and_self]

/-- Only the same words leave the same machine. -/
lemma setQuad_inj {s : Cpu} {w v : W144} {f g : ProgramFlags} {running running' : Bool}
    (h : ({ s.setQuad w with flags := f, running := running } : Cpu) =
      { s.setQuad v with flags := g, running := running' }) : w.SameWords v ∧ f = g := by
  have hacs (n : BitVec 4) : (s.setQuad w).acs n = (s.setQuad v).acs n := by
    have hn := congrArg (fun t : Cpu => t.acs n) h
    exact hn
  obtain ⟨hw0, hw1, hw2, hw3⟩ := acs_setQuad s w
  obtain ⟨hv0, hv1, hv2, hv3⟩ := acs_setQuad s v
  refine ⟨⟨?_, ?_, ?_, ?_⟩, congrArg Cpu.flags h⟩
  · rw [← hw0, ← hv0, hacs]
  · rw [← hw1, ← hv1, hacs]
  · rw [← hw2, ← hv2, hacs]
  · rw [← hw3, ← hv3, hacs]

lemma setQuad_congr {w v : W144} (h : w.SameWords v) (s : Cpu) : s.setQuad w = s.setQuad v := by
  rw [Cpu.setQuad, Cpu.setQuad, h.u0, h.u1, h.u2, h.u3]

/-! ### What a multiplication promises -/

/-- Two double words that are the most negative one. -/
def PairsMaxNeg (A B : ℤ) : Prop := A = -2 ^ 70 ∧ B = -2 ^ 70

/-- A multiplication of double words leaves the product in four accumulators and changes no flag.
It sets OV and TR1, whatever the mode, if both factors are the most negative double word. -/
structure MultipliesPairs (s : Cpu) : Prop where
  product : ¬ PairsMaxNeg s.acPair.num.toInt s.memPair.num.toInt →
    ∃ running, (ops 0o116).run s = .ok (.iNormal,
      { s.setQuad (.ofInt (s.acPair.num.toInt * s.memPair.num.toInt)) with running := running })
  overflow : PairsMaxNeg s.acPair.num.toInt s.memPair.num.toInt →
    ∃ r t, (ops 0o116).run s = .ok (r, t) ∧ t.flags = s.flags.overflow

/-- The products that `W144::product` gets right: of factors without sign, of zero, of two negative
factors with the sum `-2^70`, and of a factor without sign and `-2^69`. -/
def DmulRight (A B : ℤ) : Prop :=
  (0 ≤ A ∧ 0 ≤ B) ∨ A = 0 ∨ B = 0 ∨ (A < 0 ∧ B < 0 ∧ A + B = -2 ^ 70) ∨
    (0 < A ∧ B = -2 ^ 69) ∨ (A = -2 ^ 69 ∧ 0 < B)

/-! ### The code of the multiplication -/

lemma isMaxNeg_iff {d : W72} : d.isMaxNeg = true ↔ d.num.toInt = -2 ^ 70 := by
  have hhi := d.hi35.isLt
  have hlo := d.lo35.isLt
  rw [W72.isMaxNeg, W72.toInt_num, Bool.and_eq_true, Bool.and_eq_true, beq_iff_eq, beq_iff_eq,
    ← BitVec.toNat_inj, ← BitVec.toNat_inj]
  cases d.hiSign <;> simp <;> omega

lemma isZero_iff {d : W72} :
    (!d.hiSign && d.hi35 == 0 && d.lo35 == 0) = true ↔ d.num.toInt = 0 := by
  have hhi := d.hi35.isLt
  have hlo := d.lo35.isLt
  rw [W72.toInt_num, Bool.and_eq_true, Bool.and_eq_true, beq_iff_eq, beq_iff_eq,
    ← BitVec.toNat_inj, ← BitVec.toNat_inj]
  cases d.hiSign <;> simp <;> omega

/-- The signed number that the code makes of a product. -/
lemma toInt_product (a b : W72) :
    (W144.product a b).toInt =
      if a.hiSign != b.hiSign then
        if a.mag * b.mag = 0 then -2 ^ 140 else -((a.mag : ℤ) * b.mag)
      else (a.mag : ℤ) * b.mag := by
  have hlt : a.mag * b.mag < 2 ^ 70 * 2 ^ 70 := Nat.mul_lt_mul'' a.mag_lt b.mag_lt
  obtain ⟨hmag, hsigned⟩ := W144.mag_product a b
  rw [W144.toInt, hmag, hsigned.u0, ← Int.natCast_mul]
  generalize a.mag * b.mag = p at *
  cases a.hiSign != b.hiSign with
  | false =>
      rw [if_neg Bool.false_ne_true, if_neg Bool.false_ne_true, if_neg Bool.false_ne_true,
        Int.sub_zero]
  | true =>
      rw [if_pos rfl, if_pos rfl, if_pos rfl]
      split <;> omega

/-- Two negative factors, by their magnitude fields. -/
lemma product_negative_iff {x y : ℤ} : x * y = (x - 2 ^ 70) * (y - 2 ^ 70) ↔ x + y = 2 ^ 70 := by
  constructor
  · intro h
    linarith
  · intro h
    obtain rfl : y = 2 ^ 70 - x := by omega
    ring

/-- A factor without sign and a negative one. -/
lemma product_mixed_iff {x y : ℤ} (hx : x ≠ 0) : -(x * y) = x * (y - 2 ^ 70) ↔ y = 2 ^ 69 := by
  rw [← Int.mul_neg, Int.mul_eq_mul_left_iff hx]
  omega

/-- It is the product exactly for the factors above. -/
lemma toInt_product_eq_iff {a b : W72} (ha : a.num.toInt ≠ 0) (hb : b.num.toInt ≠ 0)
    (hmost : ¬ PairsMaxNeg a.num.toInt b.num.toInt) :
    (W144.product a b).toInt = a.num.toInt * b.num.toInt ↔
      DmulRight a.num.toInt b.num.toInt := by
  have hx := a.mag_lt
  have hy := b.mag_lt
  rw [toInt_product, DmulRight]
  rw [PairsMaxNeg] at hmost
  rw [a.toInt_num_mag] at ha hmost ⊢
  rw [b.toInt_num_mag] at hb hmost ⊢
  generalize a.mag = x at *
  generalize b.mag = y at *
  generalize a.hiSign = negA at *
  generalize b.hiSign = negB at *
  cases negA <;> cases negB <;>
    simp only [bne_self_eq_false, Bool.false_bne, Bool.bne_false, Bool.false_eq_true, if_true,
      if_false, Int.sub_zero] at ha hb hmost ⊢
  case false.false => exact iff_of_true trivial (.inl ⟨by omega, by omega⟩)
  case true.true =>
    rw [product_negative_iff]
    omega
  case false.true =>
    split
    case isTrue hzero =>
      rw [Nat.mul_eq_zero] at hzero
      obtain rfl : y = 0 := by omega
      omega
    case isFalse =>
      rw [product_mixed_iff ha]
      omega
  case true.false =>
    rw [Nat.mul_comm, Int.mul_comm, Int.mul_comm _ (y : ℤ)]
    split
    case isTrue hzero =>
      rw [Nat.mul_eq_zero] at hzero
      obtain rfl : x = 0 := by omega
      omega
    case isFalse =>
      rw [product_mixed_iff hb]
      omega

/-- The words that DMUL stores, where they are not those of the most negative double words. -/
def dmulWords (a b : W72) : W144 :=
  if a.num.toInt = 0 ∨ b.num.toInt = 0 then ⟨0, 0, 0, 0, false⟩ else .product a b

/-- A product of double words fits four words unless both are the most negative one. -/
lemma product_bounds {a b : W72} (hmost : ¬ PairsMaxNeg a.num.toInt b.num.toInt) :
    -2 ^ 140 ≤ a.num.toInt * b.num.toInt ∧ a.num.toInt * b.num.toInt < 2 ^ 140 := by
  have ha := a.bounds_num
  have hb := b.bounds_num
  rw [PairsMaxNeg] at hmost
  have hlt := natAbs_mul_lt (A := a.num.toInt) (B := b.num.toInt) (m := 2 ^ 70) (by omega)
    (by omega) (by omega)
  omega

/-- They are the words of the product exactly for the factors above. -/
lemma sameWords_dmulWords_iff {a b : W72} (hmost : ¬ PairsMaxNeg a.num.toInt b.num.toInt) :
    (dmulWords a b).SameWords (.ofInt (a.num.toInt * b.num.toInt)) ↔
      DmulRight a.num.toInt b.num.toInt := by
  by_cases hzero : a.num.toInt = 0 ∨ b.num.toInt = 0
  · have hproduct : a.num.toInt * b.num.toInt = 0 := Int.mul_eq_zero.mpr hzero
    rw [dmulWords, if_pos hzero, hproduct]
    refine iff_of_true ⟨rfl, rfl, rfl, rfl⟩ ?_
    rw [DmulRight]
    omega
  · obtain ⟨hle, hlt⟩ := product_bounds hmost
    obtain ⟨-, hsigned⟩ := W144.mag_product a b
    rw [dmulWords, if_neg hzero, hsigned.sameWords_iff (W144.signed_ofInt _),
      W144.toInt_ofInt hle hlt]
    rw [not_or] at hzero
    exact toInt_product_eq_iff hzero.1 hzero.2 hmost

/-- DMUL takes the words of memory and of the accumulators and stores four words. -/
lemma run_doDMUL {s : Cpu} (hac : s.iw.ac.toNat ≤ 12)
    (hmost : ¬ PairsMaxNeg s.acPair.num.toInt s.memPair.num.toInt) :
    ∃ running, (ops 0o116).run s =
      .ok (.iNormal, { s.setQuad (dmulWords s.acPair s.memPair) with running := running }) := by
  have hop : ops 0o116 = doDMUL := ops_of_mem (by simp [installs, installDWordGroup])
  obtain ⟨running, hmem⟩ := reads_memGetPairU.out s
  have hnot : ¬ (s.acPair.isMaxNeg ∧ s.memPair.isMaxNeg) := by
    rw [isMaxNeg_iff, isMaxNeg_iff]
    exact hmost
  have huser : userMode.run { s with running := running } =
    .ok (s.flags.usr, { s with running := running }) := rfl
  have hput (w : W144) := run_acPutQuad w (s := { s with running := running })
    (show s.iw.ac.toNat + 3 < 16 by omega)
  refine ⟨running, ?_⟩
  rw [hop, doDMUL, run_bind_of_ok (run_acGet2 (by omega)), run_bind_of_ok hmem,
    run_bind_of_ok huser, if_neg hnot, dmulWords]
  simp only [isZero_iff]
  split
  · exact run_bind_of_ok (hput ⟨0, 0, 0, 0, false⟩)
  · exact run_bind_of_ok (hput _)

/-- The most negative double words set OV and TR1 in exec mode only. -/
lemma run_doDMUL_overflow {s : Cpu} (hac : s.iw.ac.toNat ≤ 12)
    (hmost : PairsMaxNeg s.acPair.num.toInt s.memPair.num.toInt) :
    ∃ r t, (ops 0o116).run s = .ok (r, t) ∧
      t.flags = if s.flags.usr then s.flags else s.flags.overflow := by
  have hop : ops 0o116 = doDMUL := ops_of_mem (by simp [installs, installDWordGroup])
  obtain ⟨running, hmem⟩ := reads_memGetPairU.out s
  have hboth : s.acPair.isMaxNeg ∧ s.memPair.isMaxNeg := by
    rw [isMaxNeg_iff, isMaxNeg_iff]
    exact hmost
  have huser : userMode.run { s with running := running } =
    .ok (s.flags.usr, { s with running := running }) := rfl
  let f := if s.flags.usr then s.flags else s.flags.overflow
  have hflags : (if !s.flags.usr then modifyFlags .overflow else pure () : Exec Unit).run
      { s with running := running } = .ok ((), { s with running := running, flags := f }) := by
    cases husr : s.flags.usr with
    | false => simp only [f, husr]; rfl
    | true => simp only [f, husr]; rfl
  let big1 := W36.fromMag 0 true
  let most : W144 := ⟨big1, big1, big1, big1, false⟩
  have hput := run_acPutQuad most (s := { s with running := running, flags := f })
    (show s.iw.ac.toNat + 3 < 16 by omega)
  refine ⟨if s.flags.usr then .iTrap else .iNormal,
    Cpu.setQuad { s with running := running, flags := f } most, ?_, rfl⟩
  rw [hop, doDMUL, run_bind_of_ok (run_acGet2 (by omega)), run_bind_of_ok hmem,
    run_bind_of_ok huser, if_pos hboth, run_bind_of_ok hflags]
  exact run_bind_of_ok hput

/-! ### When the promise is kept -/

/-- For other than the most negative double words, DMUL keeps its promise exactly for the factors
above. -/
lemma multipliesPairs_iff {s : Cpu} (hac : s.iw.ac.toNat ≤ 12)
    (hmost : ¬ PairsMaxNeg s.acPair.num.toInt s.memPair.num.toInt) :
    MultipliesPairs s ↔ DmulRight s.acPair.num.toInt s.memPair.num.toInt := by
  obtain ⟨running, hrun⟩ := run_doDMUL hac hmost
  rw [← sameWords_dmulWords_iff hmost]
  constructor
  · intro h
    obtain ⟨running', hrun'⟩ := h.product hmost
    rw [hrun, Except.ok.injEq, Prod.mk.injEq] at hrun'
    exact (setQuad_inj hrun'.2).1
  · intro h
    refine ⟨fun _ => ⟨running, ?_⟩, fun h => absurd h hmost⟩
    rw [hrun, setQuad_congr h]

/-- **DMUL** keeps its promise exactly for the factors above.  For two double words that are the
most negative one it keeps it in exec mode, or if OV and TR1 are set already. -/
theorem dmul_iff (s : Cpu) (hac : s.iw.ac.toNat ≤ 12) :
    MultipliesPairs s ↔
      (PairsMaxNeg s.acPair.num.toInt s.memPair.num.toInt ∧
        (s.flags.usr = false ∨ (s.flags.ov ∧ s.flags.tr1))) ∨
      (¬ PairsMaxNeg s.acPair.num.toInt s.memPair.num.toInt ∧
        DmulRight s.acPair.num.toInt s.memPair.num.toInt) := by
  by_cases hmost : PairsMaxNeg s.acPair.num.toInt s.memPair.num.toInt
  · obtain ⟨r, t, hrun, hflags⟩ := run_doDMUL_overflow hac hmost
    have hiff : MultipliesPairs s ↔ t.flags = s.flags.overflow := by
      constructor
      · intro h
        obtain ⟨r', t', hrun', hflags'⟩ := h.overflow hmost
        rw [hrun, Except.ok.injEq, Prod.mk.injEq] at hrun'
        rw [hrun'.2]
        exact hflags'
      · exact fun h => ⟨fun hnot => absurd hmost hnot, fun _ => ⟨r, t, hrun, h⟩⟩
    rw [or_iff_left (fun h => h.1 hmost), and_iff_right hmost, hiff, hflags,
      ← overflow_eq_self_iff]
    cases s.flags.usr with
    | false => exact iff_of_true rfl (.inl rfl)
    | true => rw [if_pos rfl, or_iff_right Bool.true_eq_false.mp, eq_comm]
  · rw [or_iff_right (fun h => hmost h.1), and_iff_right hmost]
    exact multipliesPairs_iff hac hmost

theorem dmul_iff_largestPair : MultipliesPairs Cpu.largestPair := by
  have hac : Cpu.largestPair.acPair.num.toInt = 2 ^ 70 - 1 := by decide
  have hmem : Cpu.largestPair.memPair.num.toInt = 2 ^ 70 - 1 := by decide
  have h := dmul_iff Cpu.largestPair (by decide)
  rw [hac, hmem] at h
  refine h.mpr (.inr ⟨?_, .inl ⟨by decide, by decide⟩⟩)
  rintro ⟨h, -⟩
  exact absurd h (by decide)

/-- The double word -1 in accumulators 0 and 1, which are the memory operand too. -/
def Cpu.minusOnePair : Cpu := (Cpu.initial.setAC W36.all1s 0).setAC W36.all1s 1

/-- **Factors with sign**: -1 times -1 is the square of the largest magnitude field. -/
theorem dmul_minus_one :
    (∃ running, (ops 0o116).run Cpu.minusOnePair = .ok (.iNormal,
      { Cpu.minusOnePair.setQuad (.ofInt ((2 ^ 70 - 1) ^ 2)) with running := running })) ∧
      ¬ MultipliesPairs Cpu.minusOnePair := by
  have hac : Cpu.minusOnePair.acPair.num.toInt = -1 := by decide
  have hmem : Cpu.minusOnePair.memPair.num.toInt = -1 := by decide
  have hmost : ¬ PairsMaxNeg Cpu.minusOnePair.acPair.num.toInt
      Cpu.minusOnePair.memPair.num.toInt := by
    rw [hac, hmem]
    rintro ⟨h, -⟩
    exact absurd h (by decide)
  constructor
  · obtain ⟨running, hrun⟩ := run_doDMUL (s := Cpu.minusOnePair) (by decide) hmost
    have hwords : dmulWords Cpu.minusOnePair.acPair Cpu.minusOnePair.memPair =
        .ofInt ((2 ^ 70 - 1) ^ 2) := by decide
    rw [hwords] at hrun
    exact ⟨running, hrun⟩
  · rw [multipliesPairs_iff (by decide) hmost, hac, hmem, DmulRight]
    omega

/-! ### What a division promises -/

/-- A division of four words by a double word has no quotient, or none that fits. -/
def DdivNoDivide (D d : ℤ) : Prop := d = 0 ∨ d.natAbs * 2 ^ 70 ≤ D.natAbs

/-- A division of four words sets the flags of no-divide in the exceptional cases and stores
nothing.  Otherwise it leaves a quotient and a remainder in the four accumulators and changes no
flag. -/
structure DividesQuad (s : Cpu) : Prop where
  signals : DdivNoDivide s.acQuad.toInt s.memPair.num.toInt →
    ∃ running, (ops 0o117).run s =
      .ok (.iTrap, { s with flags := s.flags.noDivide, running := running })
  divides : ¬ DdivNoDivide s.acQuad.toInt s.memPair.num.toInt →
    ∃ (running : Bool) (q r : W72),
      IsQuotient s.acQuad.toInt s.memPair.num.toInt q.num.toInt r.num.toInt ∧
        (ops 0o117).run s =
          .ok (.iNormal, { s.setQuad ⟨q.hi, q.lo, r.hi, r.lo, false⟩ with running := running })

/-- The divisions that DDIV does right.  It signals no-divide right for dividends without sign, and
for others whose magnitude fields reach the 64 low bits of the divisor.  Else it divides only zero
right, if the bit that nothing sets happens to be clear. -/
def DdivRight (D d : ℤ) (indeterminate : Bool) : Prop :=
  (DdivNoDivide D d ∧ (0 ≤ D ∨ d % 2 ^ 64 ≤ D + 2 ^ 140)) ∨
    (D = 0 ∧ 0 < d ∧ d % 2 ^ 64 ≠ 0 ∧ indeterminate = false)

/-! ### The code of the division -/

/-- Two magnitude fields in a row. -/
lemma toNat_fields (h l : BitVec 35) :
    ((h.setWidth 128 <<< 35) ||| l.setWidth 128).toNat = h.toNat * 2 ^ 35 + l.toNat := by
  have hh := h.isLt
  have hl := l.isLt
  have hshift : (h.toNat * 2 ^ 35) % 2 ^ 128 = h.toNat <<< 35 := by
    rw [Nat.shiftLeft_eq]
    omega
  rw [BitVec.toNat_or, BitVec.toNat_shiftLeft, BitVec.toNat_setWidth_of_le (by decide),
    BitVec.toNat_setWidth_of_le (by decide), Nat.shiftLeft_eq, hshift,
    ← Nat.shiftLeft_add_eq_or_of_lt hl, Nat.shiftLeft_eq]

/-- The four magnitude fields by their halves. -/
lemma mag_halves (w : W144) : w.mag = w.upperU70.toNat * 2 ^ 70 + w.lowerU70.toNat ∧
    w.lowerU70.toNat < 2 ^ 70 := by
  have h2 := w.u2.mag.isLt
  have h3 := w.u3.mag.isLt
  rw [W144.upperU70, W144.lowerU70, toNat_fields, toNat_fields, W144.mag]
  omega

/-- `toMag` keeps 64 bits of a magnitude. -/
lemma toNat_toMag (d : W72) : (d.toMag.toNat : ℤ) = d.num.toInt % 2 ^ 64 := by
  have hhi := d.hi35.isLt
  have hlo := d.lo35.isLt
  have hshift : (d.hi35.toNat * 2 ^ 35) % 2 ^ 64 = (d.hi35.toNat % 2 ^ 29) <<< 35 := by
    rw [Nat.shiftLeft_eq]
    omega
  have hnat : d.toMag.toNat = d.mag % 2 ^ 64 := by
    rw [W72.toMag, BitVec.toNat_or, BitVec.toNat_setWidth_of_le (by decide),
      BitVec.toNat_setWidth_of_le (by decide), BitVec.toNat_shiftLeft,
      BitVec.toNat_setWidth_of_le (by decide), Nat.shiftLeft_eq, hshift, Nat.or_comm,
      ← Nat.shiftLeft_add_eq_or_of_lt hlo, Nat.shiftLeft_eq, W72.mag]
    omega
  rw [d.toInt_num_mag, hnat]
  split <;> omega

/-- The test for no-divide. -/
lemma not_ge_iff (w : W144) (m : BitVec 128) :
    w.ge m = false ↔ w.upperU70.toNat = 0 ∧ w.lowerU70.toNat < m.toNat := by
  rw [W144.ge, Bool.or_eq_false_iff, bne_eq_false_iff_eq, decide_eq_false_iff_not, BitVec.le_def,
    not_le, ← BitVec.toNat_inj]
  rfl

/-- What passes the test has the quotient zero.  The remainder is that of the high digits, which
are zero too. -/
lemma ddivMags_eq {w : W144} {m : BitVec 128} (hm : m.toNat < 2 ^ 64) (hge : w.ge m = false) :
    ddivMags w m = (0, 0) := by
  obtain ⟨hupper, hlower⟩ := (not_ge_iff w m).mp hge
  have hzero : w.upperU70 = 0 := BitVec.eq_of_toNat_eq hupper
  have hlow : w.lowerU70.toNat < 2 ^ 64 := hlower.trans hm
  have hshift : w.lowerU70 >>> 64 = 0 := by
    apply BitVec.eq_of_toNat_eq
    rw [BitVec.toNat_ushiftRight, Nat.shiftRight_eq_div_pow]
    exact Nat.div_eq_of_lt hlow
  have hdigit : (w.lowerU70.setWidth 64).setWidth 128 = w.lowerU70 := by
    apply BitVec.eq_of_toNat_eq
    rw [BitVec.toNat_setWidth, BitVec.toNat_setWidth]
    omega
  have hdiv : w.lowerU70 / m = 0 := by
    apply BitVec.eq_of_toNat_eq
    rw [BitVec.toNat_udiv]
    exact Nat.div_eq_of_lt hlower
  simp only [ddivMags, hzero, hshift]
  simp [hdigit, hdiv]

/-- The quotient of DDIV. -/
def ddivQuotient (den : W144) (div72 : W72) : W72 :=
  .fromMag (ddivMags den div72.toMag).1 (den.sign ^^ div72.hiSign)

/-- The remainder of DDIV. -/
def ddivRemainder (den : W144) (div72 : W72) : W72 :=
  .fromMag (ddivMags den div72.toMag).2 den.sign

/-- DDIV takes four accumulators and a double word of memory, and stores a quotient and a
remainder unless it signals no-divide. -/
lemma run_doDDIV {s : Cpu} (hac : s.iw.ac.toNat ≤ 12) :
    ∃ running, (ops 0o117).run s =
      let q := ddivQuotient s.acQuad s.memPair
      let r := ddivRemainder s.acQuad s.memPair
      if s.acQuad.ge s.memPair.toMag then
        .ok (.iTrap, { s with flags := s.flags.noDivide, running := running })
      else
        .ok (.iNormal, { s.setQuad ⟨q.hi, q.lo, r.hi, r.lo, false⟩ with running := running }) := by
  have hop : ops 0o117 = doDDIV := ops_of_mem (by simp [installs, installDWordGroup])
  have h1 := run_acGetPlus (s := s) (k := 1) (by omega)
  have h2 := run_acGetPlus (s := s) (k := 2) (by omega)
  have h3 := run_acGetPlus (s := s) (k := 3) (by omega)
  obtain ⟨running, hpair⟩ := reads_memGetPairU.out s
  have hden : W144.ofWords (s.acs (s.iw.ac + BitVec.ofNat 4 0)) (s.acs (s.iw.ac + BitVec.ofNat 4 1))
      (s.acs (s.iw.ac + BitVec.ofNat 4 2)) (s.acs (s.iw.ac + BitVec.ofNat 4 3)) s.indeterminate =
      s.acQuad := by
    rw [BitVec.add_zero]
    rfl
  have hput (w : W144) := run_acPutQuad w (s := { s with running := running })
    (show s.iw.ac.toNat + 3 < 16 by omega)
  refine ⟨running, ?_⟩
  rw [hop, doDDIV, run_bind_of_ok (run_acGetPlus s.iw.ac.isLt), run_bind_of_ok h1,
    run_bind_of_ok h2, run_bind_of_ok h3, run_bind_of_ok (run_gets Cpu.indeterminate s),
    run_bind_of_ok hpair, hden]
  dsimp only
  cases s.acQuad.ge s.memPair.toMag with
  | true => rfl
  | false => exact run_bind_of_ok (hput ⟨_, _, _, _, false⟩)

/-- The number of a double word of zero magnitude. -/
lemma toInt_num_fromMag_zero (b : Bool) :
    (W72.fromMag 0 b).num.toInt = if b then -2 ^ 70 else 0 := by
  cases b <;> decide

/-- What passes the test is divided right only if it is zero. -/
lemma isQuotient_ddiv_iff {w : W144} {d : W72} (hge : w.ge d.toMag = false)
    (hno : ¬ DdivNoDivide w.toInt d.num.toInt) :
    IsQuotient w.toInt d.num.toInt (ddivQuotient w d).num.toInt (ddivRemainder w d).num.toInt ↔
      w.toInt = 0 ∧ 0 < d.num.toInt ∧ w.sign = false := by
  obtain ⟨hupper, hlower⟩ := (not_ge_iff w d.toMag).mp hge
  have hm := toNat_toMag d
  have hmag := (mag_halves w).1
  have hd := d.mag_lt
  have hnum := d.toInt_num_mag
  rw [ddivQuotient, ddivRemainder, ddivMags_eq (by omega) hge, toInt_num_fromMag_zero,
    toInt_num_fromMag_zero, W144.toInt, hmag, hupper]
  rw [W144.toInt, hmag, hupper, DdivNoDivide] at hno
  generalize w.lowerU70.toNat = l at *
  generalize d.num.toInt = n at *
  generalize w.sign = b at *
  generalize d.hiSign = negative at *
  -- a dividend with sign is too large for every divisor but one, whose 64 low bits are zero
  cases hneg : w.u0.sign with
  | true =>
      rw [hneg, if_pos rfl] at hno
      exact absurd hlower (by split at hnum <;> omega)
  | false =>
      rw [if_neg Bool.false_ne_true, Int.sub_zero]
      constructor
      · intro h
        have heq := h.eq
        have hrem := h.neg
        cases b <;> cases negative <;>
          simp only [Bool.xor_false, Bool.xor_true, Bool.not_false, Bool.not_true, if_true,
            if_false, Bool.false_eq_true, and_true] at hnum heq hrem ⊢ <;> omega
      · rintro ⟨hzero, hpos, rfl⟩
        have hnegative : negative = false := by
          cases negative with
          | false => rfl
          | true =>
              rw [if_pos rfl] at hnum
              omega
        rw [hnegative, hzero]
        exact ⟨by simp, by simpa using hpos.ne', by simp, by simp⟩

/-- DDIV keeps its promise if its test is right, and its results where the test does not apply. -/
lemma dividesQuad_iff {s : Cpu} (hac : s.iw.ac.toNat ≤ 12) :
    DividesQuad s ↔
      (DdivNoDivide s.acQuad.toInt s.memPair.num.toInt ∧
        s.acQuad.ge s.memPair.toMag = true) ∨
      (¬ DdivNoDivide s.acQuad.toInt s.memPair.num.toInt ∧
        s.acQuad.ge s.memPair.toMag = false ∧
        IsQuotient s.acQuad.toInt s.memPair.num.toInt
          (ddivQuotient s.acQuad s.memPair).num.toInt
          (ddivRemainder s.acQuad s.memPair).num.toInt) := by
  obtain ⟨running, hrun⟩ := run_doDDIV hac
  dsimp only at hrun
  cases hge : s.acQuad.ge s.memPair.toMag with
  | true =>
      rw [hge, if_pos rfl] at hrun
      simp only [Bool.true_eq_false, false_and, and_false, or_false, and_true]
      constructor
      · intro h
        by_contra hno
        obtain ⟨running', q, r, -, hrun'⟩ := h.divides hno
        rw [hrun, Except.ok.injEq, Prod.mk.injEq] at hrun'
        exact IResult.noConfusion hrun'.1
      · exact fun hno => ⟨fun _ => ⟨running, hrun⟩, fun h => absurd hno h⟩
  | false =>
      rw [hge, if_neg Bool.false_ne_true] at hrun
      simp only [Bool.false_eq_true, and_false, false_or, true_and]
      constructor
      · intro h
        have hno : ¬ DdivNoDivide s.acQuad.toInt s.memPair.num.toInt := fun hno => by
          obtain ⟨running', hrun'⟩ := h.signals hno
          rw [hrun, Except.ok.injEq, Prod.mk.injEq] at hrun'
          exact IResult.noConfusion hrun'.1
        obtain ⟨running', q, r, hquotient, hrun'⟩ := h.divides hno
        rw [hrun, Except.ok.injEq, Prod.mk.injEq] at hrun'
        obtain ⟨hwords, -⟩ := setQuad_inj hrun'.2
        have hq : ddivQuotient s.acQuad s.memPair = q := congrArg₂ W72.mk hwords.u0 hwords.u1
        have hr : ddivRemainder s.acQuad s.memPair = r := congrArg₂ W72.mk hwords.u2 hwords.u3
        rw [hq, hr]
        exact ⟨hno, hquotient⟩
      · rintro ⟨hno, hquotient⟩
        exact ⟨fun h => absurd h hno, fun _ => ⟨running, _, _, hquotient, hrun⟩⟩

/-- The test by the numbers. -/
lemma ge_false_iff (w : W144) (d : W72) :
    w.ge d.toMag = false ↔
      w.toInt + (if w.toInt < 0 then 2 ^ 140 else 0) < d.num.toInt % 2 ^ 64 := by
  have hmag := mag_halves w
  have hlt := w.mag_lt
  have hm := toNat_toMag d
  rw [not_ge_iff, W144.toInt]
  split <;> split <;> omega

/-- **DDIV** keeps its promise exactly for the divisions above. -/
theorem ddiv_iff (s : Cpu) (hac : s.iw.ac.toNat ≤ 12) :
    DividesQuad s ↔ DdivRight s.acQuad.toInt s.memPair.num.toInt s.indeterminate := by
  rw [dividesQuad_iff hac, DdivRight]
  refine or_congr (and_congr_right fun hno => ?_) ?_
  · rw [DdivNoDivide] at hno
    rw [← Bool.not_eq_false, ge_false_iff]
    split <;> omega
  · constructor
    · rintro ⟨hno, hge, hquotient⟩
      obtain ⟨hzero, hpos, hsign⟩ := (isQuotient_ddiv_iff hge hno).mp hquotient
      rw [ge_false_iff, hzero] at hge
      exact ⟨hzero, hpos, by omega, hsign⟩
    · rintro ⟨hzero, hpos, hfield, hsign⟩
      have hno : ¬ DdivNoDivide s.acQuad.toInt s.memPair.num.toInt := by
        rw [DdivNoDivide, hzero]
        omega
      have hge : s.acQuad.ge s.memPair.toMag = false := by
        rw [ge_false_iff, hzero]
        omega
      exact ⟨hno, hge, (isQuotient_ddiv_iff hge hno).mpr ⟨hzero, hpos, hsign⟩⟩

/-- Nothing in the four accumulators, and a double word in the next two. -/
def Cpu.dividingQuad (dividend divisor : W36) : Cpu :=
  { (Cpu.initial.setAC dividend 3).setAC divisor 5 with ea := 4 }

theorem ddiv_iff_zero : DividesQuad (Cpu.dividingQuad 0 2) :=
  (ddiv_iff (Cpu.dividingQuad 0 2) (by decide)).mpr (.inr (by decide))

/-- **A quotient that fits**: 6 divided by 2 signals no-divide. -/
theorem ddiv_six :
    (Cpu.dividingQuad 6 2).acQuad.toInt = 6 ∧ (Cpu.dividingQuad 6 2).memPair.num.toInt = 2 ∧
      (∃ t, (ops 0o117).run (Cpu.dividingQuad 6 2) = .ok (.iTrap, t) ∧
        t.flags = ProgramFlags.none.noDivide) ∧
      ¬ DividesQuad (Cpu.dividingQuad 6 2) := by
  have hden : (Cpu.dividingQuad 6 2).acQuad.toInt = 6 := by decide
  have hdiv : (Cpu.dividingQuad 6 2).memPair.num.toInt = 2 := by decide
  have hge : (Cpu.dividingQuad 6 2).acQuad.ge (Cpu.dividingQuad 6 2).memPair.toMag = true := by
    decide
  refine ⟨hden, hdiv, ?_, fun h => ?_⟩
  · obtain ⟨running, hrun⟩ := run_doDDIV (s := Cpu.dividingQuad 6 2) (by decide)
    dsimp only at hrun
    rw [hge, if_pos rfl] at hrun
    exact ⟨_, hrun, rfl⟩
  · rw [dividesQuad_iff (by decide), hge, hden, hdiv, DdivNoDivide] at h
    rcases h with h | h
    · omega
    · exact absurd h.2.1 (by decide)

end KM10
