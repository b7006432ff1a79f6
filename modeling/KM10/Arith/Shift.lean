import KM10.Arith.DoubleWord
import KM10.Library.Shifts

/-!
The arithmetic shift of a word.

`doASH` shifts to the right for a positive count and to the left for a negative one, against LSH and
ASHC, and takes the count modulo 36.

* `ashResult`, `ashFlags`, `ShiftsWord`: what ASH promises;
* `run_doASH`, `shiftsWord_iff_agrees`: what the code does, and what it takes;
* `Repeats`: the words that a shift in either direction makes the same of;
* `ash_iff`: when ASH keeps the promise;
* `ash_one`: a word for which it does not.
-/

namespace KM10

open StateExcept Shifts

/-! ### What a shift promises -/

/-- The word that an arithmetic shift leaves: to the left the sign of the word and the low magnitude
bits of a multiple, and to the right a quotient, rounded down. -/
def ashResult (a : W36) (n : ℤ) : W36 :=
  if 0 ≤ n then (W36.ofInt (a.ext64 * 2 ^ n.natAbs)).setSign a.sign
  else W36.ofInt (a.ext64 / 2 ^ n.natAbs)

/-- The flags after an arithmetic shift, which overflows if a multiple is no word. -/
def ashFlags (a : W36) (n : ℤ) (f : ProgramFlags) : ProgramFlags :=
  if 0 ≤ n ∧ overflows (a.ext64 * 2 ^ n.natAbs) then f.overflow else f

/-- ASH leaves the shifted word in the accumulator, sets these flags and changes nothing else. -/
def ShiftsWord (s : Cpu) : Prop :=
  (ops 0o240).run s = .ok (.iNormal,
    { s.setAC (ashResult s.acOperand s.ea.rhs) s.iw.ac with
        flags := ashFlags s.acOperand s.ea.rhs s.flags })

/-! ### The code -/

/-- The condition on which the code sets the flags. -/
def ashOverflows (a : W36) (n : ℤ) : Prop :=
  (0 < (ashWord a n).1.ext64 ∧ (ashWord a n).2 ≠ 0) ∨
    ((ashWord a n).1.ext64 < 0 ∧ (ashWord a n).2 = 0)

instance (a : W36) (n : ℤ) : Decidable (ashOverflows a n) :=
  inferInstanceAs (Decidable ((0 < (ashWord a n).1.ext64 ∧ (ashWord a n).2 ≠ 0) ∨
    ((ashWord a n).1.ext64 < 0 ∧ (ashWord a n).2 = 0)))

/-- A store into the flags on a condition. -/
lemma run_overflowIf (p : Prop) [Decidable p] (s : Cpu) :
    (if p then modifyFlags .overflow else pure () : Exec Unit).run s =
      .ok ((), { s with flags := if p then s.flags.overflow else s.flags }) := by
  split <;> rfl

lemma run_doASH (s : Cpu) :
    let n := s.ea.rhs.tmod 36
    (ops 0o240).run s = .ok (.iNormal,
      { s.setAC ((ashWord s.acOperand n).1.setSign s.acOperand.sign) s.iw.ac with
          flags := if ashOverflows s.acOperand n then s.flags.overflow else s.flags }) := by
  have hop : ops 0o240 = doASH := ops_of_mem (by simp [installs, installIntBinGroup])
  have hcount : (shiftCount 36).run s = .ok (s.ea.rhs.tmod 36, s) := rfl
  have hflags := run_overflowIf (ashOverflows s.acOperand (s.ea.rhs.tmod 36)) s
  dsimp only
  rw [hop, doASH, run_bind_of_ok hcount, run_bind_of_ok (run_acGet s)]
  exact (run_bind_of_ok hflags).trans (run_bind_of_ok (run_acPut _ _))

lemma sign_ashResult (a : W36) (n : ℤ) : (ashResult a n).sign = a.sign := by
  rw [ashResult]
  split
  · exact sign_setSign _ _
  · obtain ⟨hle, hlt⟩ := ext64_bounds a
    obtain ⟨hle', hlt', hneg⟩ := ediv_pow_bounds hle hlt n.natAbs
    rw [sign_eq, sign_eq, ext64_ofInt, decide_eq_decide]
    · exact hneg
    · rw [overflows, decide_eq_false_iff_not]
      omega

lemma mag_ashResult (a : W36) (n : ℤ) :
    ((ashResult a n).mag.toNat : ℤ) =
      (if 0 ≤ n then a.ext64 * 2 ^ n.natAbs else a.ext64 / 2 ^ n.natAbs) % 2 ^ 35 := by
  rw [ashResult]
  split
  · rw [W72.mag_setSign, mag_ofInt]
  · rw [mag_ofInt]

/-- Two stores to the accumulators with flags. -/
lemma setAC_with_flags_inj {s : Cpu} {v w : W36} {n : BitVec 4} {f g : ProgramFlags} :
    ({ s.setAC v n with flags := f } : Cpu) = { s.setAC w n with flags := g } ↔ v = w ∧ f = g := by
  constructor
  · exact setAC_inj
  · rintro ⟨rfl, rfl⟩
    rfl

/-- Overflow on two conditions. -/
lemma overflowIf_eq_iff {p q : Prop} [Decidable p] [Decidable q] (f : ProgramFlags) :
    (if p then f.overflow else f) = (if q then f.overflow else f) ↔
      (p ↔ q) ∨ (f.ov ∧ f.tr1) := by
  have hself := overflow_eq_self_iff f
  by_cases hp : p <;> by_cases hq : q <;> simp only [hp, hq, if_true, if_false]
  · exact iff_of_true trivial (.inl trivial)
  · rw [hself, iff_false, not_true_eq_false, false_or]
  · rw [eq_comm, hself, false_iff, not_true_eq_false, false_or]
  · exact iff_of_true trivial (.inl trivial)

/-- The magnitude field is right, and so are the flags unless they are set already. -/
def AshAgrees (a : W36) (n : ℤ) (flagged : Prop) : Prop :=
  (ashWord a (n.tmod 36)).1.mag = (ashResult a n).mag ∧
    ((ashOverflows a (n.tmod 36) ↔ 0 ≤ n ∧ overflows (a.ext64 * 2 ^ n.natAbs)) ∨ flagged)

/-- The code restores the sign, so that this is all there is to the promise. -/
lemma shiftsWord_iff_agrees (s : Cpu) :
    ShiftsWord s ↔ AshAgrees s.acOperand s.ea.rhs (s.flags.ov ∧ s.flags.tr1) := by
  have hword (w : W36) : w.setSign s.acOperand.sign = ashResult s.acOperand s.ea.rhs ↔
      w.mag = (ashResult s.acOperand s.ea.rhs).mag := by
    constructor
    · intro h
      rw [← h, W72.mag_setSign]
    · intro h
      refine ext_mag ((sign_setSign _ _).trans (sign_ashResult _ _).symm) ?_
      rw [W72.mag_setSign, h]
  rw [ShiftsWord, run_doASH, Except.ok.injEq, Prod.mk.injEq, and_iff_right rfl,
    setAC_with_flags_inj, hword, ashFlags, overflowIf_eq_iff, AshAgrees]

/-! ### Shifts as multiples and quotients -/

lemma word_sshiftRight (a : W36) (n : ℕ) : a.sshiftRight n = W36.ofInt (a.ext64 / 2 ^ n) :=
  sshiftRight_eq_ofInt a n

lemma word_shiftLeft (a : W36) (n : ℕ) : a <<< n = W36.ofInt (a.ext64 * 2 ^ n) :=
  shiftLeft_eq_ofInt a n

lemma overflows_iff (n : ℤ) : overflows n = true ↔ n < -2 ^ 35 ∨ 2 ^ 35 ≤ n := decide_eq_true_iff

/-- A word that a shift to the right and a shift to the left make the same of, but for its sign:
the `n` bits beyond the `n` low ones are zeros, and each of the others is the bit `2n` places to
the right of it. -/
def Repeats (a : W36) (n : ℕ) : Prop :=
  ∀ k < 35, (if k + n < 36 then a.getLsbD (k + n) else a.sign) =
    (decide (n ≤ k) && a.getLsbD (k - n))

instance (a : W36) (n : ℕ) : Decidable (Repeats a n) :=
  inferInstanceAs (Decidable (∀ k < 35, (if k + n < 36 then a.getLsbD (k + n) else a.sign) =
    (decide (n ≤ k) && a.getLsbD (k - n))))

lemma repeats_iff (a : W36) (n : ℕ) :
    Repeats a n ↔ a.ext64 / 2 ^ n % 2 ^ 35 = a.ext64 * 2 ^ n % 2 ^ 35 := by
  have hbits : Repeats a n ↔ W36.mag (a.sshiftRight n) = W36.mag (a <<< n) := by
    have hright (k : ℕ) (hk : k < 35) : (W36.mag (a.sshiftRight n)).getLsbD k =
        if k + n < 36 then a.getLsbD (k + n) else a.sign := by
      rw [W36.mag, BitVec.getLsbD_extractLsb', BitVec.getLsbD_sshiftRight, msb_eq_sign,
        Nat.zero_add, Nat.add_comm n k]
      simp only [hk, decide_true, Bool.true_and, show ¬ 36 ≤ k by omega, decide_false,
        Bool.not_false]
    have hleft (k : ℕ) (hk : k < 35) : (W36.mag (a <<< n)).getLsbD k =
        (decide (n ≤ k) && a.getLsbD (k - n)) := by
      rw [W36.mag, BitVec.getLsbD_extractLsb', BitVec.getLsbD_shiftLeft, Nat.zero_add]
      simp only [hk, decide_true, Bool.true_and, show k < 36 by omega, ← decide_not, not_lt]
    constructor
    · intro h
      refine BitVec.eq_of_getLsbD_eq fun k hk => ?_
      rw [hright k hk, hleft k hk]
      exact h k hk
    · intro h k hk
      rw [← hright k hk, ← hleft k hk, h]
  rw [hbits, word_sshiftRight, word_shiftLeft, ← BitVec.toNat_inj, ← Int.natCast_inj, mag_ofInt,
    mag_ofInt]

/-! ### The bits that are lost -/

/-- A shift to the right loses what is left of a division. -/
lemma lost_right_iff (a : W36) {n : ℕ} (hn : n ≤ 35) :
    a &&& W36.ofNat (2 ^ n - 1) = 0 ↔ a.ext64 % 2 ^ n = 0 := by
  have hlost := toNat_and_lowBits a (show n ≤ 36 by omega)
  rw [W36.ext64, ← hlost, Int.natCast_eq_zero, ← BitVec.toNat_inj]
  rfl

/-- What the mask of a shift to the left keeps is what the shift keeps. -/
lemma lost_left_iff (a : W36) (k : ℕ) : a &&& (W36.all1s >>> k) = 0 ↔ a <<< k = 0 := by
  have hmask (j : ℕ) : (a &&& (W36.all1s >>> k)).getLsbD j =
      (a.getLsbD j && decide (k + j < 36)) := by
    rw [BitVec.getLsbD_and, BitVec.getLsbD_ushiftRight, W36.all1s, BitVec.getLsbD_allOnes]
  have hzero (j : ℕ) : (0 : W36).getLsbD j = false := BitVec.getLsbD_zero
  constructor
  · intro h
    refine BitVec.eq_of_getLsbD_eq fun i hi => ?_
    have hbit := hmask (i - k)
    rw [h, hzero] at hbit
    rw [BitVec.getLsbD_shiftLeft, hzero]
    by_cases hik : i < k
    · simp only [hik, decide_true, Bool.not_true, Bool.and_false, Bool.false_and]
    · rw [decide_eq_true (show k + (i - k) < 36 by omega), Bool.and_true] at hbit
      rw [← hbit, Bool.and_false]
  · intro h
    refine BitVec.eq_of_getLsbD_eq fun j _ => ?_
    have hbit : (a <<< k).getLsbD (k + j) = _ := BitVec.getLsbD_shiftLeft a k
    rw [h, hzero, Nat.add_sub_cancel_left] at hbit
    rw [decide_eq_false (show ¬ k + j < k by omega), Bool.not_false, Bool.and_true] at hbit
    rw [hmask, hzero, hbit, Bool.and_comm]

/-! ### The cases -/

section Cases

variable (a : W36)

/-- The magnitude fields by their numbers. -/
lemma mag_eq_iff {w : W36} {x n : ℤ} (hw : w = W36.ofInt x) :
    w.mag = (ashResult a n).mag ↔
      x % 2 ^ 35 = (if 0 ≤ n then a.ext64 * 2 ^ n.natAbs else a.ext64 / 2 ^ n.natAbs) % 2 ^ 35 := by
  rw [hw, ← BitVec.toNat_inj, ← Int.natCast_inj, mag_ofInt, mag_ashResult]

/-- A positive count shifts to the right. -/
lemma ashWord_pos {m : ℕ} (hm : 0 < m) :
    ashWord a m = (W36.ofInt (a.ext64 / 2 ^ m), a &&& W36.ofNat (2 ^ m - 1)) := by
  rw [ashWord, if_pos (by omega), Int.natAbs_natCast, word_sshiftRight]

/-- A negative one shifts to the left. -/
lemma ashWord_neg {m : ℕ} (hm : 0 < m) :
    ashWord a (-m) = (a <<< m, a &&& (W36.all1s >>> m)) := by
  rw [ashWord, if_neg (by omega), if_pos (by omega), Int.natAbs_neg, Int.natAbs_natCast]

lemma ashOverflows_pos {m : ℕ} (hm : 0 < m) (hlt : m < 36) :
    ashOverflows a m ↔ (0 < a.ext64 / 2 ^ m ∧ a.ext64 % 2 ^ m ≠ 0) ∨
      (a.ext64 < 0 ∧ a.ext64 % 2 ^ m = 0) := by
  obtain ⟨hle, hlt'⟩ := ext64_bounds a
  obtain ⟨hqle, hqlt, hneg⟩ := ediv_pow_bounds hle hlt' m
  have hext : W36.ext64 (W36.ofInt (a.ext64 / 2 ^ m)) = a.ext64 / 2 ^ m := by
    refine ext64_ofInt ?_
    rw [overflows, decide_eq_false_iff_not]
    omega
  rw [ashOverflows, ashWord_pos a hm, Ne, lost_right_iff a (by omega), hext, hneg]

/-- The sign that a shift to the left leaves. -/
lemma sign_shiftLeft {m : ℕ} (hlt : m < 36) : W36.sign (a <<< m) = a.getLsbD (35 - m) := by
  rw [W36.sign, BitVec.getLsbD_shiftLeft, decide_eq_false (show ¬ 35 < m by omega)]
  rfl

lemma ashOverflows_neg {m : ℕ} (hm : 0 < m) (hlt : m < 36) :
    ashOverflows a (-m) ↔ a.getLsbD (35 - m) = false ∧ a <<< m ≠ 0 := by
  rw [ashOverflows, ashWord_neg a hm, Ne, Ne, lost_left_iff, ← sign_shiftLeft a hlt, sign_eq,
    ← ext64_eq_zero_iff, decide_eq_false_iff_not]
  dsimp only
  omega

/-- Where it leaves no sign, it leaves nothing if it leaves no magnitude. -/
lemma shiftLeft_eq_zero_iff {m : ℕ} (hlt : m < 36) (hbit : a.getLsbD (35 - m) = false) :
    a <<< m = 0 ↔ a.ext64 * 2 ^ m % 2 ^ 35 = 0 := by
  have hmag : a.ext64 * 2 ^ m % 2 ^ 35 = ((W36.mag (a <<< m)).toNat : ℤ) := by
    rw [word_shiftLeft, mag_ofInt]
  rw [hmag, Int.natCast_eq_zero]
  constructor
  · intro h
    rw [h]
    rfl
  · intro h
    exact ext_mag ((sign_shiftLeft a hlt).trans hbit) h

lemma ashWord_zero : (ashWord a 0).1 = W36.ofInt a.ext64 := BitVec.ofInt_toInt.symm

lemma ashOverflows_zero : ashOverflows a 0 ↔ a.ext64 < 0 := by
  simp [ashOverflows, ashWord]

variable {a} {flagged : Prop}

/-- Without a count, the code takes a negative word for an overflow. -/
lemma agrees_zero : AshAgrees a 0 flagged ↔ 0 ≤ a.ext64 ∨ flagged := by
  obtain ⟨hle, hlt⟩ := ext64_bounds a
  have hexact : overflows (a.ext64 * 2 ^ (0 : ℤ).natAbs) = false := by
    rw [Int.natAbs_zero, pow_zero, Int.mul_one, overflows, decide_eq_false_iff_not]
    omega
  rw [AshAgrees, Int.zero_tmod, mag_eq_iff a (ashWord_zero a), ashOverflows_zero, hexact]
  simp [not_lt]

/-- A count to the left shifts to the right. -/
lemma agrees_left {m : ℕ} (hm : 0 < m) (hlt : m < 36) :
    AshAgrees a m flagged ↔
      Repeats a m ∧ (a.ext64 = 0 ∨ 2 ^ m ≤ a.ext64 ∨ flagged) := by
  obtain ⟨hle, hlt'⟩ := ext64_bounds a
  have hcount : (m : ℤ).tmod 36 = m := tmod_eq_self (show (m : ℤ).natAbs < 36 by omega)
  have hword : (ashWord a m).1 = W36.ofInt (a.ext64 / 2 ^ m) := by rw [ashWord_pos a hm]
  rw [AshAgrees, hcount, mag_eq_iff a hword, if_pos (by omega), Int.natAbs_natCast,
    ashOverflows_pos a hm hlt, repeats_iff]
  refine and_congr_right fun hrep => ?_
  rw [and_iff_right (show (0 : ℤ) ≤ m by omega)]
  by_cases hzero : a.ext64 = 0
  · rw [hzero, Int.zero_ediv, Int.zero_mul]
    refine iff_of_true (.inl (iff_of_false ?_ (by decide))) (.inl rfl)
    omega
  · have hlost : a.ext64 % 2 ^ m ≠ 0 := fun h => hzero (eq_zero_of_repeats hle hlt' hm hrep h)
    have hquot : 0 < a.ext64 / 2 ^ m ↔ 2 ^ m ≤ a.ext64 := by
      rw [← Int.add_one_le_iff, Int.le_ediv_iff_mul_le (by positivity), Int.zero_add, Int.one_mul]
    rw [overflows_iff, hquot, iff_true_intro (not_fits_of_repeats hm hrep hzero)]
    simp only [hlost, hzero, ne_eq, not_false_eq_true, and_true, and_false, or_false, iff_true,
      false_or]

/-- A count to the right shifts to the left. -/
lemma agrees_right {m : ℕ} (hm : 0 < m) (hlt : m < 36) :
    AshAgrees a (-m) flagged ↔
      Repeats a m ∧ (a.getLsbD (35 - m) = true ∨ (0 ≤ a.ext64 ∧ a.ext64 < 2 ^ m) ∨ flagged) := by
  have hcount : (-m : ℤ).tmod 36 = -m :=
    tmod_eq_self (show (-m : ℤ).natAbs < 36 by omega)
  have hword : (ashWord a (-m)).1 = W36.ofInt (a.ext64 * 2 ^ m) := by
    rw [ashWord_neg a hm, word_shiftLeft]
  rw [AshAgrees, hcount, mag_eq_iff a hword, if_neg (by omega), Int.natAbs_neg,
    Int.natAbs_natCast, ashOverflows_neg a hm hlt, repeats_iff,
    eq_comm (a := a.ext64 * 2 ^ m % 2 ^ 35)]
  refine and_congr_right fun hrep => ?_
  obtain ⟨hle, hlt'⟩ := ext64_bounds a
  have htwo := two_le_pow hm
  have hquot : a.ext64 * 2 ^ m % 2 ^ 35 = 0 ↔ 0 ≤ a.ext64 ∧ a.ext64 < 2 ^ m := by
    rw [← hrep, quotient_field_eq_zero_iff (by decide) hle hlt' hm]
  have hno : ¬ (0 ≤ (-m : ℤ) ∧ overflows (a.ext64 * 2 ^ m) = true) := fun h => by omega
  simp only [hno, iff_false]
  cases hbit : a.getLsbD (35 - m) with
  | true => exact iff_of_true (.inl fun h => Bool.noConfusion h.1) (.inl rfl)
  | false =>
      rw [Ne, shiftLeft_eq_zero_iff a hlt hbit, hquot, and_iff_right rfl, not_not,
        or_iff_right Bool.false_ne_true]

/-- The count that the code takes. -/
lemma natCast_tmod_36 (n : ℕ) : (n : ℤ).tmod 36 = (n % 36 : ℕ) := (Int.ofNat_tmod n 36).symm

/-- A count to the left beyond the word. -/
lemma agrees_far_left {n : ℕ} (hn : 36 ≤ n) :
    AshAgrees a n flagged ↔
      if n % 36 = 0 then a.ext64 = 0 ∨ a.ext64 = -2 ^ 35
      else a.ext64 = 0 ∨ (0 < a.ext64 ∧ a.ext64 < 2 ^ (n % 36) ∧ flagged) := by
  obtain ⟨hle, hlt⟩ := ext64_bounds a
  obtain ⟨hfield, hover⟩ := multiple_far a.ext64 hn
  have hnonneg : (0 : ℤ) ≤ n := by omega
  rw [AshAgrees, natCast_tmod_36, Int.natAbs_natCast, overflows_iff, hover]
  split
  case isTrue hm =>
    rw [hm, Nat.cast_zero, mag_eq_iff a (ashWord_zero a), if_pos hnonneg, Int.natAbs_natCast,
      hfield, ashOverflows_zero]
    constructor
    · rintro ⟨h, -⟩
      omega
    · exact fun h => ⟨by omega, .inl (by omega)⟩
  case isFalse hm =>
    have hpos := Nat.pos_of_ne_zero hm
    have hlt36 := Nat.mod_lt n (show 0 < 36 by decide)
    generalize n % 36 = m at *
    have hword : (ashWord a m).1 = W36.ofInt (a.ext64 / 2 ^ m) := by rw [ashWord_pos a hpos]
    have htwo := two_le_pow hpos
    have hquot := ediv_pow_eq_zero_iff a.ext64 m
    rw [mag_eq_iff a hword, if_pos hnonneg, Int.natAbs_natCast, hfield,
      ashOverflows_pos a hpos hlt36, quotient_field_eq_zero_iff (by decide) hle hlt hpos]
    by_cases hzero : a.ext64 = 0
    · refine iff_of_true ⟨by omega, .inl ?_⟩ (.inl hzero)
      omega
    · constructor
      · rintro ⟨h, hflags | hflagged⟩
        · have hsome := hflags.mpr ⟨hnonneg, hzero⟩
          omega
        · exact .inr ⟨by omega, h.2, hflagged⟩
      · rintro (h | ⟨hneg, hlt', hflagged⟩)
        · exact absurd h hzero
        · exact ⟨⟨hneg.le, hlt'⟩, .inr hflagged⟩

/-- A count to the right beyond the word. -/
lemma agrees_far_right {n : ℕ} (hn : 36 ≤ n) :
    AshAgrees a (-n) flagged ↔
      if n % 36 = 0 then a.ext64 = 0 ∨ (a.ext64 = -1 ∧ flagged)
      else 0 ≤ a.ext64 ∧ 2 ^ (35 - n % 36) ∣ a.ext64 := by
  obtain ⟨hle, hlt⟩ := ext64_bounds a
  have hquot := quotient_far hle hlt (show 35 ≤ n by omega)
  have hneg : ¬ (0 : ℤ) ≤ -n := by omega
  rw [AshAgrees, Int.neg_tmod, natCast_tmod_36, Int.natAbs_neg, Int.natAbs_natCast]
  simp only [hneg, false_and, iff_false]
  split
  case isTrue hm =>
    rw [hm, Nat.cast_zero, Int.neg_zero, mag_eq_iff a (ashWord_zero a), if_neg hneg, Int.natAbs_neg,
      Int.natAbs_natCast, hquot, ashOverflows_zero]
    constructor
    · rintro ⟨h, hflags⟩
      split at h
      · exact .inr ⟨by omega, hflags.resolve_left (not_not.mpr ‹_›)⟩
      · exact .inl (by omega)
    · rintro (h | ⟨h, hflagged⟩)
      · rw [h]
        exact ⟨rfl, .inl (by omega)⟩
      · rw [h]
        exact ⟨rfl, .inr hflagged⟩
  case isFalse hm =>
    have hpos := Nat.pos_of_ne_zero hm
    have hlt36 := Nat.mod_lt n (show 0 < 36 by decide)
    generalize n % 36 = m at *
    have hword : (ashWord a (-m)).1 = W36.ofInt (a.ext64 * 2 ^ m) := by
      rw [ashWord_neg a hpos, word_shiftLeft]
    rw [mag_eq_iff a hword, if_neg hneg, Int.natAbs_neg, Int.natAbs_natCast, hquot,
      ashOverflows_neg a hpos hlt36]
    by_cases hsign : a.ext64 < 0
    · rw [if_pos hsign]
      refine iff_of_false ?_ (fun h => absurd h.1 (by omega))
      rintro ⟨h, -⟩
      -- a multiple is even, and -1 is not
      obtain ⟨k, rfl⟩ := Nat.exists_eq_succ_of_ne_zero hm
      rw [pow_succ, ← Int.mul_assoc] at h
      omega
    · rw [if_neg hsign, Int.zero_emod, and_iff_right (not_lt.mp hsign),
        multiple_field_eq_zero_iff 35 a.ext64 m]
      refine and_iff_left_of_imp fun h => .inl ?_
      rintro ⟨hbit, hne⟩
      refine hne ((shiftLeft_eq_zero_iff a hlt36 hbit).mpr ?_)
      exact (multiple_field_eq_zero_iff 35 a.ext64 m).mpr h

end Cases

/-! ### When the promise is kept -/

/-- The shifts that the code does right, where `flagged` says that OV and TR1 are set already.
Without a count, it is right but for the flags of negative words.  Within the word it needs a word
that repeats, and beyond the word one that is shifted out in the wrong direction too. -/
def AshRight (a : W36) (n : ℤ) (flagged : Prop) : Prop :=
  let m := n.natAbs % 36
  if n = 0 then 0 ≤ a.ext64 ∨ flagged
  else if n.natAbs < 36 then
    Repeats a m ∧
      if 0 < n then a.ext64 = 0 ∨ 2 ^ m ≤ a.ext64 ∨ flagged
      else a.getLsbD (35 - m) = true ∨ (0 ≤ a.ext64 ∧ a.ext64 < 2 ^ m) ∨ flagged
  else if 0 < n then
    if m = 0 then a.ext64 = 0 ∨ a.ext64 = -2 ^ 35
    else a.ext64 = 0 ∨ (0 < a.ext64 ∧ a.ext64 < 2 ^ m ∧ flagged)
  else
    if m = 0 then a.ext64 = 0 ∨ (a.ext64 = -1 ∧ flagged)
    else 0 ≤ a.ext64 ∧ 2 ^ (35 - m) ∣ a.ext64

lemma agrees_iff (a : W36) (n : ℤ) (flagged : Prop) :
    AshAgrees a n flagged ↔ AshRight a n flagged := by
  obtain ⟨m, rfl | rfl⟩ := n.eq_nat_or_neg
  · rw [AshRight, Int.natAbs_natCast]
    rcases Nat.eq_zero_or_pos m with rfl | hpos
    · exact agrees_zero
    · rw [if_neg (show ¬ (m : ℤ) = 0 by omega), if_pos (show (0 : ℤ) < m by omega),
        if_pos (show (0 : ℤ) < m by omega)]
      split
      case isTrue hlt =>
        rw [Nat.mod_eq_of_lt hlt]
        exact agrees_left hpos hlt
      case isFalse hle => exact agrees_far_left (not_lt.mp hle)
  · rw [AshRight, Int.natAbs_neg, Int.natAbs_natCast]
    rcases Nat.eq_zero_or_pos m with rfl | hpos
    · exact agrees_zero
    · rw [if_neg (show ¬ (-m : ℤ) = 0 by omega), if_neg (show ¬ (0 : ℤ) < -m by omega),
        if_neg (show ¬ (0 : ℤ) < -m by omega)]
      split
      case isTrue hlt =>
        rw [Nat.mod_eq_of_lt hlt]
        exact agrees_right hpos hlt
      case isFalse hle => exact agrees_far_right (not_lt.mp hle)

/-- **ASH** keeps its promise exactly for the shifts above. -/
theorem ash_iff (s : Cpu) :
    ShiftsWord s ↔ AshRight s.acOperand s.ea.rhs (s.flags.ov ∧ s.flags.tr1) := by
  rw [shiftsWord_iff_agrees, agrees_iff]

/-- The word 1 in accumulator 0, to be shifted to the left by one. -/
def Cpu.shiftingOne : Cpu := { Cpu.initial.setAC 1 0 with ea := 1 }

/-- **The wrong direction**: ASH of 1 by 1 leaves zero. -/
theorem ash_one :
    (ops 0o240).run Cpu.shiftingOne = .ok (.iNormal, { Cpu.shiftingOne.setAC 0 0 with
      flags := ProgramFlags.none }) ∧
      ashResult 1 1 = 2 ∧ ¬ ShiftsWord Cpu.shiftingOne := by
  refine ⟨run_doASH Cpu.shiftingOne, by decide, ?_⟩
  rw [shiftsWord_iff_agrees]
  rintro ⟨h, -⟩
  exact absurd h (by decide)

end KM10
