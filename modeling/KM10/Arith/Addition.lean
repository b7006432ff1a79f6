import KM10.Effects.Pass
import KM10.Library.Carry

/-!
Addition and subtraction of words.

`addWord` and `subWord` compare the 64-bit result as an unsigned number with the largest word, so
that every negative result passes for one that is too large.

* `ProgramFlags.sum`: the flags that an addition sets;
* `Adds`, `Subtracts`: what ADD and SUB promise;
* `run_addWord`, `run_subWord`, `run_setSUBFlags`: what the code does;
* `adds_iff`, `subtracts_iff`: when the code keeps the promises;
* `adds_minus_one`, `subtracts_equal`: operands for which it does not.
-/

namespace KM10

open StateExcept Carry

/-! ### What an addition promises -/

/-- A number that is not one of 36 bits with sign. -/
def overflows (n : ℤ) : Bool := n < -2 ^ 35 ∨ 2 ^ 35 ≤ n

/-- The flags that an addition sets, for the carries out of bits 0 and 1 and overflow: none of
them is cleared. -/
def ProgramFlags.sum (f : ProgramFlags) (cy0 cy1 overflow : Bool) : ProgramFlags :=
  { f with cy0 := f.cy0 || cy0, cy1 := f.cy1 || cy1,
           ov := f.ov || overflow, tr1 := f.tr1 || overflow }

/-- The flags of the addition of two words. -/
def ProgramFlags.added (f : ProgramFlags) (s1 s2 : W36) : ProgramFlags :=
  f.sum (BitVec.carry 36 s1 s2 false) (BitVec.carry 35 s1 s2 false)
    (overflows (s1.ext64 + s2.ext64))

/-- The flags of the subtraction of two words, which adds the complement and one. -/
def ProgramFlags.subtracted (f : ProgramFlags) (s1 s2 : W36) : ProgramFlags :=
  f.sum (BitVec.carry 36 s1 (~~~ s2) true) (BitVec.carry 35 s1 (~~~ s2) true)
    (overflows (s1.ext64 - s2.ext64))

/-- An addition returns the sum and sets the flags of its carries. -/
def Adds (s1 s2 : W36) (s : Cpu) : Prop :=
  (addWord s1 s2).run s = .ok (s1 + s2, { s with flags := s.flags.added s1 s2 })

/-- A subtraction returns the difference and sets the flags of its carries, the ones that
`setSUBFlags` sets. -/
structure Subtracts (s1 s2 : W36) (s : Cpu) : Prop where
  difference : (subWord s1 s2).run s =
    .ok (s1 - s2, { s with flags := s.flags.subtracted s1 s2 })
  agrees : ∃ r, (setSUBFlags s1 s2 (s1 - s2)).run s =
    .ok (r, { s with flags := s.flags.subtracted s1 s2 })

namespace ProgramFlags

variable (f : ProgramFlags)

@[simp] lemma sum_none : f.sum false false false = f := by simp [sum]
@[simp] lemma sum_carries : f.sum true true false = f.carries := by simp [sum, carries]
@[simp] lemma sum_carry0 : f.sum true false false = f.carry0 := by simp [sum, carry0]
@[simp] lemma sum_carry1 : f.sum false true false = f.carry1 := by simp [sum, carry1]
@[simp] lemma sum_overflow0 : f.sum true false true = f.overflow0 := by simp [sum, overflow0]
@[simp] lemma sum_overflow1 : f.sum false true true = f.overflow1 := by simp [sum, overflow1]

end ProgramFlags

/-! ### Words -/

lemma msb_eq_sign (w : W36) : w.msb = w.sign := msb_eq_getLsbD (w := 35) w

lemma sign_eq (w : W36) : w.sign = decide (w.ext64 < 0) := by
  rw [← msb_eq_sign, BitVec.msb_eq_toInt]
  rfl

/-- The bounds of a word as a signed number. -/
lemma ext64_bounds (w : W36) : -2 ^ 35 ≤ w.ext64 ∧ w.ext64 < 2 ^ 35 :=
  ⟨BitVec.le_toInt w, BitVec.toInt_lt⟩

lemma ext64_eq_zero_iff {w : W36} : w.ext64 = 0 ↔ w = 0 := by
  rw [W36.ext64, ← BitVec.toInt_inj]
  rfl

/-- A word by its sign and its magnitude field. -/
lemma toNat_eq_mag (w : W36) : w.toNat = (if w.sign then 2 ^ 35 else 0) + w.mag.toNat := by
  have hlt := w.isLt
  have hmag : w.mag.toNat = w.toNat % 2 ^ 35 := by
    rw [W36.mag, BitVec.extractLsb'_toNat, Nat.shiftRight_zero]
  have hsign : w.sign = decide (w.toNat / 2 ^ 35 % 2 = 1) := by
    rw [W36.sign, ← BitVec.testBit_toNat, Nat.testBit_eq_decide_div_mod_eq]
  rw [hmag, hsign]
  simp only [decide_eq_true_eq]
  split <;> omega

/-- The same of its signed number. -/
lemma ext64_eq_mag (w : W36) : w.ext64 = (w.mag.toNat : ℤ) - if w.sign then 2 ^ 35 else 0 := by
  have hnat := toNat_eq_mag w
  have hlt := w.mag.isLt
  rw [W36.ext64, BitVec.toInt_eq_toNat_cond]
  split at hnat
  case isTrue hsign =>
    rw [if_pos hsign]
    omega
  case isFalse hsign =>
    rw [if_neg hsign]
    omega

/-- A signed number that fits is read back. -/
lemma ext64_ofInt {n : ℤ} (h : overflows n = false) : (W36.ofInt n).ext64 = n := by
  rw [overflows, decide_eq_false_iff_not, not_or, not_lt, not_le] at h
  exact BitVec.toInt_ofInt_eq_self (by decide) h.1 h.2

lemma ofInt_ext64_add (s1 s2 : W36) : W36.ofInt (s1.ext64 + s2.ext64) = s1 + s2 := by
  rw [W36.ofInt, BitVec.ofInt_add, W36.ext64, W36.ext64, BitVec.ofInt_toInt, BitVec.ofInt_toInt]

lemma ofInt_ext64_sub (s1 s2 : W36) : W36.ofInt (s1.ext64 - s2.ext64) = s1 - s2 := by
  rw [W36.ofInt, Int.sub_eq_add_neg, BitVec.ofInt_add, BitVec.ofInt_neg, W36.ext64, W36.ext64,
    BitVec.ofInt_toInt, BitVec.ofInt_toInt, ← BitVec.sub_eq_add_neg]

/-! ### The code -/

/-- What `addWord` makes of the flags. -/
def ProgramFlags.addWord (f : ProgramFlags) (s1 s2 : W36) : ProgramFlags :=
  let sum := s1.ext64 + s2.ext64
  if sum < -2 ^ 35 then f.overflow0
  else if sum < 0 ∨ 2 ^ 35 ≤ sum then f.overflow1
  else if s1.ext64 < 0 ∨ s2.ext64 < 0 then f.carries
  else f

/-- A sum that is a number without sign has the larger term without sign. -/
lemma mixed_iff {a b : ℤ} (hsum : 0 ≤ a + b) :
    ((a < 0) ≠ (b < 0) ∧ ((0 ≤ a ∧ b.natAbs ≤ a.natAbs) ∨ (0 ≤ b ∧ a.natAbs ≤ b.natAbs))) ↔
      a < 0 ∨ b < 0 := by
  rw [Ne, eq_iff_iff]
  omega

lemma run_addWord (s1 s2 : W36) (s : Cpu) :
    (addWord s1 s2).run s = .ok (s1 + s2, { s with flags := s.flags.addWord s1 s2 }) := by
  rw [addWord, ofInt_ext64_add, ProgramFlags.addWord]
  split
  case isTrue => rfl
  case isFalse =>
    split
    case isTrue => rfl
    case isFalse hsum =>
      rw [not_or, not_lt] at hsum
      rw [if_neg fun h => absurd h (by omega)]
      simp only [mixed_iff hsum.1]
      split <;> rfl

/-- `setADDFlags` derives the carries from the signs of the operands and of the sum; it lets
overflow count in user mode only. -/
lemma run_setADDFlags (a b sum : W36) (s : Cpu) :
    let cy1 := a.sign ^^ (b.sign ^^ sum.sign)
    let cy0 := Bool.atLeastTwo a.sign b.sign cy1
    let trap := s.flags.usr && (cy0 ^^ cy1)
    (setADDFlags a b sum).run s =
      .ok (if trap then .iTrap else .iNormal, { s with flags := s.flags.sum cy0 cy1 trap }) := by
  rw [setADDFlags, userMode, bind_assoc, run_bind_of_ok (run_gets Cpu.flags s), pure_bind]
  cases a.sign <;> cases b.sign <;> cases sum.sign <;> cases s.flags.usr <;>
    simp [Bool.atLeastTwo] <;> rfl

/-- `setSUBFlags` derives them from the signs of the minuend, of the complement and of the
difference. -/
lemma run_setSUBFlags (a b diff : W36) (s : Cpu) :
    let cy1 := a.sign ^^ (!b.sign ^^ diff.sign)
    let cy0 := Bool.atLeastTwo a.sign (!b.sign) cy1
    let trap := s.flags.usr && (cy0 ^^ cy1)
    (setSUBFlags a b diff).run s =
      .ok (if trap then .iTrap else .iNormal, { s with flags := s.flags.sum cy0 cy1 trap }) := by
  rw [setSUBFlags, userMode, bind_assoc, run_bind_of_ok (run_gets Cpu.flags s), pure_bind]
  cases a.sign <;> cases b.sign <;> cases diff.sign <;> cases s.flags.usr <;>
    simp [Bool.atLeastTwo] <;> rfl

/-- What `subWord` makes of the flags. -/
def ProgramFlags.subWord (f : ProgramFlags) (s1 s2 : W36) : ProgramFlags :=
  let diff := s1.ext64 - s2.ext64
  if diff < -2 ^ 35 then f.overflow0 else if diff < 0 ∨ 2 ^ 35 ≤ diff then f.overflow1 else f

lemma run_subWord (s1 s2 : W36) (s : Cpu) :
    (subWord s1 s2).run s = .ok (s1 - s2, { s with flags := s.flags.subWord s1 s2 }) := by
  rw [subWord, ofInt_ext64_sub, ProgramFlags.subWord]
  split
  · rfl
  · split <;> rfl

/-! ### The flags -/

/-- The flags of an addition with carry by its signed value. -/
lemma sum_carry (f : ProgramFlags) (x y : W36) (c : Bool) :
    f.sum (BitVec.carry 36 x y c) (BitVec.carry 35 x y c) (overflows (value (w := 35) x y c)) =
      if value (w := 35) x y c < -2 ^ 35 then f.overflow0
      else if 2 ^ 35 ≤ value (w := 35) x y c then f.overflow1
      else if (if value (w := 35) x y c < 0 then x.sign && y.sign else x.sign || y.sign)
        then f.carries
      else f := by
  rw [overflows]
  by_cases hlt : value (w := 35) x y c < -2 ^ 35
  · obtain ⟨hout, hin⟩ := carry_of_lt (w := 35) hlt
    rw [if_pos hlt, hout, hin, decide_eq_true (.inl hlt), ProgramFlags.sum_overflow0]
  · rw [if_neg hlt]
    by_cases hle : 2 ^ 35 ≤ value (w := 35) x y c
    · obtain ⟨hout, hin⟩ := carry_of_le (w := 35) hle
      rw [if_pos hle, hout, hin, decide_eq_true (.inr hle), ProgramFlags.sum_overflow1]
    · obtain ⟨hout, hin⟩ := carry_of_fits (w := 35) (not_lt.mp hlt) (not_le.mp hle)
      rw [if_neg hle, hout, hin, decide_eq_false (not_or.mpr ⟨hlt, hle⟩), msb_eq_sign, msb_eq_sign]
      cases (if value (w := 35) x y c < 0 then x.sign && y.sign else x.sign || y.sign)
      · exact f.sum_none
      · exact f.sum_carries

/-- The flags of an addition by its sum. -/
lemma added_eq (f : ProgramFlags) (s1 s2 : W36) :
    f.added s1 s2 =
      let sum := s1.ext64 + s2.ext64
      if sum < -2 ^ 35 then f.overflow0
      else if 2 ^ 35 ≤ sum then f.overflow1
      else if (if sum < 0 then s1.sign && s2.sign else s1.sign || s2.sign) then f.carries
      else f := by
  have h := sum_carry f s1 s2 false
  rw [value_add] at h
  exact h

/-- The flags of a subtraction by its difference. -/
lemma subtracted_eq (f : ProgramFlags) (s1 s2 : W36) :
    f.subtracted s1 s2 =
      let diff := s1.ext64 - s2.ext64
      if diff < -2 ^ 35 then f.overflow0
      else if 2 ^ 35 ≤ diff then f.overflow1
      else if (if diff < 0 then s1.sign && !s2.sign else s1.sign || !s2.sign) then f.carries
      else f := by
  have h := sum_carry f s1 (~~~ s2) true
  have hsign : (~~~ s2).sign = !s2.sign := by
    rw [← msb_eq_sign, BitVec.msb_not, msb_eq_sign]
    rfl
  rw [value_not, hsign] at h
  exact h

/-- Overflow is a difference between the carries out of bits 0 and 1. -/
lemma overflows_value (x y : W36) (c : Bool) :
    overflows (value (w := 35) x y c) = (BitVec.carry 36 x y c ^^ BitVec.carry 35 x y c) := by
  have h := carry_ne_iff (w := 35) (x := x) (y := y) (c := c)
  rw [Bool.eq_iff_iff, overflows, decide_eq_true_iff, h]
  cases BitVec.carry (35 + 1) x y c <;> cases BitVec.carry 35 x y c <;> decide

/-- The carries of a difference are those that `setSUBFlags` derives from the signs. -/
lemma subtracted_of_signs (f : ProgramFlags) (s1 s2 : W36) :
    let cy1 := s1.sign ^^ (!s2.sign ^^ W36.sign (s1 - s2))
    let cy0 := Bool.atLeastTwo s1.sign (!s2.sign) cy1
    f.subtracted s1 s2 = f.sum cy0 cy1 (cy0 ^^ cy1) := by
  have hcarry := carry_sub_eq_xor (w := 35) s1 s2
  have hout := carry_succ_eq (w := 35) s1 (~~~ s2) true
  have hoverflow := overflows_value s1 (~~~ s2) true
  rw [BitVec.msb_not, hcarry] at hout
  rw [value_not] at hoverflow
  simp only [msb_eq_sign, Nat.succ_pos, decide_true, Bool.true_and] at hcarry hout
  rw [ProgramFlags.subtracted, W36.ext64, W36.ext64, hoverflow, hout, hcarry]

/-! ### When the promises are kept -/

/-- Two states that differ in the flags at most. -/
lemma with_flags_inj {s : Cpu} {f g : ProgramFlags} :
    ({ s with flags := f } : Cpu) = { s with flags := g } ↔ f = g :=
  ⟨fun h => congrArg Cpu.flags h, fun h => by rw [h]⟩

/-- Overflow changes nothing if it is set already. -/
lemma overflow_eq_self_iff (f : ProgramFlags) : f.overflow = f ↔ f.ov ∧ f.tr1 := by
  cases f
  simp only [ProgramFlags.overflow, ProgramFlags.mk.injEq]
  tauto

section Flags

variable (f : ProgramFlags)

lemma overflow1_eq_self_iff : f.overflow1 = f ↔ f.ov ∧ f.tr1 ∧ f.cy1 := by
  cases f
  simp only [ProgramFlags.overflow1, ProgramFlags.mk.injEq]
  tauto

lemma overflow1_eq_carries_iff : f.overflow1 = f.carries ↔ f.ov ∧ f.tr1 ∧ f.cy0 := by
  cases f
  simp only [ProgramFlags.overflow1, ProgramFlags.carries, ProgramFlags.mk.injEq]
  tauto

lemma eq_carries_iff : f = f.carries ↔ f.cy0 ∧ f.cy1 := by
  cases f
  simp only [ProgramFlags.carries, ProgramFlags.mk.injEq]
  tauto

/-- `addWord` sets the right flags for a sum that overflows or has no sign, and otherwise where
the flags that it sets are set already. -/
lemma addWord_eq_added_iff (s1 s2 : W36) :
    f.addWord s1 s2 = f.added s1 s2 ↔
      ¬ (-2 ^ 35 ≤ s1.ext64 + s2.ext64 ∧ s1.ext64 + s2.ext64 < 0) ∨
        (f.ov ∧ f.tr1 ∧ if s1.ext64 < 0 ∧ s2.ext64 < 0 then f.cy0 else f.cy1) := by
  rw [ProgramFlags.addWord, added_eq]
  simp only [sign_eq, ← Bool.decide_and, ← Bool.decide_or]
  generalize s1.ext64 = a
  generalize s2.ext64 = b
  by_cases hlt : a + b < -2 ^ 35
  · rw [if_pos hlt, if_pos hlt]
    exact iff_of_true rfl (.inl fun h => absurd hlt (not_lt.mpr h.1))
  · rw [if_neg hlt, if_neg hlt]
    by_cases hneg : a + b < 0
    · rw [if_pos (.inl hneg), if_neg (by omega), if_pos hneg,
        or_iff_right (not_not.mpr ⟨not_lt.mp hlt, hneg⟩)]
      by_cases hboth : a < 0 ∧ b < 0
      · rw [if_pos (decide_eq_true hboth), if_pos hboth]
        exact overflow1_eq_carries_iff f
      · rw [if_neg (by rwa [decide_eq_true_iff]), if_neg hboth]
        exact overflow1_eq_self_iff f
    · refine iff_of_true ?_ (.inl fun h => hneg h.2)
      rw [if_neg hneg]
      by_cases hle : 2 ^ 35 ≤ a + b
      · rw [if_pos (.inr hle), if_pos hle]
      · rw [if_neg (not_or.mpr ⟨hneg, hle⟩), if_neg hle]
        simp only [decide_eq_true_eq]

/-- `subWord` sets the right flags for a difference that overflows, and for one that has no carry.
Otherwise they are right where they are set already. -/
lemma subWord_eq_subtracted_iff (s1 s2 : W36) :
    f.subWord s1 s2 = f.subtracted s1 s2 ↔
      if overflows (s1.ext64 - s2.ext64) then True
      else if s1.ext64 - s2.ext64 < 0 then
        f.ov ∧ f.tr1 ∧ if s1.ext64 < 0 ∧ 0 ≤ s2.ext64 then f.cy0 else f.cy1
      else (0 ≤ s1.ext64 ∧ s2.ext64 < 0) ∨ (f.cy0 ∧ f.cy1) := by
  rw [ProgramFlags.subWord, subtracted_eq, overflows]
  simp only [sign_eq, ← decide_not, ← Bool.decide_and, ← Bool.decide_or, decide_eq_true_eq,
    not_lt]
  generalize s1.ext64 = a
  generalize s2.ext64 = b
  by_cases hlt : a - b < -2 ^ 35
  · rw [if_pos hlt, if_pos hlt, if_pos (.inl hlt)]
    exact iff_of_true rfl trivial
  · rw [if_neg hlt, if_neg hlt]
    by_cases hle : 2 ^ 35 ≤ a - b
    · rw [if_pos (.inr hle), if_pos hle, if_pos (.inr hle)]
      exact iff_of_true rfl trivial
    · rw [if_neg hle, if_neg (not_or.mpr ⟨hlt, hle⟩)]
      by_cases hneg : a - b < 0
      · rw [if_pos (.inl hneg), if_pos hneg, if_pos hneg]
        by_cases hcarry : a < 0 ∧ 0 ≤ b
        · rw [if_pos (decide_eq_true hcarry), if_pos hcarry]
          exact overflow1_eq_carries_iff f
        · rw [if_neg (by rwa [decide_eq_true_iff]), if_neg hcarry]
          exact overflow1_eq_self_iff f
      · rw [if_neg (not_or.mpr ⟨hneg, hle⟩), if_neg hneg, if_neg hneg]
        by_cases hcarry : a < 0 ∨ 0 ≤ b
        · rw [if_pos (decide_eq_true hcarry), or_iff_right (by omega)]
          exact eq_carries_iff f
        · rw [if_neg (by rwa [decide_eq_true_iff])]
          exact iff_of_true rfl (.inl (by omega))

end Flags

/-- **ADD** keeps its promise unless the sum is a negative number that fits.  In that case it sets
OV, TR1 and CY1, which is right only if OV and TR1 are set already, and CY1, or CY0 if both terms
are negative.  Overflow is a difference between the carries. -/
theorem adds_iff (s1 s2 : W36) (s : Cpu) :
    (Adds s1 s2 s ↔ ¬ (-2 ^ 35 ≤ s1.ext64 + s2.ext64 ∧ s1.ext64 + s2.ext64 < 0) ∨
      (s.flags.ov ∧ s.flags.tr1 ∧
        if s1.ext64 < 0 ∧ s2.ext64 < 0 then s.flags.cy0 else s.flags.cy1)) ∧
    (overflows (s1.ext64 + s2.ext64) =
      (BitVec.carry 36 s1 s2 false ^^ BitVec.carry 35 s1 s2 false)) := by
  constructor
  · rw [Adds, run_addWord, Except.ok.injEq, Prod.mk.injEq, with_flags_inj,
      and_iff_right rfl]
    exact addWord_eq_added_iff s.flags s1 s2
  · have h := overflows_value s1 s2 false
    rw [value_add] at h
    exact h

/-- **A negative sum**: 0 and -1 are added, and the flags say that the sum overflows. -/
theorem adds_minus_one :
    (addWord 0 W36.all1s).run Cpu.initial =
      .ok (W36.all1s, { Cpu.initial with flags := ProgramFlags.none.overflow1 }) ∧
    ¬ Adds 0 W36.all1s Cpu.initial := by
  refine ⟨run_addWord 0 W36.all1s Cpu.initial, ?_⟩
  rw [Adds, run_addWord, Except.ok.injEq, Prod.mk.injEq, with_flags_inj]
  decide

/-- **SUB** in user mode keeps its promise if the difference overflows, or if it fits and has no
carry, a number without sign less a negative one.  Other differences that fit set OV, TR1 and CY1
if they are negative and nothing if they are not, which is right only if the flags of the
difference, and no others, are set already. -/
theorem subtracts_iff (s1 s2 : W36) (s : Cpu) (husr : s.flags.usr = true) :
    Subtracts s1 s2 s ↔
      if overflows (s1.ext64 - s2.ext64) then True
      else if s1.ext64 - s2.ext64 < 0 then
        s.flags.ov ∧ s.flags.tr1 ∧
          if s1.ext64 < 0 ∧ 0 ≤ s2.ext64 then s.flags.cy0 else s.flags.cy1
      else (0 ≤ s1.ext64 ∧ s2.ext64 < 0) ∨ (s.flags.cy0 ∧ s.flags.cy1) := by
  have hagrees : ∃ r, (setSUBFlags s1 s2 (s1 - s2)).run s =
      .ok (r, { s with flags := s.flags.subtracted s1 s2 }) := by
    have hrun := run_setSUBFlags s1 s2 (s1 - s2) s
    rw [husr] at hrun
    simp only [Bool.true_and] at hrun
    rw [subtracted_of_signs]
    exact ⟨_, hrun⟩
  have hsubtracts : Subtracts s1 s2 s ↔
      s.flags.subWord s1 s2 = s.flags.subtracted s1 s2 := by
    constructor
    · rintro ⟨hrun, -⟩
      rw [run_subWord, Except.ok.injEq, Prod.mk.injEq, with_flags_inj] at hrun
      exact hrun.2
    · intro h
      refine ⟨?_, hagrees⟩
      rw [run_subWord, h]
  rw [hsubtracts]
  exact subWord_eq_subtracted_iff s.flags s1 s2

/-- A user program without any other flag. -/
def Cpu.inUserMode : Cpu := { Cpu.initial with flags := { ProgramFlags.none with usr := true } }

theorem subtracts_iff_five : ¬ Subtracts 5 3 Cpu.inUserMode := by
  rw [subtracts_iff 5 3 Cpu.inUserMode rfl]
  decide

/-- **A difference of zero**: 1 less 1 has both carries, and SUB sets no flag. -/
theorem subtracts_equal :
    (subWord 1 1).run Cpu.inUserMode = .ok (0, Cpu.inUserMode) ∧
    ¬ Subtracts 1 1 Cpu.inUserMode := by
  refine ⟨run_subWord 1 1 Cpu.inUserMode, fun h => ?_⟩
  have hrun := h.difference
  rw [run_subWord, Except.ok.injEq, Prod.mk.injEq, with_flags_inj] at hrun
  exact absurd hrun.2 (by decide)

end KM10
