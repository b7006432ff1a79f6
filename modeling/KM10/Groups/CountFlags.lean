import KM10.Arith.Addition
import KM10.Groups.Counts

/-!
The flags of the count instructions, against those of the addition that they perform.

* `CountInsn`: the instructions, each with the word that it counts and the word that it adds;
* `AddsFlags`: what an instruction promises;
* `aoFlags_eq`, `soFlags_eq`: the special words against the carries;
* `count_flags_iff`: when the promise is kept;
* `count_flags_least`: a word for which it is not.
-/

namespace KM10

open StateExcept

/-! ### What a count promises -/

/-- The count instructions, each under all its conditions. -/
inductive CountInsn where
  | AOJ
  | AOS
  | SOJ
  | SOS
deriving DecidableEq

namespace CountInsn

/-- The family of an instruction. -/
def family : CountInsn → Fin 8
  | AOJ => 4
  | AOS => 5
  | SOJ => 6
  | SOS => 7

/-- The word that it counts. -/
def operand : CountInsn → Cpu → W36
  | AOJ, s => s.acOperand
  | AOS, s => s.memOperand
  | SOJ, s => s.acOperand
  | SOS, s => s.memOperand

/-- The word that it adds. -/
def delta : CountInsn → W36
  | AOJ => 1
  | AOS => 1
  | SOJ => W36.all1s
  | SOS => W36.all1s

/-- It newly sets the flags of the addition, and no other. -/
def AddsFlags (insn : CountInsn) (digit : Fin 8) (s : Cpu) : Prop :=
  ∃ r t, (ops (0o300 + 8 * insn.family.val + digit.val)).run s = .ok (r, t) ∧
    t.flags = s.flags.added (insn.operand s) insn.delta

end CountInsn

/-! ### The special words -/

/-- Counting up recognises every word that carries. -/
lemma aoFlags_eq (a : W36) (f : ProgramFlags) : aoFlags a f = f.added a 1 := by
  have hbounds := ext64_bounds a
  have hone : W36.ext64 1 = 1 := by decide
  have hsign : W36.sign 1 = false := by decide
  have hmost : a = W36.ofNat (W36.bit0 - 1) ↔ a.ext64 = 2 ^ 35 - 1 := BitVec.toInt_inj.symm
  rw [aoFlags, added_eq, hone, hsign, Bool.and_false, Bool.or_false, sign_eq]
  dsimp only
  rw [if_neg (show ¬ a.ext64 + 1 < -2 ^ 35 by omega)]
  by_cases hover : a.ext64 = 2 ^ 35 - 1
  · rw [if_pos (hmost.mpr hover), if_pos (show 2 ^ 35 ≤ a.ext64 + 1 by omega)]
  · rw [if_neg (mt hmost.mp hover), if_neg (show ¬ 2 ^ 35 ≤ a.ext64 + 1 by omega)]
    by_cases hcarry : a.ext64 = -1
    · rw [if_pos hcarry, hcarry]
      rfl
    · rw [if_neg hcarry]
      split
      · rfl
      · rw [decide_eq_false (by omega), if_neg Bool.false_ne_true]

/-- Counting down recognises every word that carries, but takes the carry out of the most negative
one for a carry into it. -/
lemma soFlags_eq (a : W36) (f : ProgramFlags) :
    soFlags a f = if a.ext64 = -2 ^ 35 then f.overflow1 else f.added a W36.all1s := by
  have hbounds := ext64_bounds a
  have hones : W36.ext64 W36.all1s = -1 := by decide
  have hsign : W36.sign W36.all1s = true := by decide
  have hleast : a = W36.ofNat W36.bit0 ↔ a.ext64 = -2 ^ 35 := BitVec.toInt_inj.symm
  have hzero : a = 0 ↔ a.ext64 = 0 := ext64_eq_zero_iff.symm
  rw [soFlags, added_eq, hones, hsign, Bool.and_true, Bool.or_true, sign_eq]
  dsimp only
  by_cases hunder : a.ext64 = -2 ^ 35
  · rw [if_pos (hleast.mpr hunder), if_pos hunder]
  · rw [if_neg (mt hleast.mp hunder), if_neg hunder,
      if_neg (show ¬ a.ext64 + -1 < -2 ^ 35 by omega),
      if_neg (show ¬ 2 ^ 35 ≤ a.ext64 + -1 by omega)]
    by_cases hnone : a.ext64 = 0
    · rw [if_neg (not_not.mpr (hzero.mpr hnone)), hnone]
      rfl
    · rw [if_pos (mt hzero.mp hnone)]
      split
      · rw [decide_eq_true (by omega), if_pos rfl]
      · rfl

/-- The most negative word carries out of bit 0. -/
lemma added_least (f : ProgramFlags) {a : W36} (h : a.ext64 = -2 ^ 35) :
    f.added a W36.all1s = f.overflow0 := by
  have hones : W36.ext64 W36.all1s = -1 := by decide
  rw [added_eq, hones, h]
  rfl

/-- It makes no difference if both carries are set already. -/
lemma overflow1_eq_overflow0_iff (f : ProgramFlags) :
    f.overflow1 = f.overflow0 ↔ f.cy0 ∧ f.cy1 := by
  cases f
  simp only [ProgramFlags.overflow0, ProgramFlags.overflow1, ProgramFlags.mk.injEq]
  tauto

/-! ### When the promise is kept -/

/-- The flags that the code leaves. -/
lemma countedFlags_eq (insn : CountInsn) (s : Cpu) :
    s.countedFlags insn.family.val =
      if insn.delta = W36.all1s ∧ (insn.operand s).ext64 = -2 ^ 35 then s.flags.overflow1
      else s.flags.added (insn.operand s) insn.delta := by
  have hones : (1 : W36) ≠ W36.all1s := by decide
  cases insn with
  | AOJ => exact (aoFlags_eq _ _).trans (if_neg fun h => hones h.1).symm
  | AOS => exact (aoFlags_eq _ _).trans (if_neg fun h => hones h.1).symm
  | SOJ =>
      refine (soFlags_eq _ _).trans ?_
      simp only [CountInsn.delta, CountInsn.operand, true_and]
  | SOS =>
      refine (soFlags_eq _ _).trans ?_
      simp only [CountInsn.delta, CountInsn.operand, true_and]

/-- The promise is about these flags. -/
lemma addsFlags_iff (insn : CountInsn) (digit : Fin 8) (s : Cpu) :
    insn.AddsFlags digit s ↔
      s.countedFlags insn.family.val = s.flags.added (insn.operand s) insn.delta := by
  obtain ⟨running, hrun⟩ := count_ops insn.family digit s
  constructor
  · rintro ⟨r, t, hrun', ht⟩
    rw [hrun, Except.ok.injEq, Prod.mk.injEq] at hrun'
    rw [← ht, ← hrun'.2]
  · exact fun h => ⟨_, _, hrun, h⟩

/-- **The counts** set the flags of the additions that they perform, but for SOJ and SOS of the
most negative word, which set CY1 in the place of CY0. -/
theorem count_flags_iff (insn : CountInsn) (digit : Fin 8) (s : Cpu) :
    insn.AddsFlags digit s ↔
      ¬ (insn.delta = W36.all1s ∧ (insn.operand s).ext64 = -2 ^ 35) ∨
        (s.flags.cy0 ∧ s.flags.cy1) := by
  rw [addsFlags_iff, countedFlags_eq]
  by_cases hleast : insn.delta = W36.all1s ∧ (insn.operand s).ext64 = -2 ^ 35
  · rw [if_pos hleast, or_iff_right (not_not.mpr hleast), hleast.1, added_least _ hleast.2]
    exact overflow1_eq_overflow0_iff s.flags
  · rw [if_neg hleast]
    exact iff_of_true rfl (.inl hleast)

/-- A machine with the most negative word in accumulator 0. -/
def Cpu.atLeast : Cpu := Cpu.initial.setAC (W36.ofNat W36.bit0) 0

/-- **The wrong carry**: SOJ of the most negative word sets CY1, and the addition of -1 carries out
of bit 0 and not out of bit 1. -/
theorem count_flags_least :
    Cpu.atLeast.countedFlags 6 = ProgramFlags.none.overflow1 ∧
      BitVec.carry 36 (W36.ofNat W36.bit0) W36.all1s false = true ∧
      BitVec.carry 35 (W36.ofNat W36.bit0) W36.all1s false = false ∧
      ¬ CountInsn.SOJ.AddsFlags 0 Cpu.atLeast := by
  refine ⟨by decide, by decide, by decide, ?_⟩
  rw [addsFlags_iff]
  decide

end KM10
