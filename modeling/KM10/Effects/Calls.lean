import KM10.Effects.Pass

/-!
What the subroutine calls save.

* `Cpu.saved`: the word that JSR, JSP and PUSHJ save, and `rhu_saved`, its address;
* `run_doJSR`, `run_doJSP`, `run_doJSA`: the calls on a state.
-/

namespace KM10

open StateExcept

/-! ### The saved word -/

/-- The word that a call saves: the flags over the PC, or the PC alone, one further outside of
interrupts. -/
def Cpu.saved (s : Cpu) (inSection0 : Bool) : W36 :=
  let delta := if s.inInterrupt then 0 else 1
  if inSection0 then (W36.ofNat (s.pc.rhu.toNat + delta)).setPcFlags s.flags.u
  else W36.ofNat (s.pc.vma.toNat + delta)

lemma run_savedPC (inSection0 : Bool) (s : Cpu) :
    (savedPC inSection0).run s = .ok (s.saved inSection0, s) := by
  have hdelta : savedDelta.run s = .ok (if s.inInterrupt then 0 else 1, s) := rfl
  rw [savedPC, run_bind_of_ok hdelta, run_bind_of_ok (run_gets Cpu.pc s), Cpu.saved]
  cases inSection0 <;> rfl

/-- Outside of interrupts the saved address is the next one. -/
lemma rhu_saved {s : Cpu} (h : s.inInterrupt = false) (inSection0 : Bool) :
    (s.saved inSection0).rhu = s.pc.rhu + 1 := by
  have hnext (n : ℕ) (hn : n % 2 ^ 18 = s.pc.rhu.toNat) :
      (W36.ofNat (n + 1)).rhu = s.pc.rhu + 1 := by
    apply BitVec.eq_of_toNat_eq
    rw [W36.toNat_rhu_ofNat, BitVec.toNat_add]
    change _ = (s.pc.rhu.toNat + 1) % 2 ^ 18
    omega
  have hvma : s.pc.vma.toNat % 2 ^ 18 = s.pc.rhu.toNat := by
    rw [W36.rhu_eq_vma, BitVec.extractLsb'_toNat, Nat.shiftRight_zero]
  rw [Cpu.saved, h]
  cases inSection0 with
  | true =>
      change ((W36.ofNat (s.pc.rhu.toNat + 1)).setPcFlags s.flags.u).rhu = _
      rw [W36.rhu_eq_vma, W36.vma_setPcFlags, ← W36.rhu_eq_vma]
      exact hnext _ (Nat.mod_eq_of_lt s.pc.rhu.isLt)
  | false => exact hnext _ hvma

/-- The flags after a call: an interrupt also enters executive mode. -/
def Cpu.callFlags (s : Cpu) : ProgramFlags :=
  if s.inInterrupt then { s.flags.clearForCall with usr := false, pub := false }
  else s.flags.clearForCall

/-- The end of a call, which does its part of the change of the flags. -/
lemma run_enterExecInInterrupt (s : Cpu) :
    enterExecInInterrupt.run s = .ok ((), { s with
      flags := if s.inInterrupt then { s.flags with usr := false, pub := false }
        else s.flags }) := by
  rw [enterExecInInterrupt, run_bind_of_ok (run_gets Cpu.inInterrupt s)]
  by_cases h : s.inInterrupt = true
  · rw [if_pos h, if_pos h]
    rfl
  · rw [if_neg h, if_neg h]
    rfl

/-- The clearing of the flags and the end of a call. -/
lemma run_callFlags (s : Cpu) :
    (do
      modifyFlags .clearForCall
      enterExecInInterrupt
      return IResult.iJump : Exec IResult).run s =
      .ok (.iJump, { s with flags := s.callFlags }) := by
  let s' : Cpu := { s with flags := s.flags.clearForCall }
  have hclear : (modifyFlags .clearForCall).run s = .ok ((), s') := rfl
  rw [run_bind_of_ok hclear, run_bind_of_ok (run_enterExecInInterrupt s')]
  rfl

/-! ### The calls -/

lemma ops_JSR : ops 0o264 = doJSR := ops_of_mem <| by
  simp [installs, installJumpGroup]

lemma ops_JSP : ops 0o265 = doJSP := ops_of_mem <| by
  simp [installs, installJumpGroup]

lemma ops_JSA : ops 0o266 = doJSA := ops_of_mem <| by
  simp [installs, installJumpGroup]

/-- JSR stores the saved word at its address and jumps behind it. -/
lemma run_doJSR (s : Cpu) :
    ∃ running, doJSR.run s = .ok (.iJump,
      { s.setWord (s.saved s.ea.isSection0) s.ea.rhu with
        running := running, ea := s.ea.setRhu (s.ea.rhu + 1), flags := s.callFlags }) := by
  rw [doJSR, run_bind_of_ok (run_gets Cpu.ea s), run_bind_of_ok (run_savedPC _ s),
    run_bind_of_ok (run_memPut _ s)]
  let s1 := (s.setWord (s.saved s.ea.isSection0) s.ea.rhu).hit
    (s.setWord (s.saved s.ea.isSection0) s.ea.rhu).addressPBPs s.ea.vma.toNat
  have hstep : stepEa.run s1 = .ok ((), { s1 with ea := s1.ea.setRhu (s1.ea.rhu + 1) }) := rfl
  rw [run_bind_of_ok hstep, run_callFlags]
  have hea : s1.ea = s.ea := setWord_ea s _ _
  have hflags : s1.callFlags = s.callFlags := by
    have h1 : s1.flags = s.flags := setWord_flags s _ _
    have h2 : s1.inInterrupt = s.inInterrupt := setWord_inInterrupt s _ _
    rw [Cpu.callFlags, Cpu.callFlags, h1, h2]
  refine ⟨s1.running, ?_⟩
  change Except.ok (IResult.iJump, { s1 with
    ea := s1.ea.setRhu (s1.ea.rhu + 1), flags := s1.callFlags }) = _
  rw [hea, hflags]
  rfl

/-- JSP leaves the saved word in the accumulator. -/
lemma run_doJSP (s : Cpu) :
    doJSP.run s = .ok (.iJump,
      { s.setAC (s.saved s.ea.isSection0) s.iw.ac with flags := s.callFlags }) := by
  rw [doJSP, run_bind_of_ok (run_gets Cpu.ea s), run_bind_of_ok (run_savedPC _ s),
    run_bind_of_ok (run_acPut _ s), run_callFlags]
  rfl

/-- JSA leaves its address and the return address in the accumulator. -/
lemma run_doJSA {s : Cpu} (h : s.inInterrupt = false) :
    ∃ running, doJSA.run s = .ok (.iJump,
      { (s.setWord (s.acs s.iw.ac) s.ea.rhu).setAC (W36.halves s.ea.rhu (s.pc.rhu + 1)) s.iw.ac with
        running := running, ea := s.ea.setRhu (s.ea.rhu + 1) }) := by
  have hdelta : savedDelta.run s = .ok (1, s) := by
    rw [savedDelta, run_bind_of_ok (run_gets Cpu.inInterrupt s), h]
    rfl
  rw [doJSA, run_bind_of_ok hdelta, run_bind_of_ok (run_acGet s),
    run_bind_of_ok (run_memPut _ s)]
  let s1 := (s.setWord (s.acs s.iw.ac) s.ea.rhu).hit
    (s.setWord (s.acs s.iw.ac) s.ea.rhu).addressPBPs s.ea.vma.toNat
  have hea : s1.ea = s.ea := setWord_ea s _ _
  have hpc : s1.pc = s.pc := setWord_pc s _ _
  have hiw : s1.iw = s.iw := setWord_iw s _ _
  have hin : s1.inInterrupt = false := (setWord_inInterrupt s _ _).trans h
  rw [run_bind_of_ok (run_gets Cpu.pc s1), run_bind_of_ok (run_gets Cpu.ea s1),
    run_bind_of_ok (run_acPut _ s1), hea, hpc, hiw]
  let s2 := s1.setAC (W36.halves s.ea.rhu (s.pc.rhu + 1)) s.iw.ac
  let s3 : Cpu := { s2 with ea := s2.ea.setRhu (s2.ea.rhu + 1) }
  have hstep : stepEa.run s2 = .ok ((), s3) := rfl
  have hclear : clearUsrInInterrupt.run s3 = .ok ((), s3) := by
    have hin3 : s3.inInterrupt = false := hin
    rw [clearUsrInInterrupt, run_bind_of_ok (run_gets Cpu.inInterrupt s3), hin3]
    rfl
  refine ⟨s1.running, ?_⟩
  change (do stepEa; clearUsrInInterrupt; return IResult.iJump : Exec IResult).run s2 = _
  rw [run_bind_of_ok hstep, run_bind_of_ok hclear]
  change Except.ok (IResult.iJump, { s2 with ea := s1.ea.setRhu (s1.ea.rhu + 1) }) = _
  rw [hea]
  rfl

end KM10
