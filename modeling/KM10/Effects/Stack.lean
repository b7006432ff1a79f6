import KM10.Effects.Calls
import KM10.Effects.Operands

/-!
The stack instructions on a local stack, in section 0 first of all.

* `Cpu.LocalStack`: the pointer is a local one;
* `Cpu.pushedPointer`, `Cpu.poppedPointer`: the pointer after a push and after a pop;
* `run_push_of_local`, `run_push_local`, `run_push_full`: a push, with and without room for a word;
* `run_pop_of_local`, `run_pop_local`: a pop;
* `run_doPUSHJ_full`, `run_doPUSHJ_room`, `saved_of_doPUSHJ`: PUSHJ;
* `run_doPUSH`, `run_doPOP`, `run_doPOPJ`: the other instructions.
-/

namespace KM10

open StateExcept

/-! ### A push -/

/-- The stack pointer in the accumulator is a local one. -/
def Cpu.LocalStack (s : Cpu) : Prop :=
  s.pc.isSection0 = true ∨ s.acOperand.lhs < 0 ∨ s.acOperand.lhu &&& 0o7777 = 0

instance (s : Cpu) : Decidable s.LocalStack := inferInstanceAs (Decidable (_ ∨ _ ∨ _))

/-- The stack pointer in the accumulator is one of section 0, and stepping it does not
overflow. -/
def Cpu.HasLocalStack (s : Cpu) : Prop :=
  let ac := s.acs s.iw.ac
  (s.pc.isSection0 || ac.lhs < 0 || ac.lhu &&& 0o7777 == 0) = true ∧ ac.lhu + 1 ≠ 0

lemma Cpu.HasLocalStack.localStack {s : Cpu} (h : s.HasLocalStack) : s.LocalStack := by
  have hlocal := h.1
  rwa [Bool.or_eq_true, Bool.or_eq_true, decide_eq_true_iff, beq_iff_eq, or_assoc] at hlocal

/-- The stack pointer after a push. -/
def Cpu.pushedPointer (s : Cpu) : W36 :=
  W36.halves ((s.acs s.iw.ac).lhu + 1) ((s.acs s.iw.ac).rhu + 1)

/-- A program in section 0 has one, as long as the count does not run out. -/
lemma hasLocalStack {s : Cpu} (hpc : s.pc.isSection0 = true) (hroom : s.pushedPointer.lhu ≠ 0) :
    s.HasLocalStack := by
  rw [Cpu.pushedPointer, W36.lhu_halves] at hroom
  refine ⟨?_, hroom⟩
  rw [hpc]
  rfl

lemma run_localStack (s : Cpu) :
    (localStack (s.acs s.iw.ac)).run s = .ok (decide s.LocalStack, s) := by
  have hlocal : (s.pc.isSection0 || s.acOperand.lhs < 0 || s.acOperand.lhu &&& 0o7777 == 0) =
      decide s.LocalStack := by
    rw [Bool.eq_iff_iff, Bool.or_eq_true, Bool.or_eq_true, decide_eq_true_iff, beq_iff_eq,
      decide_eq_true_iff, or_assoc]
    rfl
  rw [localStack, run_bind_of_ok (run_gets Cpu.pc s), ← hlocal]
  rfl

/-- A push on a local stack steps both halves, and stores nothing if the count runs out. -/
lemma run_push_of_local (v : W36) {s : Cpu} (h : s.LocalStack) :
    ∃ running, (push v).run s = .ok ((),
      { (if s.pushedPointer.lhu = 0 then s else s.setWord v s.pushedPointer.rhu).setAC
          s.pushedPointer s.iw.ac with
        running := running
        flags := if s.pushedPointer.lhu = 0 then s.flags.trap2 else s.flags }) := by
  obtain ⟨t, hstore, hiw, running, hput⟩ : ∃ t,
      (if s.pushedPointer.lhu = 0 then modifyFlags .trap2
        else memPutN v (W36.halves 0 s.pushedPointer.rhu) : Exec Unit).run s = .ok ((), t) ∧
      t.iw = s.iw ∧ ∃ running, t.setAC s.pushedPointer s.iw.ac =
        { (if s.pushedPointer.lhu = 0 then s else s.setWord v s.pushedPointer.rhu).setAC
            s.pushedPointer s.iw.ac with
          running := running
          flags := if s.pushedPointer.lhu = 0 then s.flags.trap2 else s.flags } := by
    by_cases hfull : s.pushedPointer.lhu = 0
    · simp only [if_pos hfull]
      exact ⟨_, rfl, rfl, s.running, rfl⟩
    · obtain ⟨running, hput⟩ := exists_run_memPutN v (W36.halves 0 s.pushedPointer.rhu) s
      simp only [if_neg hfull]
      refine ⟨_, hput, setWord_iw _ _ _, running, ?_⟩
      rw [W36.rhu_halves, ← setWord_flags s v s.pushedPointer.rhu]
      rfl
  have hrun := run_acPut s.pushedPointer t
  rw [hiw, hput] at hrun
  rw [push, run_bind_of_ok (run_acGet s), run_bind_of_ok (run_localStack s), decide_eq_true h,
    if_pos rfl]
  exact ⟨running, (run_bind_of_ok hstore).trans hrun⟩

/-- On such a stack a push stores the word at the new stack pointer. -/
lemma run_push_local (v : W36) {s : Cpu} (h : s.HasLocalStack) :
    ∃ running, (push v).run s = .ok ((),
      { (s.setWord v s.pushedPointer.rhu).setAC s.pushedPointer s.iw.ac with
        running := running }) := by
  have hroom : s.pushedPointer.lhu ≠ 0 := by
    rw [Cpu.pushedPointer, W36.lhu_halves]
    exact h.2
  obtain ⟨running, hrun⟩ := run_push_of_local v h.localStack
  simp only [if_neg hroom] at hrun
  refine ⟨running, hrun.trans ?_⟩
  rw [← setWord_flags s v s.pushedPointer.rhu]
  rfl

/-- A stack of section 0 whose count runs out keeps its words and sets TR2. -/
lemma run_push_full (v : W36) {s : Cpu} (hpc : s.pc.isSection0 = true)
    (hfull : s.pushedPointer.lhu = 0) :
    ∃ running, (push v).run s = .ok ((),
      { s.setAC s.pushedPointer s.iw.ac with running := running, flags := s.flags.trap2 }) := by
  obtain ⟨running, hrun⟩ := run_push_of_local v (.inl hpc)
  simp only [if_pos hfull] at hrun
  exact ⟨running, hrun⟩

/-! ### PUSHJ -/

/-- The location that PUSHJ saves its word at. -/
def Cpu.stackSlot (s : Cpu) : BitVec 18 := s.pushedPointer.rhu

lemma ops_PUSHJ : ops 0o260 = doPUSHJ := ops_of_mem <| by
  simp [installs, installJumpGroup]

/-- PUSHJ goes on from the push of the word that it saves, with the flags already cleared. -/
lemma run_doPUSHJ_of_push {s t : Cpu} (hpc : s.pc.isSection0 = true)
    (hpush : (push (({ s with flags := s.flags.clearForCall } : Cpu).saved true)).run
      { s with flags := s.flags.clearForCall } = .ok ((), t)) :
    doPUSHJ.run s = .ok (.iJump, { t with flags :=
      if t.inInterrupt then { t.flags with usr := false, pub := false } else t.flags }) := by
  let s1 : Cpu := { s with flags := s.flags.clearForCall }
  have hclear : (modifyFlags .clearForCall).run s = .ok ((), s1) := rfl
  have hsaved : (savedPC s1.pc.isSection0).run s1 = .ok (s1.saved true, s1) := by
    rw [run_savedPC, show s1.pc.isSection0 = true from hpc]
  rw [doPUSHJ, run_bind_of_ok hclear, run_bind_of_ok (run_gets Cpu.pc s1), run_bind_of_ok hsaved,
    run_bind_of_ok hpush, run_bind_of_ok (run_enterExecInInterrupt t)]
  rfl

/-- PUSHJ in section 0 returns.  Where its count runs out it stores the pointer alone. -/
lemma run_doPUSHJ_full {s : Cpu} (hpc : s.pc.isSection0 = true) (hfull : s.pushedPointer.lhu = 0) :
    ∃ p, doPUSHJ.run s = .ok (.iJump, p) ∧ p.word = (s.setAC s.pushedPointer s.iw.ac).word ∧
      p.flags = s.callFlags.trap2 := by
  let s1 : Cpu := { s with flags := s.flags.clearForCall }
  obtain ⟨running, hpush⟩ := run_push_full (s1.saved true) (s := s1) hpc hfull
  refine ⟨_, run_doPUSHJ_of_push hpc hpush, rfl, ?_⟩
  rw [Cpu.callFlags]
  cases hin : s.inInterrupt with
  | true => exact if_pos hin
  | false => exact if_neg (Bool.eq_false_iff.mp hin)

/-- Where there is room it stores the word and the pointer. -/
lemma run_doPUSHJ_room {s : Cpu} (hpc : s.pc.isSection0 = true) (hroom : s.pushedPointer.lhu ≠ 0) :
    ∃ p, doPUSHJ.run s = .ok (.iJump, p) ∧
      p.word = ((s.setWord (({ s with flags := s.flags.clearForCall } : Cpu).saved true)
        s.stackSlot).setAC s.pushedPointer s.iw.ac).word ∧ p.flags = s.callFlags := by
  let s1 : Cpu := { s with flags := s.flags.clearForCall }
  have hlocal : s1.HasLocalStack := hasLocalStack hpc hroom
  obtain ⟨running, hpush⟩ := run_push_local (s1.saved true) hlocal
  have hword : s1.setWord (s1.saved true) s.stackSlot =
      { s.setWord (s1.saved true) s.stackSlot with flags := s1.flags } :=
    setWord_with_flags s _ _ s1.flags
  have hflags : (s1.setWord (s1.saved true) s.stackSlot).flags = s.flags.clearForCall :=
    setWord_flags _ _ _
  have hin : (s1.setWord (s1.saved true) s.stackSlot).inInterrupt = s.inInterrupt :=
    setWord_inInterrupt _ _ _
  refine ⟨_, run_doPUSHJ_of_push hpc hpush, ?_, ?_⟩
  · change ((s1.setWord (s1.saved true) s.stackSlot).setAC s.pushedPointer s.iw.ac).word = _
    rw [hword]
    rfl
  · change (if (s1.setWord (s1.saved true) s.stackSlot).inInterrupt then
      { (s1.setWord (s1.saved true) s.stackSlot).flags with usr := false, pub := false }
      else (s1.setWord (s1.saved true) s.stackSlot).flags) = _
    rw [hflags, hin]
    rfl

/-- PUSHJ on such a stack saves the return address at the new stack pointer, unless that is
the accumulator with the pointer itself. -/
lemma saved_of_doPUSHJ {s t : Cpu} {r : IResult} (hin : s.inInterrupt = false)
    (hstack : s.HasLocalStack)
    (hslot : ¬ (s.pushedPointer.rhu < 0o20 ∧ s.pushedPointer.rhu.setWidth 4 = s.iw.ac))
    (h : doPUSHJ.run s = .ok (r, t)) : (t.word s.pushedPointer.rhu).rhu = s.pc.rhu + 1 := by
  let s1 : Cpu := { s with flags := s.flags.clearForCall }
  have hclear : (modifyFlags .clearForCall).run s = .ok ((), s1) := rfl
  obtain ⟨running, hpush⟩ := run_push_local (s1.saved s1.pc.isSection0) (s := s1) hstack
  rw [doPUSHJ, run_bind_of_ok hclear, run_bind_of_ok (run_gets Cpu.pc s1),
    run_bind_of_ok (run_savedPC _ s1), run_bind_of_ok hpush,
    run_bind_of_ok (run_enterExecInInterrupt _)] at h
  cases h
  change (((s1.setWord (s1.saved s1.pc.isSection0) s.pushedPointer.rhu).setAC s.pushedPointer
    s.iw.ac).word s.pushedPointer.rhu).rhu = _
  rw [word_setAC_of_ne hslot, word_setWord]
  exact rhu_saved (s := s1) hin _

/-! ### PUSH -/

lemma ops_PUSH : ops 0o261 = doPUSH := ops_of_mem <| by
  simp [installs, installJumpGroup]

/-- PUSH stores its operand in the slot, and the pointer. -/
lemma run_doPUSH {s : Cpu} (hpc : s.pc.isSection0 = true) (hroom : s.pushedPointer.lhu ≠ 0) :
    ∃ running, doPUSH.run s = .ok (.iNormal,
      { (s.setWord (s.word s.ea.rhu) s.stackSlot).setAC s.pushedPointer s.iw.ac with
        running := running }) := by
  let s1 := s.hit s.addressGBPs s.ea.vma.toNat
  have hlocal : s1.HasLocalStack := hasLocalStack hpc hroom
  obtain ⟨running, hpush⟩ := run_push_local (s.word s.ea.rhu) hlocal
  have hword : s1.setWord (s.word s.ea.rhu) s.stackSlot =
      { s.setWord (s.word s.ea.rhu) s.stackSlot with running := s1.running } :=
    setWord_running s _ _ s1.running
  rw [doPUSH, run_bind_of_ok (run_memGet s), run_bind_of_ok hpush]
  refine ⟨running, ?_⟩
  change Except.ok (IResult.iNormal, { (s1.setWord (s.word s.ea.rhu) s.stackSlot).setAC
    s.pushedPointer s.iw.ac with running := running }) = _
  rw [hword]
  rfl

/-! ### A pop -/

/-- The stack pointer after a pop. -/
def Cpu.poppedPointer (s : Cpu) : W36 :=
  W36.halves ((s.acs s.iw.ac).lhu - 1) ((s.acs s.iw.ac).rhu - 1)

/-- The word that the stack pointer names. -/
def Cpu.stackTop (s : Cpu) : W36 := s.word (s.acs s.iw.ac).rhu

/-- A pop from a local stack steps both halves back. -/
lemma run_pop_of_local {s : Cpu} (h : s.LocalStack) :
    ∃ running, pop.run s = .ok (s.stackTop,
      { s.setAC s.poppedPointer s.iw.ac with
        running := running
        flags := if s.poppedPointer.lhs = -1 then s.flags.trap2 else s.flags }) := by
  obtain ⟨running, hget⟩ := exists_run_memGetN (W36.halves 0 s.acOperand.rhu) s
  rw [W36.rhu_halves] at hget
  let t : Cpu := { s with running := running }
  have htrap :
      (if s.poppedPointer.lhs = -1 then modifyFlags .trap2 else pure () : Exec Unit).run t =
        .ok ((), { t with
          flags := if s.poppedPointer.lhs = -1 then s.flags.trap2 else s.flags }) := by
    split <;> rfl
  have hrun := run_acPut s.poppedPointer
    { t with flags := if s.poppedPointer.lhs = -1 then s.flags.trap2 else s.flags }
  rw [pop, run_bind_of_ok (run_acGet s), run_bind_of_ok (run_localStack s), decide_eq_true h,
    if_pos rfl]
  exact ⟨running, (run_bind_of_ok hget).trans ((run_bind_of_ok htrap).trans (run_bind_of_ok hrun))⟩

/-- In section 0 every stack is one. -/
lemma run_pop_local {s : Cpu} (hpc : s.pc.isSection0 = true) :
    ∃ running flags, pop.run s = .ok (s.stackTop,
      { s.setAC s.poppedPointer s.iw.ac with running := running, flags := flags }) := by
  obtain ⟨running, hrun⟩ := run_pop_of_local (.inl hpc)
  exact ⟨running, _, hrun⟩

/-! ### POP and POPJ -/

lemma ops_POP : ops 0o262 = doPOP := ops_of_mem <| by
  simp [installs, installJumpGroup]

lemma ops_POPJ : ops 0o263 = doPOPJ := ops_of_mem <| by
  simp [installs, installJumpGroup]

/-- POP stores the word at its address after the pointer. -/
lemma run_doPOP {s : Cpu} (hpc : s.pc.isSection0 = true) :
    ∃ running flags, doPOP.run s = .ok (.iNormal,
      { (s.setAC s.poppedPointer s.iw.ac).setWord s.stackTop s.ea.rhu with
        running := running, flags := flags }) := by
  obtain ⟨running, flags, hpop⟩ := run_pop_local hpc
  let s1 := s.setAC s.poppedPointer s.iw.ac
  let s2 : Cpu := { s1 with running := running, flags := flags }
  let s3 := s2.setWord s.stackTop s.ea.rhu
  have hword : s3 = { s1.setWord s.stackTop s.ea.rhu with running := running, flags := flags } := by
    change ({ ({ s1 with running := running } : Cpu) with flags := flags } : Cpu).setWord _ _ = _
    rw [setWord_with_flags, setWord_running]
  refine ⟨(s3.hit s3.addressPBPs s.ea.vma.toNat).running, flags, ?_⟩
  rw [doPOP, run_bind_of_ok hpop, run_bind_of_ok (run_memPut _ _)]
  change Except.ok (IResult.iNormal, s3.hit s3.addressPBPs s.ea.vma.toNat) = _
  rw [hword]
  rfl

/-- POPJ jumps to the right half of the word. -/
lemma run_doPOPJ {s : Cpu} (hpc : s.pc.isSection0 = true) :
    ∃ running flags, doPOPJ.run s = .ok (.iJump,
      { s.setAC s.poppedPointer s.iw.ac with
        running := running, flags := flags, ea := s.ea.setRhu s.stackTop.rhu }) := by
  obtain ⟨running, flags, hpop⟩ := run_pop_local hpc
  refine ⟨running, flags, ?_⟩
  rw [doPOPJ, run_bind_of_ok hpop]
  rfl

end KM10
