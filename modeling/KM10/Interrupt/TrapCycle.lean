import KM10.Interrupt.Service
import KM10.Library.Trace

/-!
The trap cycle, which executes the instruction at a trap address.

A pass is a trap cycle as long as TR1 or TR2 is set and the pager is on.  The loop itself never
clears the two flags, so that a trap goes on until an instruction clears them, as some jumps do.

* `TakenOnce`: what the trap cycle is meant to leave behind;
* `LeavesTraps`: an instruction that does not touch the trap flags, such as JFCL
  (`leavesTraps_JFCL`);
* `step_trap`: after such an instruction the same trap is due;
* `trap_never_taken_once`: so a run of them is one of trap cycles, by induction on the run;
* `trap_repeats`: an overflow trap with JFCL at its address.
-/

namespace KM10

open StateExcept

/-! ### What a trap cycle is meant to do -/

/-- The trap of `s` is done with in `t`: its flags are clear, the machine is out of the interrupt
state, and the next pass is no trap cycle but fetches the instruction at the PC of `s`, the one
after the instruction that trapped. -/
structure TakenOnce (s t : Cpu) : Prop where
  tr1 : t.flags.tr1 = false
  tr2 : t.flags.tr2 = false
  inInterrupt : t.inInterrupt = false
  once : t.cycle ≠ .trap
  continues : t.fetched.fetchPC.vma = s.pc.vma

/-- The instruction that a pass from `s` executes with the result `r` does not touch the trap
flags: its handler keeps them. -/
def LeavesTraps (s : Cpu) (r : IResult) : Prop :=
  ∀ last running nSteps v, LastLink s.fetched s.fetchWord last →
    (ops s.fetchWord.op.toNat).run (s.dispatched last running nSteps) = .ok (r, v) →
      v.flags.tr1 = s.flags.tr1 ∧ v.flags.tr2 = s.flags.tr2

lemma ops_JFCL : ops 0o255 = doJFCL := ops_of_mem <| by
  simp [installs, installJumpGroup]

/-- JFCL with no flag to test clears none. -/
lemma clearTested_zero (f : ProgramFlags) : f.clearTested 0 = f := by
  rw [ProgramFlags.clearTested]
  change ProgramFlags.ofU (f.u &&& BitVec.allOnes 13) = f
  rw [BitVec.and_allOnes, ProgramFlags.ofU_u]

/-- JFCL 0 leaves the machine alone. -/
lemma leavesTraps_JFCL {s : Cpu} (hop : s.fetchWord.op.toNat = 0o255)
    (hac : s.fetchWord.ac = 0) (r : IResult) : LeavesTraps s r := by
  intro last running nSteps v _ hrun
  rw [hop, ops_JFCL, doJFCL, run_bind_of_ok (run_gets Cpu.iw _),
    run_bind_of_ok (run_gets Cpu.flags _), dispatched_iw, hac] at hrun
  cases hrun
  have hflags : (s.dispatched last running nSteps).flags.clearTested 0 = s.flags := by
    rw [clearTested_zero, dispatched_flags]
  exact ⟨congrArg ProgramFlags.tr1 hflags, congrArg ProgramFlags.tr2 hflags⟩

/-! ### The trap cycle -/

/-- The trap of `s`, with the pager on, is due in every state with the same trap flags. -/
lemma trapDue_of_flags {s t : Cpu} (hdue : s.trapDue = true) (htr1 : t.flags.tr1 = s.flags.tr1)
    (htr2 : t.flags.tr2 = s.flags.tr2) (hpager : t.pag.pagerEnabled = true) :
    t.trapDue = true := by
  rw [Cpu.trapDue, Bool.and_eq_true] at hdue
  rw [Cpu.trapDue, htr1, htr2, hdue.1, hpager]
  rfl

/-- An instruction that does not touch the trap flags leaves them to the next pass, whatever its
result: the end of the pass does not clear them. -/
lemma flags_of_step {s t : Cpu} {label : Cycle × IResult} (h : Step s label t)
    (hleaves : LeavesTraps s label.2) :
    t.flags.tr1 = s.flags.tr1 ∧ t.flags.tr2 = s.flags.tr2 := by
  obtain ⟨-, last, running, nSteps, v, hlast, hop, rfl⟩ := exists_of_step h
  rw [retire_flags]
  exact hleaves last running nSteps v hlast hop

/-- **One trap cycle**: a pass from a state with a trap due is one, and after an instruction that
does not touch the trap flags it has not done with the trap. -/
lemma step_trap {s t : Cpu} {label : Cycle × IResult} (h : Step s label t)
    (hdue : s.trapDue = true) (hleaves : LeavesTraps s label.2) :
    label.1 = .trap ∧ ¬ TakenOnce s t := by
  refine ⟨(exists_of_step h).1.trans (cycle_eq_trap_iff.mpr hdue), fun htaken => ?_⟩
  obtain ⟨htr1, htr2⟩ := flags_of_step h hleaves
  rw [Cpu.trapDue, ← htr1, ← htr2, htaken.tr1, htaken.tr2] at hdue
  cases hdue

/-! ### A run -/

/-- **A trap is never taken once**: as long as no instruction touches the trap flags and the
pager stays on, every pass of a run from a state with a trap due executes the word of this trap
again, and none of them is done with it. -/
theorem trap_never_taken_once {s : Cpu} {steps : List (TraceStep Cpu (Cycle × IResult))}
    (h : Trace Step s steps) (hdue : s.trapDue = true)
    (hleaves : ∀ x ∈ steps, LeavesTraps x.pre x.label.2)
    (hpager : ∀ x ∈ steps, x.pre.pag.pagerEnabled = true) :
    ∀ x ∈ steps, x.label.1 = .trap ∧ x.pre.fetched.fetchPC = s.fetched.fetchPC ∧
      ¬ TakenOnce x.pre x.post := by
  -- the invariant: the trap flags are those of the first state
  have hrun := h.invariant (I := fun u => u.flags.tr1 = s.flags.tr1 ∧ u.flags.tr2 = s.flags.tr2)
    (C := fun x => LeavesTraps x.pre x.label.2 ∧ x.pre.pag.pagerEnabled = true)
    (Q := fun x => x.label.1 = .trap ∧ x.pre.fetched.fetchPC = s.fetched.fetchPC ∧
      ¬ TakenOnce x.pre x.post)
    (fun hI hstep hC => ?_) ⟨rfl, rfl⟩ fun x hx => ⟨hleaves x hx, hpager x hx⟩
  · exact fun x hx => (hrun x hx).2.2
  · rename_i u label v
    have hdue' := trapDue_of_flags hdue hI.1 hI.2 hC.2
    obtain ⟨htr1, htr2⟩ := flags_of_step hstep hC.1
    obtain ⟨hcycle, htaken⟩ := step_trap hstep hdue' hC.1
    refine ⟨⟨htr1.trans hI.1, htr2.trans hI.2⟩, hcycle, ?_, htaken⟩
    rw [fetched_fetchPC_of_trap hdue', fetched_fetchPC_of_trap hdue, hI.1]

/-- A user program about to overflow, with the pager on and a JFCL at the address of its trap. -/
def Cpu.overflowing : Cpu :=
  { Cpu.initial with
    running := true
    flags := { ProgramFlags.none with usr := true }
    pag := { Cpu.initial.pag with pagState := 1 <<< 13 }
    ACBlocks := fun _ n => if n = 1 then BitVec.ofInt 36 (2 ^ 35 - 1) else 0
    memP := fun a =>
      if a = 0o1000 then W36.assemble 0o271 1 false 0 1
      else if a = 0o421 then W36.assemble 0o255 0 false 0 0
      else 0
    pc := 0o1000
    fetchPC := 0o1000 }

/-- The machine after the overflow. -/
def Cpu.trapped : Cpu := Cpu.overflowing.next

lemma step_overflowing : Step Cpu.overflowing (.normal, .iNormal) Cpu.trapped :=
  (step_next (by decide +kernel))

/-- The next two passes of the machine. -/
def Cpu.trapSteps : List (TraceStep Cpu (Cycle × IResult)) :=
  [⟨Cpu.trapped, (.trap, .iNormal), Cpu.trapped.next⟩,
    ⟨Cpu.trapped.next, (.trap, .iNormal), Cpu.trapped.next.next⟩]

lemma trace_trapSteps : Trace Step Cpu.trapped Cpu.trapSteps :=
  .cons (step_next (by decide +kernel))
    (.cons (step_next (by decide +kernel)) (.nil _))

theorem trap_never_taken_once_JFCL :
    Cpu.trapped.next.fetched.fetchPC = Cpu.trapped.fetched.fetchPC ∧
      ¬ TakenOnce Cpu.trapped Cpu.trapped.next ∧
      ¬ TakenOnce Cpu.trapped.next Cpu.trapped.next.next := by
  have hleaves : ∀ x ∈ Cpu.trapSteps, LeavesTraps x.pre x.label.2 := by
    simp only [Cpu.trapSteps, List.forall_mem_cons, List.not_mem_nil, false_imp_iff,
      implies_true, and_true]
    exact ⟨leavesTraps_JFCL (by decide +kernel) (by decide +kernel) _,
      leavesTraps_JFCL (by decide +kernel) (by decide +kernel) _⟩
  have hpager : ∀ x ∈ Cpu.trapSteps, x.pre.pag.pagerEnabled = true := by
    simp only [Cpu.trapSteps, List.forall_mem_cons, List.not_mem_nil, false_imp_iff,
      implies_true, and_true]
    exact ⟨by decide +kernel, by decide +kernel⟩
  have hnever := trap_never_taken_once trace_trapSteps (by decide +kernel) hleaves hpager
  simp only [Cpu.trapSteps, List.forall_mem_cons] at hnever
  exact ⟨hnever.2.1.2.1, hnever.1.2.2, hnever.2.1.2.2⟩

/-- **A trap without end**: a user program overflows, with the pager on and no request pending.
The JFCL at 0421 is executed, and then executed again. -/
theorem trap_repeats :
    ∃ s t u, Step Cpu.overflowing (.normal, .iNormal) s ∧ s.flags.tr1 = true ∧
      s.pag.pagerEnabled = true ∧ s.vector = 0 ∧ Step s (.trap, .iNormal) t ∧
      Step t (.trap, .iNormal) u ∧ t.fetched.fetchPC = eptAddressFor 0o421 ∧
      LeavesTraps s .iNormal ∧ ¬ TakenOnce s t := by
  have hcycle : Cpu.trapped.next.cycle = .trap := by decide +kernel
  exact ⟨_, _, Cpu.trapped.next.next, step_overflowing, by decide +kernel, by decide +kernel,
    vector_eq_zero_iff.mpr (by decide +kernel), (step_next (by decide +kernel)),
    (step_next (by decide +kernel)), by decide +kernel,
    leavesTraps_JFCL (by decide +kernel) (by decide +kernel) _, fun htaken => htaken.once hcycle⟩

end KM10
