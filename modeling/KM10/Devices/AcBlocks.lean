import KM10.Effects.Address
import KM10.Effects.OnDevice
import KM10.Library.Trace

/-!
The blocks of accumulators.

The machine has a pointer to the current block, which follows the process context.

* `AtCurrentBlock`: the pointer is at the block of the process context;
* `Switches`: what a handler may do to the blocks, and `switches_of_ops`: every handler does;
* `Pass`: a pass of the loop, with or without the debugger;
* `BlockStep`, `blockStep_of_pass`: a pass changes accumulators of the current block, and an
  interrupt one of block 7;
* `ac_blocks_isolated`: so a block that is not selected stays as it is.
-/

namespace KM10

open StateExcept

/-- The pointer is at the block of the process context. -/
def AtCurrentBlock (s : Cpu) : Prop := s.AC = s.pag.processContext.curACBlock

/-! ### One instruction -/

/-- A change within the current block, after which another one may be current. -/
structure Switches (s t : Cpu) : Prop where
  tracks : AtCurrentBlock s → AtCurrentBlock t
  blocks : ∀ b, b ≠ s.AC → t.ACBlocks b = s.ACBlocks b

lemma OnDevice.switches {D : DeviceName} {s t : Cpu} (h : OnDevice D s t) : Switches s t where
  tracks hs := by rw [AtCurrentBlock, h.AC, h.processContext, hs]
  blocks := h.blocks

/-- A change without a switch may come first. -/
lemma Switches.after {D : DeviceName} {s t u : Cpu} (hst : OnDevice D s t) (htu : Switches t u) :
    Switches s u where
  tracks hs := htu.tracks (hst.switches.tracks hs)
  blocks b hb := (htu.blocks b (hst.AC ▸ hb)).trans (hst.blocks b hb)

/-- The load of a process context takes its block if it selects one. -/
lemma curACBlock_load (c newContext : ProcessContext) :
    (c.load newContext).curACBlock =
      if newContext.selectACBlocks then newContext.curACBlock else c.curACBlock := by
  rw [ProcessContext.load]
  cases newContext.loadUserBase <;> cases newContext.selectPrevContext <;>
    cases newContext.selectACBlocks <;> rfl

/-- The DATAO of the pager switches to the block that it puts into the process context. -/
lemma switches_of_doPAGDATAO {s t : Cpu} {r : IResult} (h : doPAGDATAO.run s = .ok (r, t)) :
    Switches s t := by
  rw [doPAGDATAO, run_bind_of_ok (run_memGet s)] at h
  obtain ⟨_, u, hload, h⟩ := ok_of_run_bind h
  obtain ⟨_, v, hswitch, h⟩ := ok_of_run_bind h
  cases h
  cases hload
  have hcur := curACBlock_load s.pag.processContext (.ofBits (s.word s.ea.rhu))
  split at hswitch
  case isTrue hselect =>
    cases hswitch
    rw [if_pos hselect] at hcur
    exact ⟨fun _ => hcur.symm, fun _ _ => rfl⟩
  case isFalse hselect =>
    cases hswitch
    rw [if_neg hselect] at hcur
    exact ⟨fun hs => hs.trans hcur.symm, fun _ _ => rfl⟩

/-- An I/O reset leaves the process context. -/
lemma putAPRConditions_processContext (d : Devices) (v : BitVec 18) :
    (d.putAPRConditions v).pag.processContext = d.pag.processContext := by
  rw [Devices.putAPRConditions]
  split <;> rfl

/-- Every I/O instruction switches at most. -/
lemma switches_of_handleIO {dev : DeviceName} {ioOp : IOOp} {ea : W36} {s t : Cpu} {r : IResult}
    (h : handleIO dev ioOp ea s = .ok (r, t)) : Switches s t := by
  by_cases hload : ioOp.loadsContext dev
  · obtain ⟨rfl, rfl | rfl⟩ := hload
    · exact switches_of_doPAGDATAO h
    · -- BLKO steps its pointer before it switches
      obtain ⟨_, u, hfirst, h⟩ := ok_of_run_bind h
      cases hfirst
      obtain ⟨e, u, hpointer, h⟩ := ok_of_run_bind h
      obtain ⟨r', v, hload, h⟩ := ok_of_run_bind h
      cases h
      have hplain : Frames (OnDevice .pag) stepPointer := Holds.frames _ inferInstance
      exact (switches_of_doPAGDATAO hload).after (hplain.out hpointer)
  · by_cases hreset : ioOp.resets dev ea
    · obtain ⟨rfl, rfl, -⟩ := hreset
      cases h
      exact ⟨fun hs => hs.trans (congrArg _ (putAPRConditions_processContext _ _).symm),
        fun _ _ => rfl⟩
    · exact ((handleIO_frames hload hreset).out h).switches

/-- **Every instruction** changes the current block only, and leaves the pointer at the block of
the process context. -/
lemma switches_of_ops {op : ℕ} (hop : op < 0o1000) {s t : Cpu} {r : IResult}
    (h : (ops op).run s = .ok (r, t)) : Switches s t := by
  by_cases hdevice : op < 0o700
  · exact ((frames_ops_onDevice hdevice).out h).switches
  · rw [ops_io (not_lt.mp hdevice) hop, doIO, run_bind_of_ok (run_gets Cpu.iw s),
      run_bind_of_ok (run_gets Cpu.ea s)] at h
    exact switches_of_handleIO h

/-! ### One pass -/

/-- A pass of the loop, whichever way the debugger is left if it is entered. -/
def Pass (s : Cpu) (outcome : Outcome) (t : Cpu) : Prop :=
  ∃ command, (pass command).run s = .ok (outcome, t)

/-- The fetch changes the word of a granted interrupt at most. -/
lemma fetched_ACBlocks (s : Cpu) {b : BitVec 3} {n : BitVec 4}
    (h : ¬ (b = 7 ∧ n = 3 ∧ s.cycle = .interrupt)) : s.fetched.ACBlocks b n = s.ACBlocks b n := by
  cases hcycle : s.cycle with
  | normal => rw [fetched_ACBlocks_of_normal hcycle]
  | trap =>
      change s.swept.entered.ACBlocks b n = s.ACBlocks b n
      rw [Cpu.entered, swept_trapDue, if_pos (cycle_eq_trap_iff.mp hcycle)]
      rfl
  | interrupt =>
      have hother : ¬ (b = 7 ∧ n = 3) := fun hword => h ⟨hword.1, hword.2, hcycle⟩
      change s.swept.entered.ACBlocks b n = s.ACBlocks b n
      rw [(entered_of_interrupt hcycle).2]
      change s.swept.granted.ACBlocks b n = s.ACBlocks b n
      rw [Cpu.granted]
      split
      · rfl
      · exact if_neg hother

/-- What a pass does to the blocks. -/
structure BlockStep (s t : Cpu) : Prop where
  tracks : AtCurrentBlock s → AtCurrentBlock t
  blocks : ∀ b n, t.ACBlocks b n ≠ s.ACBlocks b n →
    b = s.AC ∨ (b = 7 ∧ n = 3 ∧ s.cycle = .interrupt)

/-- From the fetched state on, a pass must keep to the current block. -/
lemma blockStep_of_switches {s t : Cpu} (h : Switches s.fetched t) : BlockStep s t where
  tracks hs := h.tracks <| by rw [AtCurrentBlock, fetched_AC, fetched_pag, hs]
  blocks b n hne := by
    by_contra hb
    rw [not_or] at hb
    rw [h.blocks b (by rw [fetched_AC]; exact hb.1), fetched_ACBlocks s hb.2] at hne
    exact hne rfl

/-- The end of an instruction does not concern the blocks. -/
lemma Switches.retire {s t : Cpu} (h : Switches s t) (r : IResult) : Switches s (t.retire r) where
  tracks hs := by
    rw [AtCurrentBlock, retire_AC, retire_toDevices]
    exact h.tracks hs
  blocks b hb := by rw [retire_ACBlocks, h.blocks b hb]

/-- An instruction of a run switches at most. -/
lemma switches_of_step {s t : Cpu} {label : Cycle × IResult} (h : Step s label t) :
    Switches s.fetched t := by
  obtain ⟨-, last, running, nSteps, v, -, hop, rfl⟩ := exists_of_step h
  have hv : Switches (s.dispatched last running nSteps) v :=
    switches_of_ops s.fetchWord.op.isLt hop
  have hfetched : Switches s.fetched v := ⟨hv.tracks, hv.blocks⟩
  exact hfetched.retire _

/-- Nothing that concerns the blocks has changed. -/
structure SameBlocks (s t : Cpu) : Prop where
  ACBlocks : t.ACBlocks = s.ACBlocks
  AC : t.AC = s.AC
  pag : t.pag = s.pag

lemma SameBlocks.switches {s t : Cpu} (h : SameBlocks s t) : Switches s t where
  tracks hs := by rw [AtCurrentBlock, h.AC, h.pag, hs]
  blocks _ _ := by rw [h.ACBlocks]

/-- An execution does not end without an instruction. -/
lemma executed_of_run_execute {cycle : Cycle} {s t : Cpu} {outcome : Outcome}
    (h : (execute cycle).run s = .ok (outcome, t)) :
    ∃ result, outcome = .executed cycle result := by
  obtain ⟨_, _, result, _, -, houtcome, -⟩ := executed_of_execute h
  exact ⟨result, houtcome⟩

/-- The debugger is left with an instruction, or without a change of the devices and blocks. -/
lemma sameBlocks_of_debug {cycle : Cycle} {command : DebugCommand} {s t : Cpu} {outcome : Outcome}
    (h : (debug cycle command).run s = .ok (outcome, t)) :
    (∃ result, outcome = .executed cycle result) ∨ t.toDevices = s.toDevices ∧ SameBlocks s t := by
  cases command with
  | step n =>
      rw [debug, run_bind_of_ok (run_resume n s)] at h
      exact .inl (executed_of_run_execute h)
  | «continue» =>
      rw [debug, run_bind_of_ok (run_resume 0 s)] at h
      exact .inl (executed_of_run_execute h)
  | _ =>
      cases h
      exact .inr ⟨rfl, rfl, rfl, rfl⟩

/-- A pass executes an instruction, or its fetch is all that concerns the devices and blocks. -/
lemma Pass.executed_or_sameBlocks {s t : Cpu} {outcome : Outcome} (h : Pass s outcome t) :
    (∃ result, outcome = .executed s.cycle result) ∨
      t.toDevices = s.fetched.toDevices ∧ SameBlocks s.fetched t := by
  obtain ⟨command, h⟩ := h
  rw [run_pass] at h
  split at h
  · exact .inl (executed_of_run_execute h)
  · exact sameBlocks_of_debug h

lemma Pass.step_or_sameBlocks {s t : Cpu} {outcome : Outcome} (h : Pass s outcome t) :
    (∃ label, Step s label t) ∨ t.toDevices = s.fetched.toDevices ∧ SameBlocks s.fetched t := by
  refine h.executed_or_sameBlocks.imp ?_ id
  rintro ⟨result, rfl⟩
  exact ⟨(s.cycle, result), h⟩

/-- **A pass** changes the current block and the word of a granted interrupt only. -/
theorem blockStep_of_pass {s t : Cpu} {outcome : Outcome} (h : Pass s outcome t) :
    BlockStep s t := by
  refine blockStep_of_switches ?_
  obtain ⟨label, hstep⟩ | ⟨-, hsame⟩ := h.step_or_sameBlocks
  · exact switches_of_step hstep
  · exact hsame.switches

/-! ### The switch -/

/-- The word is a DATAO for the pager. -/
structure W36.IsPAGDATAO (w : W36) : Prop where
  op : 0o700 ≤ w.op.toNat
  ioDev : DeviceName.ofIODev w.ioDev = .pag
  ioOp : IOOp.ofBits w.ioOp = .DATAO

/-- The DATAO of the pager changes no accumulator. -/
lemma doPAGDATAO_ACBlocks {s t : Cpu} {r : IResult} (h : doPAGDATAO.run s = .ok (r, t)) :
    t.ACBlocks = s.ACBlocks := by
  rw [doPAGDATAO, run_bind_of_ok (run_memGet s)] at h
  obtain ⟨_, u, hload, h⟩ := ok_of_run_bind h
  obtain ⟨_, v, hswitch, h⟩ := ok_of_run_bind h
  cases h
  cases hload
  split at hswitch <;> cases hswitch <;> rfl

/-- A pass that fetches it leaves the blocks as its fetch does. -/
lemma ACBlocks_of_IsPAGDATAO {s t : Cpu} {outcome : Outcome} (h : Pass s outcome t)
    (hw : s.fetchWord.IsPAGDATAO) : t.ACBlocks = s.fetched.ACBlocks := by
  obtain ⟨label, hstep⟩ | ⟨-, hsame⟩ := h.step_or_sameBlocks
  · obtain ⟨-, last, running, nSteps, v, -, hop, rfl⟩ := exists_of_step hstep
    rw [ops_io hw.op s.fetchWord.op.isLt, run_doIO_eq, dispatched_iw, hw.ioDev, hw.ioOp] at hop
    rw [retire_ACBlocks, doPAGDATAO_ACBlocks hop]
    rfl
  · exact hsame.ACBlocks

/-! ### References to memory -/

/-- References to the addresses below 020 are to the block of the process context. -/
structure FollowsCurrentBlock (s : Cpu) : Prop where
  reads : ∀ a : W36, a.rhu < 0o20 → ∃ t,
    (memGetN a).run s = .ok (s.ACBlocks s.pag.processContext.curACBlock (a.rhu.setWidth 4), t) ∧
      t.ACBlocks = s.ACBlocks
  writes : ∀ v a : W36, a.rhu < 0o20 → ∃ t, (memPutN v a).run s = .ok ((), t) ∧
    t.memP = s.memP ∧ t.ACBlocks = fun b n =>
      if b = s.pag.processContext.curACBlock ∧ n = a.rhu.setWidth 4 then v else s.ACBlocks b n

/-- It is enough that the pointer is at that block. -/
lemma AtCurrentBlock.follows {s : Cpu} (h : AtCurrentBlock s) : FollowsCurrentBlock s where
  reads a ha := by
    have hword : s.word a.rhu = s.ACBlocks s.pag.processContext.curACBlock (a.rhu.setWidth 4) := by
      rw [Cpu.word, if_pos ha, Cpu.acs, h]
    rw [run_memGetN, hword]
    exact ⟨_, rfl, rfl⟩
  writes v a ha := by
    have hset : s.setWord v a.rhu = s.setAC v (a.rhu.setWidth 4) := if_pos ha
    rw [run_memPutN, hset, ← h]
    exact ⟨_, rfl, rfl, rfl⟩

/-! ### Runs -/

/-- What the blocks go through in a pass of a run. -/
structure BlockPass (x : TraceStep Cpu Outcome) : Prop where
  /-- The pointer is at the block of the process context. -/
  current : AtCurrentBlock x.post
  /-- Accumulators of another block stay, the word of a granted interrupt apart. -/
  blocks : ∀ b n, x.post.ACBlocks b n ≠ x.pre.ACBlocks b n →
    b = x.pre.AC ∨ (b = 7 ∧ n = 3 ∧ x.pre.cycle = .interrupt)
  /-- The instruction refers to the current block, -/
  fetched : FollowsCurrentBlock x.pre.fetched
  /-- and so does what follows it. -/
  follows : FollowsCurrentBlock x.post

lemma AtCurrentBlock.fetched {s : Cpu} (h : AtCurrentBlock s) : AtCurrentBlock s.fetched := by
  rw [AtCurrentBlock, fetched_AC, fetched_pag, h]

/-- Passes that start in another block, or switch away from block `i`, leave it as it is. -/
lemma ACBlocks_final {i : BitVec 3} (hi : i ≠ 7) {s : Cpu} {steps : List (TraceStep Cpu Outcome)}
    (h : Trace Pass s steps)
    (hother : ∀ x ∈ steps, x.pre.AC = i → x.pre.fetchWord.IsPAGDATAO) :
    (Trace.final s steps).ACBlocks i = s.ACBlocks i := by
  refine (h.restrict hother).final_of_invariant (I := fun t => t.ACBlocks i = s.ACBlocks i) ?_ rfl
  rintro u outcome t hu ⟨hpass, hswitch⟩
  rw [← hu]
  funext n
  have hgrant : ¬ (i = 7 ∧ n = 3 ∧ u.cycle = .interrupt) := fun hword => hi hword.1
  by_cases hcurrent : u.AC = i
  · rw [ACBlocks_of_IsPAGDATAO hpass (hswitch hcurrent), fetched_ACBlocks u hgrant]
  · by_contra hne
    rcases (blockStep_of_pass hpass).blocks i n hne with heq | hword
    · exact hcurrent heq.symm
    · exact hgrant hword

/-- **The blocks are isolated**: from the start on the pointer is at the block of the process
context, an accumulator changes in the current block only (or is that of a granted interrupt), and
while no instruction but a switch runs in a block it keeps all its accumulators. -/
theorem ac_blocks_isolated {s : Cpu} (hs : s.toDevices = .initial) (hAC : s.AC = 0)
    {steps : List (TraceStep Cpu Outcome)} (h : Trace Pass s steps) :
    (∀ x ∈ steps, BlockPass x) ∧
      ∀ i ≠ 7, ∀ before between after, steps = before ++ between ++ after →
        (∀ x ∈ between, x.pre.AC = i → x.pre.fetchWord.IsPAGDATAO) →
        (Trace.final s (before ++ between)).ACBlocks i = (Trace.final s before).ACBlocks i := by
  have hstart : AtCurrentBlock s := by
    rw [AtCurrentBlock, hAC, hs]
    rfl
  constructor
  · have hstep {s t : Cpu} {outcome : Outcome} (hs : AtCurrentBlock s) (hpass : Pass s outcome t)
        (_ : True) : AtCurrentBlock t ∧ BlockPass ⟨s, outcome, t⟩ := by
      have hblocks := blockStep_of_pass hpass
      have ht := hblocks.tracks hs
      exact ⟨ht, ht, hblocks.blocks, hs.fetched.follows, ht.follows⟩
    intro x hx
    exact (h.invariant hstep hstart (fun _ _ => trivial) x hx).2.2
  · rintro i hi before between after rfl hother
    obtain ⟨hboth, -⟩ := Trace.append_iff.mp h
    rw [Trace.final_append, ACBlocks_final hi (Trace.append_iff.mp hboth).2 hother]

/-- A program at 01000 that selects block 1, stores there and selects block 0 again. -/
def Cpu.switching : Cpu :=
  { Cpu.initial with
    pc := 0o1000
    fetchPC := 0o1000
    running := true
    ACBlocks := fun b n => W36.ofNat (8 * n.toNat + b.toNat)
    memP := fun a =>
      if a = 0o1000 then 0o701540002000
      else if a = 0o1001 then 0o201040000005
      else if a = 0o1002 then 0o701540002001
      else if a = 0o2000 then 0o020040000000
      else 0o020000000000 }

/-- Its three passes. -/
def switchingRun : List (TraceStep Cpu Outcome) :=
  [⟨Cpu.switching, .executed .normal .iNormal, Cpu.switching.next⟩,
    ⟨Cpu.switching.next, .executed .normal .iNormal, Cpu.switching.next.next⟩,
    ⟨Cpu.switching.next.next, .executed .normal .iNormal, Cpu.switching.next.next.next⟩]

theorem ac_blocks_isolated_switching :
    (Trace.final Cpu.switching switchingRun).ACBlocks 0 = Cpu.switching.ACBlocks 0 := by
  have hrun : Trace Pass Cpu.switching switchingRun :=
    .cons (@step_next _ (.normal, .iNormal) (by decide +kernel))
      (.cons (@step_next _ (.normal, .iNormal) (by decide +kernel))
        (.cons (@step_next _ (.normal, .iNormal) (by decide +kernel)) (.nil _)))
  have hkeeps := (ac_blocks_isolated rfl rfl hrun).2 0 (by decide) [] switchingRun []
    (List.append_nil _).symm
  rw [List.nil_append, Trace.final] at hkeeps
  refine hkeeps ?_
  rw [switchingRun, List.forall_mem_cons, List.forall_mem_cons, List.forall_mem_singleton]
  refine ⟨fun _ => ⟨by decide, by decide, by decide⟩, fun h => ?_, fun h => ?_⟩
  · exact absurd h (by decide +kernel)
  · exact absurd h (by decide +kernel)

end KM10
