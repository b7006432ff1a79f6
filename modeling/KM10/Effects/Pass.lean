import KM10.Effects.Frames

/-!
One pass of the loop, taken apart.

The accessors always return (an accumulator index apart), so that everything a pass does
before it dispatches the instruction is a function of the state.

* `run_memGetN`, `run_memPutN`, `run_acGetPlus`, `run_acPutPlus`: the accessors on a state;
* `Cpu.cycle`, `Cpu.fetched`: the cycle that a pass executes, and the state in which it has
  fetched its instruction;
* `run_pass`: a pass from there on;
* `executed_of_pass`: a pass that executed an instruction dispatched it and retired it.
-/

namespace KM10

open StateExcept

/-! ### The accessors on a state -/

/-- The state after the test of a breakpoint table. -/
def Cpu.hit (s : Cpu) (bps : List ℕ) (a : ℕ) : Cpu :=
  { s with running := s.running && !bps.contains a }

/-- A breakpoint test only stops the machine. -/
lemma run_checkBreakpoint (table : Cpu → List ℕ) (a : ℕ) (s : Cpu) :
    (checkBreakpoint table a).run s = .ok ((), s.hit (table s) a) := by
  rw [checkBreakpoint, run_bind_of_ok (run_gets table s), Cpu.hit]
  cases h : (table s).contains a
  · simp only [Bool.false_eq_true, if_false, Bool.not_false, Bool.and_true]
    rfl
  · simp only [if_true, Bool.not_true, Bool.and_false]
    rfl

/-- An address below 020 is the number of an accumulator. -/
lemma toNat_lt_of_lt {a : BitVec 18} (h : a < 0o20) : a.toNat < 16 := BitVec.lt_def.mp h

/-- A memory access below 020 reads the accumulators. -/
lemma run_memGetN (a : W36) (s : Cpu) :
    (memGetN a).run s = .ok (s.word a.rhu, s.hit s.addressGBPs a.vma.toNat) := by
  have hread : (if a.rhu < 0o20 then acGetEA a.rhu.toNat else peekMem a.rhu).run s =
      .ok (s.word a.rhu, s) := by
    rw [Cpu.word]
    split
    case isTrue h =>
      rw [acGetEA, if_pos (toNat_lt_of_lt h), BitVec.ofNat_toNat]
      rfl
    case isFalse h => rfl
  rw [memGetN, run_bind_of_ok hread, run_bind_of_ok (run_checkBreakpoint _ _ s)]
  rfl

/-- A store below 020 goes to the accumulators. -/
lemma run_memPutN (v a : W36) (s : Cpu) :
    (memPutN v a).run s =
      .ok ((), (s.setWord v a.rhu).hit (s.setWord v a.rhu).addressPBPs a.vma.toNat) := by
  have hwrite : (if a.rhu < 0o20 then acPutN v a.rhu.toNat else pokeMem v a.rhu).run s =
      .ok ((), s.setWord v a.rhu) := by
    rw [Cpu.setWord]
    split
    case isTrue h =>
      rw [acPutN, if_pos (toNat_lt_of_lt h), BitVec.ofNat_toNat]
      rfl
    case isFalse h => rfl
  rw [memPutN, run_bind_of_ok hwrite, run_checkBreakpoint]

/-- A reading at most stops the machine. -/
lemma exists_run_memGetN (a : W36) (s : Cpu) :
    ∃ running, (memGetN a).run s = .ok (s.word a.rhu, { s with running := running }) :=
  ⟨_, run_memGetN a s⟩

/-- A store at most stops the machine beyond storing. -/
lemma exists_run_memPutN (v a : W36) (s : Cpu) :
    ∃ running, (memPutN v a).run s = .ok ((), { s.setWord v a.rhu with running := running }) :=
  ⟨_, run_memPutN v a s⟩

/-- An accumulator within the block. -/
lemma run_acGetPlus {k : ℕ} {s : Cpu} (h : s.iw.ac.toNat + k < 16) :
    (acGetPlus k).run s = .ok (s.acs (s.iw.ac + BitVec.ofNat 4 k), s) := by
  rw [acGetPlus, run_bind_of_ok (run_gets Cpu.iw s), acGetN, if_pos h, run_gets,
    BitVec.ofNat_add, BitVec.ofNat_toNat, BitVec.setWidth_eq]

/-- A store to an accumulator within the block. -/
lemma run_acPutPlus (v : W36) {k : ℕ} {s : Cpu} (h : s.iw.ac.toNat + k < 16) :
    (acPutPlus v k).run s = .ok ((), s.setAC v (s.iw.ac + BitVec.ofNat 4 k)) := by
  rw [acPutPlus, run_bind_of_ok (run_gets Cpu.iw s), acPutN, if_pos h, BitVec.ofNat_add,
    BitVec.ofNat_toNat, BitVec.setWidth_eq]
  rfl

/-- The accumulator that the instruction names. -/
lemma run_acGet (s : Cpu) : acGet.run s = .ok (s.acs s.iw.ac, s) := by
  rw [acGet, run_acGetPlus s.iw.ac.isLt]
  simp only [BitVec.add_zero]

/-- A store to the accumulator that the instruction names. -/
lemma run_acPut (v : W36) (s : Cpu) : (acPut v).run s = .ok ((), s.setAC v s.iw.ac) := by
  rw [acPut, run_acPutPlus v s.iw.ac.isLt]
  simp only [BitVec.add_zero]

/-- The memory operand. -/
lemma run_memGet (s : Cpu) :
    memGet.run s = .ok (s.word s.ea.rhu, s.hit s.addressGBPs s.ea.vma.toNat) := by
  rw [memGet, run_bind_of_ok (run_gets Cpu.ea s), run_memGetN]

/-- A store to the memory operand. -/
lemma run_memPut (v : W36) (s : Cpu) :
    (memPut v).run s =
      .ok ((), (s.setWord v s.ea.rhu).hit (s.setWord v s.ea.rhu).addressPBPs s.ea.vma.toNat) := by
  rw [memPut, run_bind_of_ok (run_gets Cpu.ea s), run_memPutN]

/-! ### Before the fetch -/

/-- A trap cycle is due. -/
def Cpu.trapDue (s : Cpu) : Bool := (s.flags.tr1 || s.flags.tr2) && s.pag.pagerEnabled

/-- The address that `setUpInterruptCycleIfPending` returns. -/
def Cpu.vector (s : Cpu) : W36 :=
  match s.pi.piState.setUpInterruptCycle s.table with
  | none => 0
  | some (highestLevel, _) => eptAddressFor (0o40 + 2 * highestLevel)

/-- The state in which `setUpInterruptCycleIfPending` leaves the machine. -/
def Cpu.granted (s : Cpu) : Cpu :=
  match s.pi.piState.setUpInterruptCycle s.table with
  | none => s
  | some (_, piState) =>
      { s with pi := { s.pi with piState := piState },
               ACBlocks := fun b n => if b = 7 ∧ n = 3 then 0 else s.ACBlocks b n }

lemma run_setUpInterruptCycle (s : Cpu) :
    setUpInterruptCycleIfPending.run s = .ok (s.vector, s.granted) := by
  rw [setUpInterruptCycleIfPending, run_bind_of_ok (run_gets Cpu.toDevices s), Cpu.vector,
    Cpu.granted]
  cases s.pi.piState.setUpInterruptCycle s.table <;> rfl

/-- A granted level is below the current one. -/
lemma lt_of_setUpInterruptCycle {p p' : PIState} {devices : List Device} {level : ℕ}
    (h : p.setUpInterruptCycle devices = some (level, p')) : level < p.currentLevel.toNat := by
  simp only [PIState.setUpInterruptCycle] at h
  split at h
  · cases h
  · split at h
    · cases h
      assumption
    · cases h

/-- It is a number of four bits. -/
lemma level_lt_of_setUpInterruptCycle {p p' : PIState} {devices : List Device} {level : ℕ}
    (h : p.setUpInterruptCycle devices = some (level, p')) : level < 16 :=
  (lt_of_setUpInterruptCycle h).trans p.currentLevel.isLt

/-- No vector word has the address 0. -/
lemma eptAddressFor_ne_zero {level : ℕ} (h : level < 16) :
    eptAddressFor (0o40 + 2 * level) ≠ 0 := by
  intro h0
  have h0 : (0o40 + 2 * level) % 2 ^ 36 = 0 := congrArg BitVec.toNat h0
  omega

/-- The call returns 0 exactly when nothing is granted. -/
lemma vector_eq_zero_iff {s : Cpu} :
    s.vector = 0 ↔ s.pi.piState.setUpInterruptCycle s.table = none := by
  rw [Cpu.vector]
  cases h : s.pi.piState.setUpInterruptCycle s.table with
  | none => exact iff_of_true rfl rfl
  | some grant =>
      exact iff_of_false (eptAddressFor_ne_zero (level_lt_of_setUpInterruptCycle h))
        (Option.some_ne_none grant)

/-- When nothing is granted the machine stays as it is. -/
lemma granted_of_vector {s : Cpu} (h : s.vector = 0) : s.granted = s := by
  rw [Cpu.granted, vector_eq_zero_iff.mp h]

/-- The cycle that `setUpCycle` finds. -/
def Cpu.cycleNow (s : Cpu) : Cycle :=
  if s.trapDue then .trap else if s.vector ≠ 0 then .interrupt else .normal

/-- The state in which `setUpCycle` leaves the machine. -/
def Cpu.entered (s : Cpu) : Cpu :=
  if s.trapDue then
    { s with fetchPC := eptAddressFor (if s.flags.tr1 then 0o421 else 0o422), inInterrupt := true }
  else if s.vector ≠ 0 then { s.granted with fetchPC := s.vector, inInterrupt := true }
  else s.granted

lemma run_setUpCycle (s : Cpu) : setUpCycle.run s = .ok (s.cycleNow, s.entered) := by
  rw [setUpCycle, run_bind_of_ok (run_gets Cpu.flags s), run_bind_of_ok (run_gets Cpu.toDevices s),
    Cpu.cycleNow, Cpu.entered, Cpu.trapDue]
  split
  · rfl
  · rw [run_bind_of_ok (run_setUpInterruptCycle s)]
    split <;> rfl

/-! ### The fetch -/

/-- The state after the sweep timer and the execution breakpoints. -/
def Cpu.swept (s : Cpu) : Cpu :=
  ({ s with toDevices := s.toDevices.handleSweep } : Cpu).hit s.executeBPs s.fetchPC.vma.toNat

/-- The cycle that a pass executes. -/
def Cpu.cycle (s : Cpu) : Cycle := s.swept.cycleNow

/-- The instruction word that a pass fetches. -/
def Cpu.fetchWord (s : Cpu) : W36 := s.swept.entered.word s.swept.entered.fetchPC.rhu

/-- The state in which a pass has fetched its instruction. -/
def Cpu.fetched (s : Cpu) : Cpu :=
  let s' := s.swept.entered
  let s' := s'.hit s'.addressGBPs s'.fetchPC.vma.toNat
  ({ s' with iw := s.fetchWord } : Cpu).hit s'.opBPs s.fetchWord.op.toNat

lemma run_fetch (s : Cpu) :
    fetch.run s.swept.entered = .ok ((), s.fetched) := by
  rw [fetch, run_bind_of_ok (run_gets Cpu.fetchPC _), run_bind_of_ok (run_memGetN _ _)]
  change ((do setIw s.fetchWord; checkBreakpoint Cpu.opBPs s.fetchWord.op.toNat : Exec Unit)).run
    _ = _
  rw [run_bind_of_ok (show (setIw s.fetchWord).run _ = .ok ((), _) from rfl), run_checkBreakpoint]
  rfl

/-- **A pass after its fetch**: it executes the instruction, or the debugger is entered. -/
theorem run_pass (command : DebugCommand) (s : Cpu) :
    (pass command).run s =
      if s.fetched.running then (execute s.cycle).run s.fetched
      else (debug s.cycle command).run s.fetched := by
  rw [pass, run_bind_of_ok (show (modifyDevices _).run s = .ok ((), _) from rfl),
    run_bind_of_ok (run_gets Cpu.fetchPC _), run_bind_of_ok (run_checkBreakpoint _ _ _)]
  change ((do
    let cycle ← setUpCycle
    fetch
    let running ← gets Cpu.running
    if running then execute cycle else debug cycle command : Exec Outcome)).run s.swept = _
  rw [run_bind_of_ok (run_setUpCycle _), run_bind_of_ok (run_fetch s),
    run_bind_of_ok (run_gets Cpu.running _)]
  change (if s.fetched.running then execute s.cycle else debug s.cycle command).run s.fetched = _
  split <;> rfl

/-! ### What the fetch keeps -/

@[simp] lemma swept_flags (s : Cpu) : s.swept.flags = s.flags := rfl
@[simp] lemma swept_pc (s : Cpu) : s.swept.pc = s.pc := rfl
@[simp] lemma swept_fetchPC (s : Cpu) : s.swept.fetchPC = s.fetchPC := rfl
@[simp] lemma swept_inInterrupt (s : Cpu) : s.swept.inInterrupt = s.inInterrupt := rfl
@[simp] lemma swept_memP (s : Cpu) : s.swept.memP = s.memP := rfl
@[simp] lemma swept_ACBlocks (s : Cpu) : s.swept.ACBlocks = s.ACBlocks := rfl
@[simp] lemma swept_AC (s : Cpu) : s.swept.AC = s.AC := rfl

@[simp] lemma granted_flags (s : Cpu) : s.granted.flags = s.flags := by
  rw [Cpu.granted]
  split <;> rfl

@[simp] lemma granted_pc (s : Cpu) : s.granted.pc = s.pc := by
  rw [Cpu.granted]
  split <;> rfl

@[simp] lemma granted_fetchPC (s : Cpu) : s.granted.fetchPC = s.fetchPC := by
  rw [Cpu.granted]
  split <;> rfl

@[simp] lemma granted_inInterrupt (s : Cpu) : s.granted.inInterrupt = s.inInterrupt := by
  rw [Cpu.granted]
  split <;> rfl

@[simp] lemma granted_memP (s : Cpu) : s.granted.memP = s.memP := by
  rw [Cpu.granted]
  split <;> rfl

@[simp] lemma granted_AC (s : Cpu) : s.granted.AC = s.AC := by
  rw [Cpu.granted]
  split <;> rfl

@[simp] lemma entered_flags (s : Cpu) : s.entered.flags = s.flags := by
  rw [Cpu.entered]
  split
  · rfl
  · split <;> simp

@[simp] lemma entered_pc (s : Cpu) : s.entered.pc = s.pc := by
  rw [Cpu.entered]
  split
  · rfl
  · split <;> simp

@[simp] lemma entered_memP (s : Cpu) : s.entered.memP = s.memP := by
  rw [Cpu.entered]
  split
  · rfl
  · split <;> simp

@[simp] lemma entered_AC (s : Cpu) : s.entered.AC = s.AC := by
  rw [Cpu.entered]
  split
  · rfl
  · split <;> simp

@[simp] lemma fetched_flags (s : Cpu) : s.fetched.flags = s.flags := entered_flags _
@[simp] lemma fetched_pc (s : Cpu) : s.fetched.pc = s.pc := entered_pc _
@[simp] lemma fetched_memP (s : Cpu) : s.fetched.memP = s.memP := entered_memP _
@[simp] lemma fetched_AC (s : Cpu) : s.fetched.AC = s.AC := entered_AC _
@[simp] lemma fetched_iw (s : Cpu) : s.fetched.iw = s.fetchWord := rfl
lemma fetched_fetchPC (s : Cpu) : s.fetched.fetchPC = s.swept.entered.fetchPC := rfl
lemma fetched_inInterrupt (s : Cpu) : s.fetched.inInterrupt = s.swept.entered.inInterrupt := rfl

/-- Without a trap or an interrupt the fetch address stays. -/
lemma entered_of_normal {s : Cpu} (h : s.cycleNow = .normal) : s.entered = s.granted := by
  rw [Cpu.cycleNow] at h
  rw [Cpu.entered]
  split at h
  · cases h
  · rw [if_neg (by assumption)]
    split at h
    · cases h
    · rw [if_neg (by assumption)]

/-- The state that an interrupt cycle enters. -/
lemma entered_of_interrupt {s : Cpu} (h : s.cycleNow = .interrupt) :
    s.vector ≠ 0 ∧ s.entered = { s.granted with fetchPC := s.vector, inInterrupt := true } := by
  rw [Cpu.cycleNow] at h
  rw [Cpu.entered]
  split at h
  · cases h
  · rw [if_neg (by assumption)]
    split at h
    case isTrue hvector => exact ⟨hvector, if_pos hvector⟩
    case isFalse => cases h

/-- An interrupt cycle fetches the word at the vector address. -/
lemma fetchPC_of_interrupt {s : Cpu} (h : s.cycle = .interrupt) :
    s.fetched.fetchPC = s.swept.vector := by
  rw [fetched_fetchPC, (entered_of_interrupt h).2]

/-- A normal cycle has no vector. -/
lemma vector_of_normal {s : Cpu} (h : s.cycleNow = .normal) : s.vector = 0 := by
  rw [Cpu.cycleNow] at h
  split at h
  · cases h
  · split at h
    · cases h
    · exact not_not.mp (by assumption)

/-- A normal cycle fetches the word at the fetch address. -/
lemma fetchWord_of_normal {s : Cpu} (h : s.cycle = .normal) :
    s.fetchWord = s.word s.fetchPC.rhu := by
  rw [Cpu.fetchWord, entered_of_normal h, granted_of_vector (vector_of_normal h)]
  rfl

/-- A normal cycle leaves the words as they are. -/
lemma fetched_word_of_normal {s : Cpu} (h : s.cycle = .normal) : s.fetched.word = s.word := by
  change s.swept.entered.word = s.word
  rw [entered_of_normal h, granted_of_vector (vector_of_normal h)]
  rfl

/-- The accumulators of a normal cycle. -/
lemma fetched_acs_of_normal {s : Cpu} (h : s.cycle = .normal) : s.fetched.acs = s.acs := by
  change s.swept.entered.acs = s.acs
  rw [entered_of_normal h, granted_of_vector (vector_of_normal h)]
  rfl

lemma fetched_ACBlocks_of_normal {s : Cpu} (h : s.cycle = .normal) :
    s.fetched.ACBlocks = s.ACBlocks := by
  change s.swept.entered.ACBlocks = s.ACBlocks
  rw [entered_of_normal h, granted_of_vector (vector_of_normal h)]
  rfl

lemma fetched_fetchPC_of_normal {s : Cpu} (h : s.cycle = .normal) :
    s.fetched.fetchPC = s.fetchPC := by
  rw [fetched_fetchPC, entered_of_normal h, granted_fetchPC, swept_fetchPC]

lemma fetched_inInterrupt_of_normal {s : Cpu} (h : s.cycle = .normal) :
    s.fetched.inInterrupt = s.inInterrupt := by
  rw [fetched_inInterrupt, entered_of_normal h, granted_inInterrupt, swept_inInterrupt]

/-- A trap or an interrupt enters the interrupt state. -/
lemma fetched_inInterrupt_of_ne {s : Cpu} (h : s.cycle ≠ .normal) :
    s.fetched.inInterrupt = true := by
  rw [fetched_inInterrupt, Cpu.entered]
  rw [Cpu.cycle, Cpu.cycleNow] at h
  split at h
  · rw [if_pos (by assumption)]
  · rw [if_neg (by assumption)]
    split at h
    · rw [if_pos (by assumption)]
    · exact absurd rfl h

/-- The sweep timer does not concern the pager. -/
@[simp] lemma swept_pag (s : Cpu) : s.swept.pag = s.pag := by
  change s.toDevices.handleSweep.pag = s.pag
  rw [Devices.handleSweep]
  split <;> rfl

lemma granted_pag (s : Cpu) : s.granted.pag = s.pag := by
  rw [Cpu.granted]
  split <;> rfl

/-- Nor do the interrupts. -/
lemma fetched_pag (s : Cpu) : s.fetched.pag = s.pag := by
  change s.swept.entered.pag = s.pag
  rw [Cpu.entered]
  split
  · exact swept_pag s
  · split
    · exact (granted_pag s.swept).trans (swept_pag s)
    · exact (granted_pag s.swept).trans (swept_pag s)

lemma swept_trapDue (s : Cpu) : s.swept.trapDue = s.trapDue := by
  rw [Cpu.trapDue, Cpu.trapDue, swept_flags, swept_pag]

/-- A pass is a trap cycle exactly if one is due. -/
lemma cycle_eq_trap_iff {s : Cpu} : s.cycle = .trap ↔ s.trapDue = true := by
  rw [Cpu.cycle, Cpu.cycleNow, swept_trapDue]
  by_cases hdue : s.trapDue = true
  · rw [if_pos hdue]
    exact iff_of_true rfl hdue
  · rw [if_neg hdue]
    refine iff_of_false (fun h => ?_) hdue
    split at h <;> cases h

/-- A trap cycle fetches the word of its trap, of TR1 if both are set. -/
lemma fetched_fetchPC_of_trap {s : Cpu} (h : s.trapDue = true) :
    s.fetched.fetchPC = eptAddressFor (if s.flags.tr1 then 0o421 else 0o422) := by
  rw [fetched_fetchPC, Cpu.entered, if_pos (by rw [swept_trapDue, h]), swept_flags]

/-- **What a pass fetches**: the word at the fetch address, or one of the words of the EPT for the
two traps and the interrupts. -/
lemma fetched_fetchPC_cases (s : Cpu) :
    s.fetched.fetchPC = s.fetchPC ∨ ∃ n, s.fetched.fetchPC = eptAddressFor n ∧
      (n = 0o421 ∨ n = 0o422 ∨ ∃ level < 16, n = 0o40 + 2 * level) := by
  cases hcycle : s.cycle with
  | normal => exact .inl (fetched_fetchPC_of_normal hcycle)
  | trap =>
      refine .inr ⟨_, fetched_fetchPC_of_trap (cycle_eq_trap_iff.mp hcycle), ?_⟩
      cases s.flags.tr1
      · exact .inr (.inl rfl)
      · exact .inl rfl
  | interrupt =>
      have hvector := (entered_of_interrupt hcycle).1
      rw [fetchPC_of_interrupt hcycle]
      cases hgrant : s.swept.pi.piState.setUpInterruptCycle s.swept.table with
      | none => exact absurd (vector_eq_zero_iff.mpr hgrant) hvector
      | some grant =>
          rw [Cpu.vector, hgrant]
          exact .inr ⟨_, rfl, .inr (.inr ⟨_, level_lt_of_setUpInterruptCycle hgrant, rfl⟩)⟩

/-! ### From the fetch to the end of the pass -/

/-- A state that differs from `u` in the run flag and the step counter only. -/
def Cpu.ticked (u : Cpu) (running : Bool) (nSteps : ℤ) : Cpu :=
  { u with running := running, nSteps := nSteps }

/-- The step counter concerns only itself and the run flag. -/
lemma countStep_ticked (u : Cpu) :
    ∃ running nSteps, countStep.run u = .ok ((), u.ticked running nSteps) := by
  by_cases h : 0 < u.nSteps
  · refine ⟨u.running && 1 < u.nSteps, u.nSteps - 1, ?_⟩
    change Except.ok ((), if 0 < u.nSteps then _ else u) = _
    rw [if_pos h]
    rfl
  · refine ⟨u.running, u.nSteps, ?_⟩
    change Except.ok ((), if 0 < u.nSteps then _ else u) = _
    rw [if_neg h]
    rfl

/-- An execution that returns has dispatched the instruction and retired its result. -/
lemma executed_of_execute {cycle : Cycle} {u t : Cpu} {o : Outcome}
    (h : (execute cycle).run u = .ok (o, t)) :
    ∃ running nSteps result v, dispatch.run (u.ticked running nSteps) = .ok (result, v) ∧
      o = .executed cycle result ∧ t = v.retire result := by
  obtain ⟨running, nSteps, hcount⟩ := countStep_ticked u
  rw [execute, run_bind_of_ok hcount] at h
  obtain ⟨result, v, hd, h⟩ := ok_of_run_bind h
  cases h
  exact ⟨running, nSteps, result, v, hd, rfl, rfl⟩

/-- The user resumes with a number of steps to go. -/
lemma run_resume (n : ℤ) (u : Cpu) : (resume n).run u = .ok ((), u.ticked true n) := rfl

/-- The debugger executes an instruction only when the user resumes. -/
lemma executed_of_debug {cycle cycle' : Cycle} {command : DebugCommand} {u t : Cpu}
    {result : IResult} (h : (debug cycle command).run u = .ok (.executed cycle' result, t)) :
    ∃ n, (execute cycle).run (u.ticked true n) = .ok (.executed cycle' result, t) := by
  cases command with
  | step n =>
      rw [debug, run_bind_of_ok (run_resume n u)] at h
      exact ⟨n, h⟩
  | «continue» =>
      rw [debug, run_bind_of_ok (run_resume 0 u)] at h
      exact ⟨0, h⟩
  | _ => cases h

/-- **A pass that executed an instruction** dispatched it in the fetched state, up to the run
flag and the step counter, and retired its result. -/
theorem executed_of_pass {command : DebugCommand} {s t : Cpu} {cycle : Cycle}
    {result : IResult} (h : (pass command).run s = .ok (.executed cycle result, t)) :
    cycle = s.cycle ∧ ∃ running nSteps v,
      dispatch.run (s.fetched.ticked running nSteps) = .ok (result, v) ∧ t = v.retire result := by
  have hexec : ∃ running nSteps,
      (execute s.cycle).run (s.fetched.ticked running nSteps) =
        .ok (.executed cycle result, t) := by
    rw [run_pass] at h
    split at h
    · exact ⟨_, _, h⟩
    · obtain ⟨n, hn⟩ := executed_of_debug h
      exact ⟨_, _, hn⟩
  obtain ⟨running, nSteps, hexec⟩ := hexec
  obtain ⟨running', nSteps', result', v, hd, ho, ht⟩ := executed_of_execute hexec
  cases ho
  exact ⟨rfl, running', nSteps', v, hd, ht⟩

end KM10
