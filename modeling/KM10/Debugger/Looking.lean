import KM10.Effects.SamePlace
import KM10.Interrupt.Service
import KM10.Library.Trace

/-!
Looking at the PC or the switches in the debugger.

The command returns to the head of the loop with the fetch address at the PC, and the debugger is
entered again.

* `SameRun s t`: continuing from `s` and from `t`, a program sees no difference;
* `Cpu.looked`: the machine after the command;
* `samePlace_looked`: if no sweep is counting and the debugger was entered in a trap cycle or at
  the PC, the debugger is entered again as it was;
* `looking`: then the run goes on as it would have, and it does so in no other place unless a
  sweep ends meanwhile.
-/

namespace KM10

open StateExcept

/-! ### Runs -/

/-- What is compared of two machines: the instruction and its address, the accumulators, the
memory, the flags and the PI device. -/
structure Seen where
  address : BitVec 23
  iw : W36
  ACBlocks : BitVec 3 → BitVec 4 → W36
  AC : BitVec 3
  memP : BitVec 18 → W36
  flags : ProgramFlags
  pi : PIDevice

def Cpu.seen (s : Cpu) : Seen :=
  ⟨s.fetchPC.vma, s.iw, s.ACBlocks, s.AC, s.memP, s.flags, s.pi⟩

lemma SamePlace.seen {s t : Cpu} (h : SamePlace s t) : t.seen = s.seen := by
  obtain ⟨p, hp, rfl⟩ := h
  rw [Cpu.seen, Cpu.seen, hp]

/-- What is compared of two executed instructions: the machine that executes it, what it reports
and the machine after it. -/
def seenStep (x : TraceStep Cpu (Cycle × IResult)) : Seen × IResult × Seen :=
  (x.pre.fetched.seen, x.label.2, x.post.seen)

/-- The instructions that are executed after `continue`. -/
def Continues (s : Cpu) (steps : List (TraceStep Cpu (Cycle × IResult))) : Prop :=
  ∃ label t rest, steps = ⟨s, label, t⟩ :: rest ∧
    (pass .continue).run s = .ok (.executed label.1 label.2, t) ∧ Trace Step t rest

/-- Continuing shows the same from both machines: the first instruction, whether or not it
completes, and every sequence of executed instructions. -/
structure SameRun (s t : Cpu) : Prop where
  first : t.fetched.seen = s.fetched.seen
  rest : ∀ seen, (∃ steps, Continues s steps ∧ steps.map seenStep = seen) ↔
    ∃ steps, Continues t steps ∧ steps.map seenStep = seen

/-- The commands that only display. -/
def DebugCommand.Displays (command : DebugCommand) : Prop :=
  command = .pc none ∨ command = .switch none

/-- The machine after such a command. -/
def Cpu.looked (s : Cpu) : Cpu := { s.fetched with fetchPC := s.fetched.pc }

/-- A pass that enters the debugger is left by a command. -/
lemma run_pass_of_stopped {s : Cpu} (hentered : s.fetched.running = false)
    (command : DebugCommand) :
    (pass command).run s = (debug s.cycle command).run s.fetched := by
  rw [run_pass, hentered]
  exact if_neg Bool.false_ne_true

lemma run_pass_displays {s : Cpu} (hentered : s.fetched.running = false) {command : DebugCommand}
    (h : command.Displays) : (pass command).run s = .ok (.refetch, s.looked) := by
  rw [run_pass_of_stopped hentered]
  obtain rfl | rfl := h <;> rfl

/-! ### The debugger is entered as before -/

/-- What was granted is not granted again. -/
lemma setUpInterruptCycle_of_granted {p p' : PIState} {devices : List Device} {level : ℕ}
    (h : p.setUpInterruptCycle devices = some (level, p')) :
    p'.setUpInterruptCycle devices = none := by
  have hlt := level_lt_of_setUpInterruptCycle h
  simp only [PIState.setUpInterruptCycle] at h
  split at h
  case isTrue => cases h
  case isFalse hon =>
    split at h
    case isFalse => cases h
    case isTrue hless =>
      cases h
      have hlevel : (BitVec.ofNat 4 (PIState.search p.levelsOn devices)).toNat =
          PIState.search p.levelsOn devices := by
        rw [BitVec.toNat_ofNat, Nat.mod_eq_of_lt hlt]
      simp only [PIState.setUpInterruptCycle]
      rw [if_neg hon, if_neg (by rw [hlevel]; exact lt_irrefl _)]

lemma vector_granted (s : Cpu) : s.granted.vector = 0 := by
  rw [vector_eq_zero_iff]
  cases hgrant : s.pi.piState.setUpInterruptCycle s.table with
  | none =>
      rw [Cpu.granted, hgrant]
      exact hgrant
  | some grant =>
      rw [Cpu.granted, hgrant]
      exact setUpInterruptCycle_of_granted hgrant

/-- Without a trap, nothing is left to be granted after the fetch. -/
lemma vector_fetched {s : Cpu} (h : ¬ s.trapDue = true) : s.fetched.vector = 0 := by
  change s.swept.entered.vector = 0
  rw [Cpu.entered, swept_trapDue, if_neg h]
  split <;> exact vector_granted s.swept

/-- A machine that is stopped stays so. -/
lemma hit_of_stopped {s : Cpu} (h : s.running = false) (bps : List ℕ) (a : ℕ) :
    s.hit bps a = s := by
  rw [Cpu.hit, h, Bool.false_and, ← h]

lemma fetched_trapDue (s : Cpu) : s.fetched.trapDue = s.trapDue := by
  rw [Cpu.trapDue, Cpu.trapDue, fetched_flags, fetched_pag]

/-- The debugger is entered again as it was. -/
lemma samePlace_looked {s : Cpu} (hentered : s.fetched.running = false)
    (hsweep : s.fetched.cca.sweepCountDown = 0)
    (hplace : s.trapDue = true ∨ s.fetched.fetchPC.vma = s.fetched.pc.vma) :
    SamePlace s.fetched s.looked.fetched := by
  have hswept : s.looked.swept = s.looked := by
    have hcount : s.looked.toDevices.handleSweep = s.looked.toDevices :=
      if_neg (not_not.mpr hsweep)
    rw [Cpu.swept, hcount]
    exact @hit_of_stopped s.looked hentered _ _
  have hentered' : SamePlace s.fetched s.looked.entered := by
    have hdue : s.looked.trapDue = s.trapDue := fetched_trapDue s
    rw [Cpu.entered, hdue]
    by_cases htrap : s.trapDue = true
    · have hin : s.fetched.inInterrupt = true :=
        fetched_inInterrupt_of_ne (by rw [cycle_eq_trap_iff.mpr htrap]; decide)
      have hflags : s.looked.flags = s.flags := fetched_flags s
      have hfetchPC : eptAddressFor (if s.looked.flags.tr1 then 0o421 else 0o422) =
          s.fetched.fetchPC := by rw [hflags, fetched_fetchPC_of_trap htrap]
      rw [if_pos htrap, hfetchPC]
      refine ⟨s.fetched.fetchPC, rfl, ?_⟩
      rw [← hin]
      rfl
    · have hvector : s.looked.vector = 0 := vector_fetched htrap
      rw [if_neg htrap, if_neg (not_not.mpr hvector), granted_of_vector hvector]
      exact ⟨s.fetched.pc, (hplace.resolve_left htrap).symm, rfl⟩
  obtain ⟨p, hp, heq⟩ := hentered'
  have hword : s.looked.fetchWord = s.fetchWord := by
    rw [Cpu.fetchWord, hswept, heq]
    exact congrArg s.fetched.word (W36.rhu_eq_of_vma hp)
  have hstopped (bps : List ℕ) (a : ℕ) :
      ({ s.fetched with fetchPC := p } : Cpu).hit bps a = { s.fetched with fetchPC := p } :=
    @hit_of_stopped { s.fetched with fetchPC := p } hentered bps a
  refine ⟨p, hp, ?_⟩
  rw [Cpu.fetched, hswept, heq, hword]
  simp only [hstopped]
  exact hstopped _ _

/-- While no sweep ends, nothing is granted when the debugger is entered again. -/
lemma looked_cycle {s : Cpu} (hsweep : s.fetched.cca.sweepCountDown ≠ 1)
    (htrap : ¬ s.trapDue = true) : s.looked.cycle = .normal := by
  have hvector : s.looked.swept.vector = 0 := by
    have hnone := vector_eq_zero_iff.mp (vector_fetched htrap)
    rw [vector_eq_zero_iff]
    change s.fetched.toDevices.handleSweep.pi.piState.setUpInterruptCycle
      s.fetched.toDevices.handleSweep.table = none
    rw [Devices.handleSweep]
    split
    · have hcount : ¬ s.fetched.cca.sweepCountDown - 1 = 0 := by omega
      simp only [if_neg hcount]
      exact hnone
    · exact hnone
  have hdue : ¬ s.looked.swept.trapDue = true := by
    rw [swept_trapDue]
    change ¬ s.fetched.trapDue = true
    rw [fetched_trapDue]
    exact htrap
  rw [Cpu.cycle, Cpu.cycleNow, if_neg hdue, if_neg (not_not.mpr hvector)]

/-- Of the fetch, the count alone concerns the sweep. -/
lemma fetched_cca (s : Cpu) : s.fetched.cca = s.toDevices.handleSweep.cca := by
  have hgranted : s.swept.granted.cca = s.swept.cca := by
    rw [Cpu.granted]
    split <;> rfl
  change s.swept.entered.cca = s.swept.cca
  rw [Cpu.entered]
  split
  · rfl
  · split <;> exact hgranted

/-- A sweep that is counting counts once more. -/
lemma looked_sweepCountDown {s : Cpu} (hsweep : s.looked.cca.sweepCountDown ≠ 0) :
    s.looked.fetched.cca.sweepCountDown = s.looked.cca.sweepCountDown - 1 := by
  rw [fetched_cca, Devices.handleSweep, if_pos hsweep]

/-! ### The run goes on -/

/-- The kind of cycle is only reported. -/
lemma run_execute_of_run {cycle : Cycle} {s t : Cpu} {r : IResult}
    (h : (execute cycle).run s = .ok (.executed cycle r, t)) (cycle' : Cycle) :
    (execute cycle').run s = .ok (.executed cycle' r, t) := by
  obtain ⟨_, u, hcount, h⟩ := ok_of_run_bind h
  obtain ⟨_, v, hdispatch, h⟩ := ok_of_run_bind h
  obtain ⟨_, w, hretire, h⟩ := ok_of_run_bind h
  cases h
  rw [execute, run_bind_of_ok hcount, run_bind_of_ok hdispatch, run_bind_of_ok hretire]
  rfl

/-- An instruction of a run is matched by the same one. -/
lemma SamePlace.step {s t s' : Cpu} {label : Cycle × IResult} (h : SamePlace s t)
    (hstep : Step s label s') :
    ∃ t', Step t label t' ∧ SamePlace s' t' ∧
      seenStep ⟨t, label, t'⟩ = seenStep ⟨s, label, s'⟩ := by
  obtain ⟨command, hpass⟩ := hstep
  have halike := (respects_pass command).out h
  rw [hpass] at halike
  obtain ⟨t', hpass', h'⟩ := halike.exists_ok
  refine ⟨t', ⟨command, hpass'⟩, h', ?_⟩
  rw [seenStep, seenStep, h.fetched.seen, h'.seen]

/-- Where the debugger is entered in the same place, continuing shows the same: the first
instruction is matched here, the others by induction. -/
lemma Continues.matched {s t : Cpu} (hs : s.fetched.running = false)
    (ht : t.fetched.running = false) (h : SamePlace s.fetched t.fetched)
    {steps : List (TraceStep Cpu (Cycle × IResult))} (hsteps : Continues s steps) :
    ∃ steps', Continues t steps' ∧ steps'.map seenStep = steps.map seenStep := by
  obtain ⟨label, s', rest, rfl, hpass, hrest⟩ := hsteps
  rw [run_pass_of_stopped hs, debug, run_bind_of_ok (run_resume 0 _)] at hpass
  have hcycle : label.1 = s.cycle := by
    obtain ⟨_, _, _, _, -, houtcome, -⟩ := executed_of_execute hpass
    exact (Outcome.executed.inj houtcome).1
  rw [hcycle] at hpass
  have halike := (respects_debug t.cycle .continue).out h
  rw [debug, run_bind_of_ok (run_resume 0 _), run_execute_of_run hpass t.cycle] at halike
  obtain ⟨t', hpass', h'⟩ := halike.exists_ok
  obtain ⟨rest', hrest', hmap⟩ := hrest.exists_map_eq SamePlace.step h'
  refine ⟨_, ⟨(t.cycle, label.2), t', rest', rfl, ?_, hrest'⟩, ?_⟩
  · rw [run_pass_of_stopped ht]
    exact hpass'
  · rw [List.map_cons, List.map_cons, hmap, seenStep, seenStep, h.seen, h'.seen]

lemma sameRun_of_samePlace {s t : Cpu} (hs : s.fetched.running = false)
    (ht : t.fetched.running = false) (h : SamePlace s.fetched t.fetched) : SameRun s t where
  first := h.seen
  rest seen := by
    constructor
    · rintro ⟨steps, hsteps, rfl⟩
      exact hsteps.matched hs ht h
    · rintro ⟨steps, hsteps, rfl⟩
      exact hsteps.matched ht hs h.symm

/-- **Looking** leaves the run as it is if no sweep is counting and the debugger was entered in a
trap cycle or at the PC.  Elsewhere it does not, unless it makes a sweep end; and a sweep that is
counting counts once more. -/
theorem looking {s : Cpu} (hentered : s.fetched.running = false) {command : DebugCommand}
    (hcommand : command.Displays) :
    ∃ t, (pass command).run s = .ok (.refetch, t) ∧
      (t.cca.sweepCountDown = 0 ∧ (s.trapDue = true ∨ s.fetched.fetchPC.vma = s.fetched.pc.vma) →
        SameRun s t) ∧
      (t.cca.sweepCountDown ≠ 1 → SameRun s t →
        s.trapDue = true ∨ s.fetched.fetchPC.vma = s.fetched.pc.vma) ∧
      (t.cca.sweepCountDown ≠ 0 → t.fetched.cca.sweepCountDown = t.cca.sweepCountDown - 1) := by
  refine ⟨s.looked, run_pass_displays hentered hcommand, ?_, ?_, looked_sweepCountDown⟩
  · rintro ⟨hsweep, hplace⟩
    have hsame := samePlace_looked hentered hsweep hplace
    have hrunning : s.looked.fetched.running = false := by
      obtain ⟨p, -, heq⟩ := hsame
      rw [heq]
      exact hentered
    exact sameRun_of_samePlace hentered hrunning hsame
  · intro hsweep hrun
    by_contra hplace
    rw [not_or] at hplace
    have hnormal := looked_cycle hsweep hplace.1
    have haddress : s.looked.fetched.fetchPC.vma = s.fetched.fetchPC.vma :=
      congrArg Seen.address hrun.first
    rw [fetched_fetchPC_of_normal hnormal] at haddress
    exact hplace.2 haddress.symm

/-- A machine that is stopped in front of a loop of two instructions, AOJ and JRST. -/
def Cpu.stoppedLoop : Cpu :=
  { Cpu.initial with
    pc := 0o1000
    fetchPC := 0o1000
    memP := fun a =>
      if a = 0o1000 then W36.assemble 0o340 1 false 0 0
      else if a = 0o1001 then W36.assemble 0o254 0 false 0 0o1000
      else 0 }

theorem looking_stopped :
    ∃ t, (pass (.pc none)).run Cpu.stoppedLoop = .ok (.refetch, t) ∧ SameRun Cpu.stoppedLoop t := by
  obtain ⟨t, hpass, hsame, -⟩ := looking (s := Cpu.stoppedLoop) (by decide +kernel) (.inl rfl)
  refine ⟨t, hpass, hsame ?_⟩
  rw [run_pass_displays (by decide +kernel) (.inl rfl)] at hpass
  cases hpass
  exact ⟨by decide +kernel, .inr (by decide +kernel)⟩

/-- A machine at 01000 that enters the debugger when an interrupt has just been granted. -/
def Cpu.grantedStopped : Cpu := { Cpu.interrupted false with running := false }

/-- **The interrupt is lost**: instead of the vector word at 046 the instruction at 01000 is
executed, and it is as part of an interrupt, since the level stays held. -/
theorem looking_loses_interrupt :
    (pass (.pc none)).run Cpu.grantedStopped = .ok (.refetch, Cpu.grantedStopped.looked) ∧
      Cpu.grantedStopped.cycle = .interrupt ∧
      Cpu.grantedStopped.fetched.fetchPC = 0o46 ∧
      Cpu.grantedStopped.looked.fetched.fetchPC = 0o1000 ∧
      Cpu.grantedStopped.looked.fetched.inInterrupt = true ∧
      ¬ SameRun Cpu.grantedStopped Cpu.grantedStopped.looked := by
  have hbefore : Cpu.grantedStopped.fetched.fetchPC = 0o46 := by decide +kernel
  have hafter : Cpu.grantedStopped.looked.fetched.fetchPC = 0o1000 := by decide +kernel
  refine ⟨run_pass_displays (by decide +kernel) (.inl rfl), by decide +kernel, hbefore, hafter,
    by decide +kernel, fun hrun => ?_⟩
  have haddress : Cpu.grantedStopped.looked.fetched.fetchPC.vma =
      Cpu.grantedStopped.fetched.fetchPC.vma := congrArg Seen.address hrun.first
  rw [hbefore, hafter] at haddress
  exact absurd haddress (by decide)

end KM10
