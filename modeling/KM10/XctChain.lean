import KM10.Effects.Relocate
import KM10.Effects.Stack

/-!
Chains of XCT instructions.

XCT leaves the PC and moves the fetch address to its operand, so that the loop takes one pass
for each link of a chain.  The handlers do not see where they were fetched from.

* `Cpu.Quiet`: a machine in which nothing but instructions happens;
* `run_pass_of_quiet`, `run_pass_XCT`: a pass of such a machine, and one that executes XCT;
* `XctChain`: the chain of XCTs from an address to an instruction;
* `view_passes`: the passes along a chain do what its last instruction does alone, by induction
  on the chain;
* `xct_transparent`: the same at a PC, and what is relative to it.
-/

namespace KM10

open StateExcept

/-! ### A quiet machine -/

/-- The machine is outside of interrupts, with no trap or interrupt due, no cache sweep under
way and no breakpoint set. -/
structure Cpu.Quiet (s : Cpu) : Prop where
  inInterrupt : s.inInterrupt = false
  trap : s.trapDue = false
  interrupts : s.pi.piState.setUpInterruptCycle s.table = none
  sweep : s.cca.sweepCountDown = 0
  opBPs : s.opBPs = []
  addressGBPs : s.addressGBPs = []
  addressPBPs : s.addressPBPs = []
  executeBPs : s.executeBPs = []

/-- The machine does not count steps, or it has more than `n` of them left. -/
def Cpu.StepsLeft (s : Cpu) (n : ℕ) : Prop := s.nSteps ≤ 0 ∨ n < s.nSteps

/-- The step counter after a step. -/
def Cpu.ticks (s : Cpu) : ℤ := if 0 < s.nSteps then s.nSteps - 1 else s.nSteps

/-- With steps left, a step is counted and the machine goes on. -/
lemma run_countStep {s : Cpu} (h : s.StepsLeft 1) :
    countStep.run s = .ok ((), { s with nSteps := s.ticks }) := by
  change Except.ok ((), if 0 < s.nSteps then
    { s with nSteps := s.nSteps - 1, running := s.running && 1 < s.nSteps } else s) = _
  rw [Cpu.ticks]
  split
  case isTrue hpos =>
    have hlt : 1 < s.nSteps := h.resolve_left (not_le.mpr hpos)
    rw [decide_eq_true hlt, Bool.and_true]
  case isFalse => rfl

/-- A step uses up one of the steps. -/
lemma stepsLeft_ticks {s : Cpu} {n : ℕ} (h : s.StepsLeft (n + 1)) :
    s.ticks ≤ 0 ∨ (n : ℤ) < s.ticks := by
  rw [Cpu.ticks]
  rcases h with h | h
  · rw [if_neg (not_lt.mpr h)]
    exact .inl h
  · rw [if_pos (by omega)]
    omega

/-- Without breakpoints nothing is hit. -/
lemma hit_of_nil {s : Cpu} {bps : List ℕ} (h : bps = []) (a : ℕ) : s.hit bps a = s := by
  rw [h]
  change { s with running := s.running && true } = s
  rw [Bool.and_true]

namespace Cpu.Quiet

variable {s : Cpu}

lemma swept_eq (h : s.Quiet) : s.swept = s := by
  have hsweep : s.toDevices.handleSweep = s.toDevices :=
    if_neg (not_not.mpr h.sweep)
  rw [Cpu.swept, hsweep]
  exact hit_of_nil h.executeBPs _

lemma vector_eq (h : s.Quiet) : s.vector = 0 := vector_eq_zero_iff.mpr h.interrupts

lemma cycle_eq (h : s.Quiet) : s.cycle = .normal := by
  rw [Cpu.cycle, h.swept_eq, Cpu.cycleNow, h.trap, if_neg Bool.false_ne_true, h.vector_eq,
    if_neg (not_not.mpr rfl)]

/-- The fetch only reads the instruction word. -/
lemma fetched_eq (h : s.Quiet) : s.fetched = { s with iw := s.word s.fetchPC.rhu } := by
  have hentered : s.swept.entered = s := by
    rw [entered_of_normal h.cycle_eq, h.swept_eq, granted_of_vector h.vector_eq]
  have hword : s.fetchWord = s.word s.fetchPC.rhu := by rw [Cpu.fetchWord, hentered]
  have hread : s.hit s.addressGBPs s.fetchPC.vma.toNat = s := hit_of_nil h.addressGBPs _
  rw [Cpu.fetched, hentered, hword, hread]
  exact hit_of_nil h.opBPs _

end Cpu.Quiet

/-- A pass of a quiet machine that runs executes the word at its fetch address. -/
lemma run_pass_of_quiet {s : Cpu} (h : s.Quiet) (hrun : s.running = true)
    (command : DebugCommand) :
    (pass command).run s = (execute .normal).run { s with iw := s.word s.fetchPC.rhu } := by
  rw [run_pass, h.fetched_eq, h.cycle_eq]
  exact if_pos hrun

/-! ### The execution of an instruction -/

/-- With steps left, an execution is a dispatch followed by its end. -/
lemma view_execute {u : Cpu} (h : u.StepsLeft 1) (cycle : Cycle) :
    ((execute cycle).run u).map (Prod.map id Cpu.view) =
      ((dispatch.run { u with nSteps := u.ticks }).map retiredView).map
        (Prod.map (.executed cycle) id) := by
  rw [execute, run_bind_of_ok (run_countStep h)]
  cases hd : dispatch.run { u with nSteps := u.ticks } with
  | error e =>
      rw [run_bind_of_error hd]
      rfl
  | ok p =>
      rw [run_bind_of_ok hd]
      rfl

/-- The dispatch of an ordinary instruction gives the same view whatever the old effective
address, the fetch address and the step counter were. -/
lemma retiredView_dispatch {u : Cpu} (hin : u.inInterrupt = false) (hw : u.iw.Ordinary)
    (hBPs : u.addressGBPs = []) (ea fetchPC : W36) (nSteps : ℤ) :
    (dispatch.run { u with ea := ea, fetchPC := fetchPC, nSteps := nSteps }).map retiredView =
      (dispatch.run u).map retiredView := by
  let u' : Cpu := { u with ea := ea, fetchPC := fetchPC, nSteps := nSteps }
  change (dispatch.run u').map retiredView = _
  by_cases hlink : ∃ last, LastLink u u.iw last
  · obtain ⟨last, hlast⟩ := hlink
    obtain ⟨running, hrunning, hrun⟩ := run_dispatch_of_lastLink hlast
    obtain ⟨running', hrunning', hrun'⟩ := run_dispatch_of_lastLink (u := u') hlast
    rw [hrun, hrun', hrunning hBPs, hrunning' hBPs]
    let w : Cpu := { u with ea := W36.ofNat (u.linkAddress last) }
    exact retiredView_relocate (u := w) hin hw (fun _ => fetchPC) nSteps
  · have hhang : dispatch.run u = .error .hang := by
      rw [dispatch, run_bind_of_ok (run_gets Cpu.iw u),
        run_bind_of_error (run_getEA_of_no_lastLink hlink)]
    have hhang' : dispatch.run u' = .error .hang := by
      rw [dispatch, run_bind_of_ok (run_gets Cpu.iw u'),
        run_bind_of_error (run_getEA_of_no_lastLink (s := u') hlink)]
    rw [hhang, hhang']

/-- So does its execution. -/
lemma view_execute_congr {u : Cpu} (hin : u.inInterrupt = false) (hw : u.iw.Ordinary)
    (hBPs : u.addressGBPs = []) (hu : u.StepsLeft 1) {ea fetchPC : W36} {nSteps : ℤ}
    (hsteps : nSteps ≤ 0 ∨ 1 < nSteps) (cycle : Cycle) :
    ((execute cycle).run { u with ea := ea, fetchPC := fetchPC, nSteps := nSteps }).map
        (Prod.map id Cpu.view) =
      ((execute cycle).run u).map (Prod.map id Cpu.view) := by
  let u' : Cpu := { u with ea := ea, fetchPC := fetchPC, nSteps := nSteps }
  let u1 : Cpu := { u with nSteps := u.ticks }
  have hu' : u'.StepsLeft 1 := hsteps
  have h := retiredView_dispatch (u := u1) hin hw hBPs ea fetchPC u'.ticks
  rw [view_execute hu cycle]
  change ((execute cycle).run u').map (Prod.map id Cpu.view) = _
  rw [view_execute hu' cycle]
  exact congrArg (Except.map (Prod.map (Outcome.executed cycle) id)) h

/-! ### A chain -/

/-- From an address, `n` XCTs lead to an instruction word. -/
inductive XctChain (s : Cpu) : ℕ → W36 → W36 → Prop where
  | last {a : W36} : XctChain s 0 a (s.word a.rhu)
  | link {n : ℕ} {a w link : W36} (hXCT : (s.word a.rhu).op.toNat = 0o256)
      (hlink : LastLink s (s.word a.rhu) link)
      (rest : XctChain s n (W36.ofNat (s.linkAddress link)) w) : XctChain s (n + 1) a w

/-- `n` passes that go on to the next, and a last one. -/
def passes (command : DebugCommand) : ℕ → Exec Outcome
  | 0 => pass command
  | n + 1 => do
      let _ ← pass command
      passes command n

/-- The registers of the loop do not concern a chain. -/
lemma XctChain.refetch {s : Cpu} {n : ℕ} {a w : W36} (h : XctChain s n a w)
    (iw ea fetchPC : W36) (running : Bool) (nSteps : ℤ) :
    XctChain { s with iw := iw, ea := ea, fetchPC := fetchPC, running := running, nSteps := nSteps }
      n a w := by
  induction h with
  | last => exact .last
  | link hXCT hlink _ ih => exact .link hXCT hlink ih

/-- The pass that executes an XCT moves the fetch address to its operand. -/
lemma run_pass_XCT {s : Cpu} (hs : s.Quiet) (hrun : s.running = true) (hsteps : s.StepsLeft 1)
    (hXCT : (s.word s.fetchPC.rhu).op.toNat = 0o256) {link : W36}
    (hlink : LastLink s (s.word s.fetchPC.rhu) link) (command : DebugCommand) :
    (pass command).run s = .ok (.executed .normal .iXCT,
      { s with
        iw := s.word s.fetchPC.rhu
        ea := W36.ofNat (s.linkAddress link)
        fetchPC := W36.ofNat (s.linkAddress link)
        nSteps := s.ticks }) := by
  let u : Cpu := { s with iw := s.word s.fetchPC.rhu }
  let u1 : Cpu := { u with nSteps := u.ticks }
  have hu : u.StepsLeft 1 := hsteps
  obtain ⟨running, hrunning, hdispatch⟩ := run_dispatch_of_lastLink (u := u1) hlink
  rw [hrunning hs.addressGBPs, hXCT, ops_XCT] at hdispatch
  rw [run_pass_of_quiet hs hrun, execute, run_bind_of_ok (run_countStep hu)]
  change (do
    let result ← dispatch
    modify fun s => s.retire result
    return .executed .normal result : Exec Outcome).run u1 = _
  rw [run_bind_of_ok hdispatch]
  rfl

/-- **The passes along a chain** show what the last instruction alone shows. -/
theorem view_passes {n : ℕ} {s : Cpu} (hs : s.Quiet) (hrun : s.running = true)
    (hsteps : s.StepsLeft (n + 1)) {w : W36} (hchain : XctChain s n s.fetchPC w)
    (hw : w.Ordinary) (command : DebugCommand) :
    ((passes command n).run s).map (Prod.map id Cpu.view) =
      ((execute .normal).run { s with iw := w }).map (Prod.map id Cpu.view) := by
  induction n generalizing s with
  | zero =>
      cases hchain
      rw [passes, run_pass_of_quiet hs hrun]
  | succ n ih =>
      cases hchain with
      | @link _ _ _ link hXCT hlink rest =>
          have hsteps1 : s.StepsLeft 1 := by
            rcases hsteps with h | h
            · exact .inl h
            · exact .inr (by omega)
          rw [passes, run_bind_of_ok (run_pass_XCT hs hrun hsteps1 hXCT hlink command)]
          let t : Cpu := { s with
            iw := s.word s.fetchPC.rhu
            ea := W36.ofNat (s.linkAddress link)
            fetchPC := W36.ofNat (s.linkAddress link)
            nSteps := s.ticks }
          have ht : t.Quiet := ⟨hs.inInterrupt, hs.trap, hs.interrupts, hs.sweep,
            hs.opBPs, hs.addressGBPs, hs.addressPBPs, hs.executeBPs⟩
          have hticks := stepsLeft_ticks hsteps
          have hticks1 : s.ticks ≤ 0 ∨ 1 < s.ticks := by omega
          refine (ih (s := t) ht hrun hticks (rest.refetch _ _ _ _ _)).trans ?_
          exact view_execute_congr (u := { s with iw := w }) hs.inInterrupt hw hs.addressGBPs
            hsteps1 hticks1 .normal

/-! ### What is relative to the PC -/

/-- Where the instruction word `w` at the PC of `s` goes on and what it saves, if it ends in `t`
with the result `r`. -/
structure FollowsPC (s : Cpu) (w : W36) (r : IResult) (t : Cpu) : Prop where
  skip : r = .iSkip → t.pc.vma = s.pc.vma + 2 ∧ t.fetchPC.vma = s.pc.vma + 2
  halt : r = .iHALT → t.pc.vma = s.pc.vma ∧ t.fetchPC.vma = s.pc.vma
  LUUO : isLUUO w.op.toNat = true → s.pc.isSection0 = true → t.fetchPC.vma = 0o41
  MUUO : isMUUO w.op.toNat = true → t.word 0o425 = W36.ofNat (s.pc.vma.toNat + 1)
  JSR : w.op.toNat = 0o264 → ∀ link, LastLink s w link →
    (t.word (W36.ofNat (s.linkAddress link)).rhu).rhu = s.pc.rhu + 1
  JSP : w.op.toNat = 0o265 → (t.acs w.ac).rhu = s.pc.rhu + 1
  JSA : w.op.toNat = 0o266 → (t.acs w.ac).rhu = s.pc.rhu + 1
  PUSHJ : w.op.toNat = 0o260 → ({ s with iw := w } : Cpu).HasLocalStack →
    ¬ (({ s with iw := w } : Cpu).pushedPointer.rhu < 0o20 ∧
      ({ s with iw := w } : Cpu).pushedPointer.rhu.setWidth 4 = w.ac) →
    (t.word ({ s with iw := w } : Cpu).pushedPointer.rhu).rhu = s.pc.rhu + 1

/-- Only what is seen of the last machine matters. -/
lemma FollowsPC.congr {s t t' : Cpu} {w : W36} {r : IResult} (h : FollowsPC s w r t)
    (hview : t'.view = t.view) : FollowsPC s w r t' := by
  have hpc : t'.pc = t.pc := congrArg CpuView.pc hview
  have hfetch : t'.fetchPC.vma = t.fetchPC.vma := congrArg CpuView.fetchVma hview
  have hacs : t'.acs = t.acs := by
    funext n
    exact congrArg (fun x => x.ACBlocks x.AC n) hview
  have hword : t'.word = t.word := by
    have hmem : t'.memP = t.memP := congrArg CpuView.memP hview
    funext a
    rw [Cpu.word, Cpu.word, hacs, hmem]
  exact
    { skip := by rw [hpc, hfetch]; exact h.skip
      halt := by rw [hpc, hfetch]; exact h.halt
      LUUO := by rw [hfetch]; exact h.LUUO
      MUUO := by rw [hword]; exact h.MUUO
      JSR := by rw [hword]; exact h.JSR
      JSP := by rw [hacs]; exact h.JSP
      JSA := by rw [hacs]; exact h.JSA
      PUSHJ := by rw [hword]; exact h.PUSHJ }

/-- An instruction that is dispatched outside of interrupts goes on from the PC and saves what
follows it, one case for each claim of `FollowsPC`. -/
lemma followsPC_of_execute {s t : Cpu} {w : W36} {r : IResult} (hs : s.inInterrupt = false)
    (h : (execute .normal).run { s with iw := w } = .ok (.executed .normal r, t)) :
    FollowsPC s w r t := by
  obtain ⟨running, nSteps, result, v, hd, ho, rfl⟩ := executed_of_execute h
  cases ho
  obtain ⟨last, running', hlast, hop⟩ := exists_of_dispatch hd
  let x : Cpu := { s with
    iw := w, nSteps := nSteps, running := running', ea := W36.ofNat (s.linkAddress last) }
  have hop : (ops w.op.toNat).run x = .ok (r, v) := hop
  have hreports : w.Reports r := reports_of_ops (s := x) hop
  have htame (hr : ¬ r.OfUUO) : Tame x v := by
    rw [hreports.ofUUO_iff, Bool.not_eq_true] at hr
    exact ops_tame hr hop
  have hadvance (n : ℕ) (y : Cpu) (hy : y.pc = s.pc) :
      (y.advance n).pc.vma = s.pc.vma + BitVec.ofNat 23 n ∧
        (y.advance n).fetchPC.vma = s.pc.vma + BitVec.ofNat 23 n := by
    simp only [Cpu.advance, W36.vma_setVma, BitVec.ofNat_add, BitVec.ofNat_toNat,
      BitVec.setWidth_eq, hy, and_self]
  constructor
  case skip =>
    rintro rfl
    have htame := htame (fun hr => hr.elim IResult.noConfusion IResult.noConfusion)
    have hin : ¬ v.inInterrupt = true := by
      rw [htame.inInterrupt_false hs]
      exact Bool.false_ne_true
    rw [Cpu.retire, if_neg hin]
    exact hadvance 2 v htame.pc
  case halt =>
    rintro rfl
    have htame := htame (fun hr => hr.elim IResult.noConfusion IResult.noConfusion)
    have h0 := hadvance 0 { v with running := false } htame.pc
    rw [show BitVec.ofNat 23 0 = 0#23 from rfl, BitVec.add_zero] at h0
    exact h0
  case LUUO =>
    intro hLUUO hsection
    rw [ops_LUUO hLUUO] at hop
    obtain ⟨running, hrun⟩ := run_doLUUO_of_section0 (s := x) hsection
    rw [hrun] at hop
    cases hop
    rfl
  case MUUO =>
    intro hMUUO
    rw [ops_of_isMUUO hMUUO] at hop
    rw [retire_word]
    exact saved_of_doMUUO (s := x) hop
  case JSR =>
    intro hJSR link hlink
    rw [hJSR, ops_JSR] at hop
    obtain ⟨running, hrun⟩ := run_doJSR x
    rw [hrun] at hop
    cases hop
    rw [retire_word, LastLink.unique hlink hlast]
    change ((x.setWord (x.saved x.ea.isSection0) x.ea.rhu).word x.ea.rhu).rhu = _
    rw [word_setWord]
    exact rhu_saved (s := x) hs _
  case JSP =>
    intro hJSP
    rw [hJSP, ops_JSP, run_doJSP] at hop
    cases hop
    change ((x.setAC (x.saved x.ea.isSection0) w.ac).acs w.ac).rhu = _
    rw [acs_setAC, if_pos rfl]
    exact rhu_saved (s := x) hs _
  case JSA =>
    intro hJSA
    rw [hJSA, ops_JSA] at hop
    obtain ⟨running, hrun⟩ := run_doJSA (s := x) hs
    rw [hrun] at hop
    cases hop
    change (((x.setWord (x.acs w.ac) x.ea.rhu).setAC (W36.halves x.ea.rhu (s.pc.rhu + 1)) w.ac).acs
      w.ac).rhu = _
    rw [acs_setAC, if_pos rfl, W36.rhu_halves]
  case PUSHJ =>
    intro hPUSHJ hstack hslot
    rw [hPUSHJ, ops_PUSHJ] at hop
    rw [retire_word]
    exact saved_of_doPUSHJ (s := x) hs hstack hslot hop

/-- **XCT transparency**: along a chain of XCTs from the PC, a machine that runs and does not
run out of steps shows what the last instruction shows when it is dispatched at the PC, and this
goes on from the PC and saves what follows it. -/
theorem xct_transparent {n : ℕ} {s : Cpu} {w : W36} (hs : s.Quiet) (hrun : s.running = true)
    (hsteps : s.StepsLeft (n + 1)) (hfetchPC : s.fetchPC = s.pc) (hchain : XctChain s n s.pc w)
    (hw : w.Ordinary) (command : DebugCommand) :
    ((passes command n).run s).map (Prod.map id Cpu.view) =
        ((execute .normal).run { s with iw := w }).map (Prod.map id Cpu.view) ∧
      ∀ r t, (passes command n).run s = .ok (.executed .normal r, t) → FollowsPC s w r t := by
  rw [← hfetchPC] at hchain
  have hview := view_passes hs hrun hsteps hchain hw command
  refine ⟨hview, fun r t hpasses => ?_⟩
  rw [hpasses] at hview
  cases hexecute : (execute .normal).run { s with iw := w } with
  | error e =>
      rw [hexecute] at hview
      cases hview
  | ok p =>
      rw [hexecute] at hview
      obtain ⟨ho, hview⟩ := Prod.mk.inj (Except.ok.inj hview)
      have hp : p = (.executed .normal r, p.2) := Prod.ext ho.symm rfl
      rw [hp] at hexecute
      exact (followsPC_of_execute hs.inInterrupt hexecute).congr hview

/-- A machine at location 1000, where two XCTs lead to SKIPA. -/
def Cpu.atXCT (running : Bool) (nSteps : ℤ) : Cpu :=
  { Cpu.initial with
    running := running
    nSteps := nSteps
    memP := fun a =>
      if a = 0o1000 then W36.assemble 0o256 0 false 0 0o2000
      else if a = 0o2000 then W36.assemble 0o256 0 false 0 0o3000
      else if a = 0o3000 then W36.assemble 0o334 0 false 0 0
      else 0
    pc := 0o1000
    fetchPC := 0o1000 }

/-- That machine is quiet. -/
lemma quiet_atXCT (running : Bool) (nSteps : ℤ) : (Cpu.atXCT running nSteps).Quiet :=
  ⟨rfl, rfl, rfl, rfl, rfl, rfl, rfl, rfl⟩

/-- Its chain. -/
lemma xctChain_atXCT (running : Bool) (nSteps : ℤ) :
    XctChain (Cpu.atXCT running nSteps) 2 0o1000 (W36.assemble 0o334 0 false 0 0) := by
  have hlast : XctChain (Cpu.atXCT true 0) 0 0o3000 (W36.assemble 0o334 0 false 0 0) := .last
  have hsecond : XctChain (Cpu.atXCT true 0) 1 0o2000 (W36.assemble 0o334 0 false 0 0) :=
    .link (by decide) (.here (by decide)) hlast
  have hfirst : XctChain (Cpu.atXCT true 0) 2 0o1000 (W36.assemble 0o334 0 false 0 0) :=
    .link (by decide) (.here (by decide)) hsecond
  exact hfirst.refetch 0 0 0o1000 running nSteps

/-- SKIPA at the end of the chain skips to 1002, as it does at 1000. -/
theorem xct_transparent_SKIPA :
    ∃ t, (passes .quit 2).run (Cpu.atXCT true 0) = .ok (.executed .normal .iSkip, t) ∧
      t.pc.vma = (Cpu.atXCT true 0).pc.vma + 2 ∧
      ((passes .quit 2).run (Cpu.atXCT true 0)).map (Prod.map id Cpu.view) =
        ((execute .normal).run { Cpu.atXCT true 0 with iw := W36.assemble 0o334 0 false 0 0 }).map
          (Prod.map id Cpu.view) := by
  obtain ⟨t, ht⟩ : ∃ t, (passes .quit 2).run (Cpu.atXCT true 0) =
      .ok (.executed .normal .iSkip, t) := exists_of_returned (by decide +kernel)
  obtain ⟨hview, hfollows⟩ := xct_transparent (quiet_atXCT true 0) rfl (.inl le_rfl) rfl
    (xctChain_atXCT true 0) ⟨by decide, by decide⟩ .quit
  exact ⟨t, ht, ((hfollows _ _ ht).skip rfl).1, hview⟩

/-- **The run flag**: when the machine stops after three steps, the chain of two XCTs uses them
up and SKIPA alone does not; and when it stands, the debugger lets it run along the chain. -/
theorem xct_run_flag :
    ((Cpu.atXCT true 3).Quiet ∧
      XctChain (Cpu.atXCT true 3) 2 0o1000 (W36.assemble 0o334 0 false 0 0) ∧
      ∃ t u, (passes .quit 2).run (Cpu.atXCT true 3) = .ok (.executed .normal .iSkip, t) ∧
      (execute .normal).run { Cpu.atXCT true 3 with iw := W36.assemble 0o334 0 false 0 0 } =
        .ok (.executed .normal .iSkip, u) ∧ t.running = false ∧ u.running = true) ∧
    (Cpu.atXCT false 0).Quiet ∧
      XctChain (Cpu.atXCT false 0) 2 0o1000 (W36.assemble 0o334 0 false 0 0) ∧
      ∃ t u, (passes .continue 2).run (Cpu.atXCT false 0) = .ok (.executed .normal .iSkip, t) ∧
      (execute .normal).run { Cpu.atXCT false 0 with iw := W36.assemble 0o334 0 false 0 0 } =
        .ok (.executed .normal .iSkip, u) ∧ t.running = true ∧ u.running = false := by
  obtain ⟨t, ht, htr⟩ : ∃ t, (passes .quit 2).run (Cpu.atXCT true 3) =
      .ok (.executed .normal .iSkip, t) ∧ t.running = false :=
    exists_of_observed (by decide +kernel)
  obtain ⟨u, hu, hur⟩ : ∃ u, (execute .normal).run
      { Cpu.atXCT true 3 with iw := W36.assemble 0o334 0 false 0 0 } =
        .ok (.executed .normal .iSkip, u) ∧ u.running = true :=
    exists_of_observed (by decide +kernel)
  obtain ⟨t', ht', htr'⟩ : ∃ t, (passes .continue 2).run (Cpu.atXCT false 0) =
      .ok (.executed .normal .iSkip, t) ∧ t.running = true :=
    exists_of_observed (by decide +kernel)
  obtain ⟨u', hu', hur'⟩ : ∃ u, (execute .normal).run
      { Cpu.atXCT false 0 with iw := W36.assemble 0o334 0 false 0 0 } =
        .ok (.executed .normal .iSkip, u) ∧ u.running = false :=
    exists_of_observed (by decide +kernel)
  exact ⟨⟨quiet_atXCT _ _, xctChain_atXCT _ _, t, u, ht, hu, htr, hur⟩,
    quiet_atXCT _ _, xctChain_atXCT _ _, t', u', ht', hu', htr', hur'⟩

end KM10
