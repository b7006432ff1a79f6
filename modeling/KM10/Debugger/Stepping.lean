import KM10.Debugger.Sessions
import KM10.Library.Trace

/-!
The step counter of the debugger.

* `DebugFrame`: a relation of what the debugger keeps before and after, which the breakpoint tests
  of the memory accesses move the machine along;
* `debugFrame_ops`, `debugFrame_dispatch`: an instruction moves the machine along such a relation,
  unless it is HALT or a command to the front end and the relation does not allow the machine to
  stop;
* `Lowered`, `Quiet`: an instruction never starts the machine and never changes the step counter;
  without breakpoints it changes nothing that the debugger keeps;
* `step_counts`: after `step n` exactly the first `n` instructions are executed before the debugger
  is entered again.
-/

namespace KM10

open StateExcept

/-- What the debugger keeps in the machine. -/
def Cpu.debugging (s : Cpu) : Debugging :=
  ⟨s.running, s.nSteps, s.opBPs, s.addressGBPs, s.addressPBPs, s.executeBPs⟩

/-- A relation of what the debugger keeps. -/
class DebugFrame (R : Cpu → Cpu → Prop) : Prop where
  trans : ∀ {s t u : Cpu}, R s t → R t u → R s u
  core : ∀ {s t : Cpu}, t.debugging = s.debugging → R s t
  getBP : ∀ (s : Cpu) (a : ℕ), R s (s.hit s.addressGBPs a)
  putBP : ∀ (s : Cpu) (a : ℕ), R s (s.hit s.addressPBPs a)

/-! ### Instructions -/

section Logic

variable (R : Cpu → Cpu → Prop) [hR : DebugFrame R]

instance debugFrame_refl : Std.Refl R := ⟨fun _ => hR.core rfl⟩

instance debugFrame_isTrans : IsTrans Cpu R := ⟨fun _ _ _ => hR.trans⟩

/-- An update that does not concern the debugger. -/
lemma frames_of_debugging {u : Cpu → Cpu} (h : ∀ s, (u s).debugging = s.debugging) :
    Frames R (modify u : Exec Unit) := Frames.modify _ fun s => hR.core (h s)

omit hR in
/-- A breakpoint test of a memory access. -/
lemma frames_hit {table : Cpu → List ℕ} {a : ℕ} (h : ∀ s : Cpu, R s (s.hit (table s) a)) :
    Frames R (checkBreakpoint table a) where
  out := by
    intro s b t hrun
    rw [run_checkBreakpoint] at hrun
    cases hrun
    exact h s

lemma frames_acPutN_debug (v : W36) (n : ℕ) : Frames R (acPutN v n) := by
  rw [acPutN]
  split
  · exact frames_of_debugging R fun _ => rfl
  · infer_instance

omit hR in
lemma frames_throw_debug [Std.Refl R] {α : Type} (e : Fault) : Frames R (throw e : Exec α) :=
  inferInstance

lemma frames_modifyFlags_debug (g : ProgramFlags → ProgramFlags) : Frames R (modifyFlags g) :=
  frames_of_debugging R fun _ => rfl

/-- The logic of such a relation, in which a machine stops if the relation allows it. -/
def debugLogic : Logic where
  Φ m := Frames R m
  span := 4
  full := True
  leaves := True
  stops := ∀ s : Cpu, R s { s with running := false }
  span_pos := span_four_pos
  pure a := inferInstance
  bind hm hf := @Frames.bind _ _ _ _ _ _ _ _ hm hf
  gets f := inferInstance
  throw {_ e} _ := frames_throw_debug R e
  stop h := Frames.modify _ h
  checkGBPs a := frames_hit R fun s => hR.getBP s a
  checkPBPs a := frames_hit R fun s => hR.putBP s a
  modifyFlags _ _ := frames_of_debugging R fun _ => rfl
  acGetN h := by rw [acGetN]; infer_instance
  acGetEA h := by rw [acGetEA]; infer_instance
  acPutN v n h := frames_acPutN_debug R v n
  acGetPlus _ := by simp only [acGetPlus, acGetN]; infer_instance
  acPutPlus v k _ := by
    have := frames_acPutN_debug R v
    rw [acPutPlus]
    infer_instance
  peekMem _ := by rw [peekMem]; infer_instance
  pokeMem _ _ _ := frames_of_debugging R fun _ => rfl
  putEaRH _ _ := frames_of_debugging R fun _ => rfl
  stepEa _ := frames_of_debugging R fun _ => rfl
  restoreFlags _ _ := frames_of_debugging R fun _ => rfl
  enterExecInInterrupt _ := by
    have := frames_modifyFlags_debug R fun f => { f with usr := false, pub := false }
    rw [enterExecInInterrupt]
    infer_instance
  clearUsrInInterrupt _ := by
    have := frames_modifyFlags_debug R fun f => { f with usr := false }
    rw [clearUsrInInterrupt]
    infer_instance
  leaveInterrupt _ := frames_of_debugging R fun _ => rfl
  modifyDevices _ _ := frames_of_debugging R fun _ => rfl
  updateACBlock _ _ := frames_of_debugging R fun _ => rfl

instance : Fact (debugLogic R).full := ⟨trivial⟩
instance : Fact (debugLogic R).leaves := ⟨trivial⟩

instance : Control (debugLogic R) where
  setFetchPC _ := frames_of_debugging R fun _ => rfl
  setPc _ := frames_of_debugging R fun _ => rfl
  setPcOffset _ := frames_of_debugging R fun _ => rfl
  enterInterrupt := frames_of_debugging R fun _ => rfl
  clearFlags := frames_of_debugging R fun _ => rfl

/-- What the logic says of a computation. -/
lemma debugLogic_out {α : Type} (m : Exec α) [h : Holds (debugLogic R) m] : Frames R m := h.out

/-- JRST, one case for each form, of which HALT stops the machine. -/
lemma debugFrame_JRST {s t : Cpu} {r : IResult} (h : doJRST.run s = .ok (r, t))
    (hr : r = .iHALT → ∀ s : Cpu, R s { s with running := false }) : R s t := by
  rw [doJRST, run_bind_of_ok (run_gets Cpu.iw s), run_bind_of_ok (run_gets Cpu.ea s)] at h
  split at h
  case h_2 =>
    cases h
    exact hr rfl s
  all_goals exact (debugLogic_out R _).out h

/-- The instruction is a command to the front end. -/
def W36.CommandsFrontEnd (w : W36) : Prop :=
  0o700 ≤ w.op.toNat ∧ DeviceName.ofIODev w.ioDev = .dte ∧ IOOp.ofBits w.ioOp = .CONO

/-- **Every handler**, if the relation allows HALT and the commands to the front end to stop the
machine. -/
theorem debugFrame_ops {s t : Cpu} {r : IResult} (h : (ops s.iw.op.toNat).run s = .ok (r, t))
    (hstop : r = .iHALT ∨ s.iw.CommandsFrontEnd → ∀ s : Cpu, R s { s with running := false }) :
    R s t := by
  cases hUUO : isUUO s.iw.op.toNat with
  | true => exact (ops_holds_of_isUUO (debugLogic R) hUUO).out.out h
  | false =>
      by_cases hJRST : s.iw.op.toNat = 0o254
      · rw [hJRST, ops_JRST] at h
        exact debugFrame_JRST R h fun hr => hstop (.inl hr)
      by_cases hio : 0o700 ≤ s.iw.op.toNat
      · rw [ops_io hio s.iw.op.isLt, doIO, run_bind_of_ok (run_gets Cpu.iw s),
          run_bind_of_ok (run_gets Cpu.ea s)] at h
        by_cases hfront : DeviceName.ofIODev s.iw.ioDev = .dte ∧ IOOp.ofBits s.iw.ioOp = .CONO
        · have : Fact (debugLogic R).stops := ⟨hstop (.inr ⟨hio, hfront⟩)⟩
          exact (debugLogic_out R _).out h
        · exact (Holds.handleIO_of_ne_dte (debugLogic R) hfront s.ea).out.out h
      · exact (ops_holds_of (debugLogic R) hUUO (acSpan_le _) (fun h => absurd h hJRST)
          fun h => absurd h hio).out.out h

/-- The dispatch of the instruction in `iw`. -/
lemma debugFrame_dispatch {s t : Cpu} {r : IResult} (h : dispatch.run s = .ok (r, t))
    (hstop : r = .iHALT ∨ s.iw.CommandsFrontEnd → ∀ s : Cpu, R s { s with running := false }) :
    R s t := by
  rw [dispatch, run_bind_of_ok (run_gets Cpu.iw s)] at h
  obtain ⟨ea, u, hea, h⟩ := ok_of_run_bind h
  have hiw : u.iw = s.iw :=
    ((Holds.getEA (touchesLogic True) s.iw.i s.iw.x s.iw.y.toNat).out.out hea).tame.iw
  have hu : R s u := (debugLogic_out R _).out hea
  rw [run_bind_of_ok (show (setEa _).run u = .ok ((), _) from rfl), ← hiw] at h
  rw [← hiw] at hstop
  have hea : R u { u with ea := W36.ofNat ea } := hR.core rfl
  exact hR.trans hu (hR.trans hea (debugFrame_ops R (s := { u with ea := W36.ofNat ea }) h hstop))

end Logic

/-! ### What an instruction does to the run flag and the step counter -/

/-- The machine is not started, and the step counter stays. -/
def Lowered (s t : Cpu) : Prop := (t.running = true → s.running = true) ∧ t.nSteps = s.nSteps

/-- The machine may stop at any time. -/
lemma lowered_of_le {s t : Cpu} {b : Bool} (h : t.debugging = { s.debugging with
    running := s.running && b }) : Lowered s t := by
  have hrunning : t.running = (s.running && b) := congrArg Debugging.running h
  have hnSteps : t.nSteps = s.nSteps := congrArg Debugging.nSteps h
  exact ⟨fun ht => by rw [hrunning, Bool.and_eq_true] at ht; exact ht.1, hnSteps⟩

instance : DebugFrame Lowered where
  trans h h' := ⟨fun hu => h.1 (h'.1 hu), h'.2.trans h.2⟩
  core {s t} h := lowered_of_le (b := true) (by rw [h, Bool.and_true]; rfl)
  getBP s a := lowered_of_le (b := !s.addressGBPs.contains a) rfl
  putBP s a := lowered_of_le (b := !s.addressPBPs.contains a) rfl

lemma lowered_stop (s : Cpu) : Lowered s { s with running := false } :=
  ⟨fun h => (Bool.false_ne_true h).elim, rfl⟩

/-- No breakpoint is set. -/
structure Debugging.Clear (d : Debugging) : Prop where
  op : d.opBPs = []
  get : d.addressGBPs = []
  put : d.addressPBPs = []
  execute : d.executeBPs = []

/-- Without breakpoints nothing changes that the debugger keeps. -/
def Quiet (s t : Cpu) : Prop := s.debugging.Clear → t.debugging = s.debugging

/-- A machine that no breakpoint stops. -/
lemma hit_nil (s : Cpu) (bps : List ℕ) (h : bps = []) (a : ℕ) : s.hit bps a = s := by
  rw [Cpu.hit, h, List.contains_nil, Bool.not_false, Bool.and_true]

instance : DebugFrame Quiet where
  trans h h' hclear := (h' (h hclear ▸ hclear)).trans (h hclear)
  core h _ := h
  getBP s a hclear := by rw [hit_nil s s.addressGBPs hclear.get]
  putBP s a hclear := by rw [hit_nil s s.addressPBPs hclear.put]

/-- The end of an instruction other than HALT. -/
lemma debugging_retire (s : Cpu) {r : IResult} (hr : r ≠ .iHALT) :
    (s.retire r).debugging = s.debugging := by
  cases r with
  | iHALT => exact absurd rfl hr
  | iNormal =>
      rw [Cpu.retire]
      split <;> rfl
  | iSkip =>
      rw [Cpu.retire]
      split <;> rfl
  | _ => rfl

lemma lowered_retire (s : Cpu) (r : IResult) : Lowered s (s.retire r) := by
  by_cases hr : r = .iHALT
  · rw [hr]
    exact ⟨fun h => (Bool.false_ne_true h).elim, rfl⟩
  · exact DebugFrame.core (debugging_retire s hr)

/-! ### A pass -/

/-- What `countStep` does to the two, in a machine that is running. -/
lemma exists_run_countStep (s : Cpu) :
    ∃ t, countStep.run s = .ok ((), t) ∧ t.iw = s.iw ∧ t.debugging = { s.debugging with
      running := if 0 < s.nSteps then s.running && 1 < s.nSteps else s.running,
      nSteps := if 0 < s.nSteps then s.nSteps - 1 else s.nSteps } := by
  by_cases hpos : 0 < s.nSteps
  · refine ⟨{ s with nSteps := s.nSteps - 1, running := s.running && 1 < s.nSteps }, ?_, rfl, ?_⟩
    · change Except.ok ((), if 0 < s.nSteps then _ else s) = _
      rw [if_pos hpos]
    · rw [if_pos hpos, if_pos hpos]
      rfl
  · refine ⟨s, ?_, rfl, ?_⟩
    · change Except.ok ((), if 0 < s.nSteps then _ else s) = _
      rw [if_neg hpos]
    · rw [if_neg hpos, if_neg hpos]
      rfl

/-- The instruction neither halts nor commands the front end. -/
def GoesOn (w : W36) (r : IResult) : Prop := r ≠ .iHALT ∧ ¬ w.CommandsFrontEnd

/-- **An execution** with a positive step counter counts it down by one and stops the machine when
none are left; beyond that the machine is not started, and without breakpoints nothing else
stops it. -/
lemma execute_counts {cycle : Cycle} {label : Cycle × IResult} {s t : Cpu} (hpos : 0 < s.nSteps)
    (h : (execute cycle).run s = .ok (.executed label.1 label.2, t)) :
    t.nSteps = s.nSteps - 1 ∧ (s.nSteps = 1 → t.running = false) ∧
      (s.debugging.Clear → GoesOn s.iw label.2 → t.debugging = { s.debugging with
        running := s.running && 1 < s.nSteps, nSteps := s.nSteps - 1 }) := by
  obtain ⟨u, hcount, hiw, hdebugging⟩ := exists_run_countStep s
  rw [if_pos hpos, if_pos hpos] at hdebugging
  rw [execute, run_bind_of_ok hcount] at h
  obtain ⟨result, v, hdispatch, h⟩ := ok_of_run_bind h
  cases h
  have hlowered : Lowered u (v.retire label.2) :=
    DebugFrame.trans (debugFrame_dispatch Lowered hdispatch fun _ => lowered_stop)
      (lowered_retire v label.2)
  have hnSteps : u.nSteps = s.nSteps - 1 := congrArg Debugging.nSteps hdebugging
  have hrunning : u.running = (s.running && decide (1 < s.nSteps)) :=
    congrArg Debugging.running hdebugging
  refine ⟨hlowered.2.trans hnSteps, fun hone => ?_, fun hclear hon => ?_⟩
  · refine Bool.eq_false_of_not_eq_true fun hrun => ?_
    have hu := hlowered.1 hrun
    rw [hrunning, hone, Bool.and_eq_true] at hu
    exact absurd (of_decide_eq_true hu.2) (lt_irrefl _)
  · have hclear' : u.debugging.Clear := by
      rw [hdebugging]
      exact ⟨hclear.op, hclear.get, hclear.put, hclear.execute⟩
    have hquiet := debugFrame_dispatch Quiet hdispatch fun hstop =>
      hstop.elim (fun hr => absurd hr hon.1) fun hw => absurd (hiw ▸ hw) hon.2
    rw [debugging_retire v hon.1, hquiet hclear', hdebugging]

/-! ### The passes after a command -/

/-- A pass in which the debugger is not entered. -/
def Unstopped (s : Cpu) (label : Cycle × IResult) (t : Cpu) : Prop :=
  s.fetched.running = true ∧ (pass .quit).run s = .ok (.executed label.1 label.2, t)

/-- The fetch moves the machine along a relation that allows the tests of all four tables. -/
lemma debugFrame_fetched (R : Cpu → Cpu → Prop) [hR : DebugFrame R]
    (hop : ∀ (s : Cpu) (a : ℕ), R s (s.hit s.opBPs a))
    (hexecute : ∀ (s : Cpu) (a : ℕ), R s (s.hit s.executeBPs a)) (s : Cpu) : R s s.fetched := by
  have hdevices : R s { s with toDevices := s.toDevices.handleSweep } := hR.core rfl
  have hswept : R s s.swept := hR.trans hdevices (hexecute _ s.fetchPC.vma.toNat)
  have hgranted : s.swept.granted.debugging = s.swept.debugging := by
    rw [Cpu.granted]
    split <;> rfl
  have hentered : R s.swept s.swept.entered := hR.core <| by
    rw [Cpu.entered]
    split
    · rfl
    · split <;> exact hgranted
  have hread := hR.getBP s.swept.entered s.swept.entered.fetchPC.vma.toNat
  have hiw : R (s.swept.entered.hit s.swept.entered.addressGBPs s.swept.entered.fetchPC.vma.toNat)
      { s.swept.entered.hit s.swept.entered.addressGBPs s.swept.entered.fetchPC.vma.toNat with
        iw := s.fetchWord } := hR.core rfl
  exact hR.trans hswept (hR.trans hentered (hR.trans hread
    (hR.trans hiw (hop _ s.fetchWord.op.toNat))))

lemma lowered_fetched (s : Cpu) : Lowered s s.fetched :=
  debugFrame_fetched Lowered (fun s a => lowered_of_le (b := !s.opBPs.contains a) rfl)
    (fun s a => lowered_of_le (b := !s.executeBPs.contains a) rfl) s

lemma quiet_fetched (s : Cpu) : Quiet s s.fetched :=
  debugFrame_fetched Quiet (fun s a hclear => by rw [hit_nil s s.opBPs hclear.op])
    (fun s a hclear => by rw [hit_nil s s.executeBPs hclear.execute]) s

/-- The machine has `m` steps to go, and stands still if there are none. -/
structure Counting (m : ℤ) (s : Cpu) : Prop where
  nSteps : s.nSteps = m
  nonneg : 0 ≤ m
  stopped : m = 0 → s.running = false

/-- The machine has no breakpoints and runs as long as there are steps to go. -/
structure Free (m : ℤ) (s : Cpu) : Prop where
  clear : s.debugging.Clear
  running : 0 < m → s.running = true

/-- An execution by a machine that runs with steps to go. -/
lemma counting_of_execute {cycle : Cycle} {label : Cycle × IResult} {s t : Cpu} {m : ℤ}
    (hm : 0 < m) (hs : s.nSteps = m) (hrunning : s.running = true)
    (h : (execute cycle).run s = .ok (.executed label.1 label.2, t)) :
    Counting (m - 1) t ∧ (s.debugging.Clear → GoesOn s.iw label.2 → Free (m - 1) t) := by
  obtain ⟨hnSteps, hstopped, hquiet⟩ := execute_counts (hs.symm ▸ hm) h
  rw [hs] at hnSteps hstopped hquiet
  refine ⟨⟨hnSteps, by omega, fun hzero => hstopped (by omega)⟩, fun hclear hon => ?_⟩
  have hdebugging := hquiet hclear hon
  constructor
  · rw [hdebugging]
    exact ⟨hclear.op, hclear.get, hclear.put, hclear.execute⟩
  · intro hpos
    have hrun : t.running = (s.running && decide (1 < m)) := congrArg Debugging.running hdebugging
    rw [hrun, hrunning, Bool.true_and, decide_eq_true_eq]
    omega

/-- **One pass** counts down, and it is one of those that were to go. -/
lemma counting_of_unstopped {label : Cycle × IResult} {s t : Cpu} {m : ℤ} (hs : Counting m s)
    (h : Unstopped s label t) :
    Counting (m - 1) t ∧ (Free m s → GoesOn s.fetchWord label.2 → Free (m - 1) t) := by
  obtain ⟨hrunning, hpass⟩ := h
  have hlowered := lowered_fetched s
  have hm : 0 < m := by
    refine lt_of_le_of_ne hs.nonneg fun hzero => ?_
    have hrun := hlowered.1 hrunning
    rw [hs.stopped hzero.symm] at hrun
    exact Bool.false_ne_true hrun
  rw [run_pass, if_pos hrunning] at hpass
  obtain ⟨hcounting, hfree⟩ :=
    counting_of_execute hm (hlowered.2.trans hs.nSteps) hrunning hpass
  refine ⟨hcounting, fun hclear hon => hfree ?_ hon⟩
  rw [quiet_fetched s hclear.clear]
  exact hclear.clear

/-- **The passes of a run** count down. -/
lemma counting_of_run {s : Cpu} {m : ℤ} (hs : Counting m s)
    {steps : List (TraceStep Cpu (Cycle × IResult))} (hrun : Trace Unstopped s steps) :
    Counting (m - steps.length) (Trace.final s steps) ∧
      (Free m s → (∀ x ∈ steps, GoesOn x.pre.fetchWord x.label.2) →
        Free (m - steps.length) (Trace.final s steps)) := by
  induction hrun generalizing m with
  | nil =>
      rw [List.length_nil, Nat.cast_zero, sub_zero]
      exact ⟨hs, fun hfree _ => hfree⟩
  | @cons s t e steps hst _ ih =>
      obtain ⟨ht, hfree⟩ := counting_of_unstopped hs hst
      obtain ⟨hfinal, hfinalFree⟩ := ih ht
      have hlength : m - (steps.length + 1 : ℕ) = m - 1 - steps.length := by omega
      rw [List.length_cons, hlength]
      refine ⟨hfinal, fun hclear hon => ?_⟩
      rw [List.forall_mem_cons] at hon
      exact hfinalFree (hfree hclear hon.1) hon.2

/-- **Counted steps.**  After `step n` at most `n` instructions are executed before the debugger
is entered again, the step counter says how many of them are left, and after the last one the
debugger is entered.  It is not entered earlier if no breakpoint is set and none of the
instructions is HALT or a command to the front end. -/
theorem step_counts {s t : Cpu} {n : ℤ} (hn : 0 < n) (hentered : s.fetched.running = false)
    {label : Cycle × IResult} (hstep : (pass (.step n)).run s = .ok (.executed label.1 label.2, t))
    {steps : List (TraceStep Cpu (Cycle × IResult))} (hrun : Trace Unstopped t steps) :
    (steps.length : ℤ) + 1 ≤ n ∧
      (Trace.final t steps).nSteps = n - (steps.length + 1) ∧
      ((steps.length : ℤ) + 1 = n → (Trace.final t steps).fetched.running = false) ∧
      (s.debugging.Clear → GoesOn s.fetchWord label.2 →
        (∀ x ∈ steps, GoesOn x.pre.fetchWord x.label.2) → (steps.length : ℤ) + 1 < n →
        (Trace.final t steps).fetched.running = true) := by
  rw [run_pass, hentered, if_neg Bool.false_ne_true, debug,
    run_bind_of_ok (run_resume n s.fetched)] at hstep
  obtain ⟨ht, hfree⟩ := counting_of_execute (s := s.fetched.ticked true n) hn rfl rfl hstep
  obtain ⟨hfinal, hfinalFree⟩ := counting_of_run ht hrun
  have hnonneg := hfinal.nonneg
  refine ⟨by omega, by rw [hfinal.nSteps]; omega, fun hlast => ?_, fun hclear hon hons hlt => ?_⟩
  · refine Bool.eq_false_of_not_eq_true fun hrunning => ?_
    have hrunning := (lowered_fetched _).1 hrunning
    rw [hfinal.stopped (by omega)] at hrunning
    exact Bool.false_ne_true hrunning
  · have hfetched : s.fetched.debugging.Clear := by
      rw [quiet_fetched s hclear]
      exact hclear
    have hlast := hfinalFree
      (hfree ⟨hfetched.op, hfetched.get, hfetched.put, hfetched.execute⟩ hon) hons
    have hquiet : (Trace.final t steps).fetched.running = (Trace.final t steps).running :=
      congrArg Debugging.running (quiet_fetched _ hlast.clear)
    rw [hquiet]
    exact hlast.running (by omega)

/-- The machine after the first of two steps. -/
def Cpu.afterOne : Cpu := final (pass (.step 2)) Cpu.standing

lemma run_step_standing :
    (pass (.step 2)).run Cpu.standing = .ok (.executed .normal .iNormal, Cpu.afterOne) :=
  run_eq_of_returned (by decide +kernel)

/-- After the second step the debugger is entered. -/
theorem step_counts_standing :
    Unstopped Cpu.afterOne (.normal, .iNormal) Cpu.afterOne.next ∧
      Cpu.afterOne.next.nSteps = 2 - (1 + 1) ∧ Cpu.afterOne.next.fetched.running = false := by
  have hnext : Unstopped Cpu.afterOne (.normal, .iNormal) Cpu.afterOne.next :=
    ⟨by decide +kernel, run_eq_of_returned (by decide +kernel)⟩
  obtain ⟨-, hnSteps, hentered, -⟩ := @step_counts _ _ _ (show (0 : ℤ) < 2 by decide)
    (by decide +kernel) (.normal, .iNormal) run_step_standing _ (.cons hnext (.nil _))
  simp only [Trace.final, List.length_singleton, Nat.cast_one] at hnSteps hentered
  exact ⟨hnext, hnSteps, hentered rfl⟩

end KM10
