import KM10.Effects.Control
import KM10.Effects.Pass
import KM10.Library.Alike

/-!
Breakpoints and single steps do not change what a program does.

* `SameMachine s t`: the machines differ only in whether they run, in the step counter and in the
  breakpoint tables;
* `unseen_ops`: an instruction gives the same result from both, and again such machines;
* `SameMachine.fetched`, `unseen_pass`: so does a pass, whether or not the debugger is entered
  in it, if the user lets the program go on;
* `sessions_agree`: and so do two sessions of any length with any breakpoints and any
  answers.
-/

namespace KM10

open StateExcept

/-! ### Machines that differ in the debugger -/

/-- The machines differ only in what the debugger keeps. -/
def SameMachine (s t : Cpu) : Prop := ∃ d, t = s.debugged d

namespace SameMachine

variable {s t : Cpu}

lemma debugged (s : Cpu) (d : Debugging) : SameMachine s (s.debugged d) := ⟨d, rfl⟩

lemma refl (s : Cpu) : SameMachine s s :=
  ⟨⟨s.running, s.nSteps, s.opBPs, s.addressGBPs, s.addressPBPs, s.executeBPs⟩, rfl⟩

lemma symm (h : SameMachine s t) : SameMachine t s := by
  obtain ⟨d, rfl⟩ := h
  exact ⟨⟨s.running, s.nSteps, s.opBPs, s.addressGBPs, s.addressPBPs, s.executeBPs⟩, rfl⟩

lemma trans {u : Cpu} (h : SameMachine s t) (h' : SameMachine t u) : SameMachine s u := by
  obtain ⟨d, rfl⟩ := h
  obtain ⟨d', rfl⟩ := h'
  exact ⟨d', rfl⟩

/-- Each machine may stop at a breakpoint of its own. -/
lemma hit (h : SameMachine s t) (bps bps' : List ℕ) (a a' : ℕ) :
    SameMachine (s.hit bps a) (t.hit bps' a') := by
  obtain ⟨d, rfl⟩ := h
  exact ⟨{ d with running := d.running && !bps'.contains a' }, rfl⟩

end SameMachine

/-- An update that is the same function of everything else. -/
lemma respects_update {u : Cpu → Cpu} (h : ∀ s d, u (s.debugged d) = (u s).debugged d) :
    Respects SameMachine SameMachine (modify u : Exec Unit) := by
  refine .modify ?_
  rintro s _ ⟨d, rfl⟩
  exact ⟨d, h s d⟩

/-- A reading that does not see the debugger. -/
lemma respects_gets {α : Type} {f : Cpu → α} (h : ∀ s d, f (s.debugged d) = f s) :
    Respects SameMachine SameMachine (gets f : Exec α) where
  out := by
    rintro s _ ⟨d, rfl⟩
    rw [run_gets, run_gets, h s d]
    exact .ok _ ⟨d, rfl⟩

/-- Both machines go through the same choice. -/
lemma respects_ite {α : Type} {c : Prop} [Decidable c] {m n : Exec α}
    (hm : Respects SameMachine SameMachine m) (hn : Respects SameMachine SameMachine n) :
    Respects SameMachine SameMachine (if c then m else n) := by
  split
  · exact hm
  · exact hn

lemma respects_throw {α : Type} (e : Fault) :
    Respects SameMachine SameMachine (throw e : Exec α) := ⟨fun _ => .error e⟩

/-- A breakpoint test stops at most. -/
lemma respects_checkBreakpoint (table : Cpu → List ℕ) (a : ℕ) :
    Respects SameMachine SameMachine (checkBreakpoint table a) where
  out := fun h => by
    rw [run_checkBreakpoint, run_checkBreakpoint]
    exact .ok () (h.hit _ _ a a)

/-! ### Instructions -/

/-- The logic of not seeing the debugger. -/
def unseenLogic : Logic where
  Φ m := Respects SameMachine SameMachine m
  span := 4
  full := True
  leaves := True
  stops := True
  span_pos := span_four_pos
  pure a := .pure a
  bind hm hf := hm.bind hf
  gets f hf := respects_gets hf.debugged
  throw _ := respects_throw _
  stop _ := .modify fun h => by
    obtain ⟨d, rfl⟩ := h
    exact ⟨{ d with running := false }, rfl⟩
  checkGBPs a := respects_checkBreakpoint _ a
  checkPBPs a := respects_checkBreakpoint _ a
  modifyFlags _ _ := respects_update fun _ _ => rfl
  acGetN h := by
    rw [acGetN, if_pos h]
    exact respects_gets fun _ _ => rfl
  acGetEA h := by
    rw [acGetEA, if_pos h]
    exact respects_gets fun _ _ => rfl
  acPutN v n h := by
    rw [acPutN, if_pos h]
    exact respects_update fun _ _ => rfl
  acGetPlus _ := by
    simp only [acGetPlus, acGetN]
    exact .bind (respects_gets fun _ _ => rfl) fun _ =>
      respects_ite (respects_gets fun _ _ => rfl) (respects_throw _)
  acPutPlus v k _ := by
    simp only [acPutPlus, acPutN]
    exact .bind (respects_gets fun _ _ => rfl) fun _ =>
      respects_ite (respects_update fun _ _ => rfl) (respects_throw _)
  peekMem _ := respects_gets fun _ _ => rfl
  pokeMem _ _ _ := respects_update fun _ _ => rfl
  putEaRH _ _ := respects_update fun _ _ => rfl
  stepEa _ := respects_update fun _ _ => rfl
  restoreFlags _ _ := respects_update fun _ _ => rfl
  enterExecInInterrupt _ := by
    rw [enterExecInInterrupt]
    exact .bind (respects_gets fun _ _ => rfl) fun _ =>
      respects_ite (respects_update fun _ _ => rfl) (.pure _)
  clearUsrInInterrupt _ := by
    rw [clearUsrInInterrupt]
    exact .bind (respects_gets fun _ _ => rfl) fun _ =>
      respects_ite (respects_update fun _ _ => rfl) (.pure _)
  leaveInterrupt _ := respects_update fun _ _ => rfl
  modifyDevices _ _ := respects_update fun _ _ => rfl
  updateACBlock _ _ := respects_update fun _ _ => rfl

instance : Fact unseenLogic.full := ⟨trivial⟩
instance : Fact unseenLogic.stops := ⟨trivial⟩

instance : Control unseenLogic where
  setFetchPC _ := respects_update fun _ _ => rfl
  setPc _ := respects_update fun _ _ => rfl
  setPcOffset _ := respects_update fun _ _ => rfl
  enterInterrupt := respects_update fun _ _ => rfl
  clearFlags := respects_update fun _ _ => rfl

/-- What the logic says of a computation. -/
lemma respects_of_holds {α : Type} (m : Exec α) [h : Holds unseenLogic m] :
    Respects SameMachine SameMachine m := h.out

/-- **Every handler.** -/
theorem unseen_ops (op : ℕ) : Respects SameMachine SameMachine (ops op) :=
  (ops_holds_all unseenLogic le_rfl trivial op).out

/-- The end of an instruction, one case for each result. -/
lemma SameMachine.retire {s t : Cpu} (h : SameMachine s t) (r : IResult) :
    SameMachine (s.retire r) (t.retire r) := by
  obtain ⟨d, rfl⟩ := h
  have hin : (s.debugged d).inInterrupt = s.inInterrupt := rfl
  cases r with
  | iNormal =>
      rw [Cpu.retire, Cpu.retire, hin]
      split <;> exact ⟨d, rfl⟩
  | iSkip =>
      rw [Cpu.retire, Cpu.retire, hin]
      split <;> exact ⟨d, rfl⟩
  | iHALT => exact ⟨{ d with running := false }, rfl⟩
  | _ => exact ⟨d, rfl⟩

/-- The step counter is counted down in one machine and not in the other. -/
lemma sameMachine_countStep (s : Cpu) :
    ∃ d, countStep.run s = .ok ((), s.debugged d) := by
  refine ⟨⟨if 0 < s.nSteps then s.running && 1 < s.nSteps else s.running,
    if 0 < s.nSteps then s.nSteps - 1 else s.nSteps, s.opBPs, s.addressGBPs, s.addressPBPs,
    s.executeBPs⟩, ?_⟩
  change Except.ok ((), if 0 < s.nSteps then _ else s) = _
  split <;> rfl

/-- The dispatch of the instruction in `iw`. -/
lemma unseen_dispatch : Respects SameMachine SameMachine dispatch :=
  .bind (respects_of_holds _) fun iw => .bind (respects_of_holds _) fun _ =>
    .bind (respects_update fun _ _ => rfl) fun _ => unseen_ops iw.op.toNat

/-- **An execution.** -/
theorem unseen_execute (cycle : Cycle) : Respects SameMachine SameMachine (execute cycle) := by
  have hcount : Respects SameMachine SameMachine countStep :=
    { out := fun {s t} h => by
        obtain ⟨d, hs⟩ := sameMachine_countStep s
        obtain ⟨d', ht⟩ := sameMachine_countStep t
        rw [hs, ht]
        exact .ok () (((SameMachine.debugged s d).symm.trans h).trans (.debugged t d')) }
  exact .bind hcount fun _ => .bind unseen_dispatch fun r =>
    .bind (.modify fun h => h.retire r) fun _ => .pure _

/-! ### Passes -/

section Fetch

variable {s t : Cpu} (h : SameMachine s t)

include h

lemma SameMachine.swept : SameMachine s.swept t.swept := by
  have hdevices : SameMachine ({ s with toDevices := s.toDevices.handleSweep } : Cpu)
      { t with toDevices := t.toDevices.handleSweep } := by
    obtain ⟨d, rfl⟩ := h
    exact ⟨d, rfl⟩
  exact hdevices.hit _ _ _ _

lemma SameMachine.cycle : t.cycle = s.cycle := by
  obtain ⟨d, heq⟩ := h.swept
  rw [Cpu.cycle, heq]
  rfl

lemma SameMachine.entered : SameMachine s.entered t.entered := by
  obtain ⟨d, rfl⟩ := h
  have hgranted : (s.debugged d).granted = s.granted.debugged d := by
    cases hgrant : s.pi.piState.setUpInterruptCycle s.table with
    | none =>
        have hgrant' : (s.debugged d).pi.piState.setUpInterruptCycle (s.debugged d).table = none :=
          hgrant
        simp only [Cpu.granted, hgrant, hgrant']
    | some grant =>
        have hgrant' : (s.debugged d).pi.piState.setUpInterruptCycle (s.debugged d).table =
          some grant := hgrant
        simp only [Cpu.granted, hgrant, hgrant']
        rfl
  refine ⟨d, ?_⟩
  rw [Cpu.entered, Cpu.entered, hgranted]
  change (if s.trapDue then _ else if s.vector ≠ 0 then _ else _) = _
  split
  · rfl
  · split <;> rfl

lemma SameMachine.fetched : SameMachine s.fetched t.fetched := by
  have hentered := h.swept.entered
  have hword : t.fetchWord = s.fetchWord := by
    obtain ⟨d, heq⟩ := hentered
    rw [Cpu.fetchWord, heq]
    rfl
  have hread := hentered.hit s.swept.entered.addressGBPs t.swept.entered.addressGBPs
    s.swept.entered.fetchPC.vma.toNat t.swept.entered.fetchPC.vma.toNat
  have hiw : SameMachine
      ({ s.swept.entered.hit s.swept.entered.addressGBPs s.swept.entered.fetchPC.vma.toNat with
        iw := s.fetchWord } : Cpu)
      { t.swept.entered.hit t.swept.entered.addressGBPs t.swept.entered.fetchPC.vma.toNat with
        iw := t.fetchWord } := by
    obtain ⟨d, heq⟩ := hread
    rw [heq, hword]
    exact ⟨d, rfl⟩
  exact hiw.hit _ _ _ _

end Fetch

/-- The commands after which the program goes on where it is. -/
def DebugCommand.Resumes : DebugCommand → Prop
  | .step _ => True
  | .continue => True
  | _ => False

/-- A pass after its fetch executes the instruction, perhaps with other values of the debugger. -/
lemma run_pass_of_resumes {command : DebugCommand} (h : command.Resumes) (s : Cpu) :
    ∃ d, (pass command).run s = (execute s.cycle).run (s.fetched.debugged d) := by
  rw [run_pass]
  split
  case isTrue =>
    obtain ⟨d, heq⟩ := SameMachine.refl s.fetched
    exact ⟨d, by rw [← heq]⟩
  case isFalse =>
    have hresume (n : ℤ) : ∃ d, (do resume n; execute s.cycle : Exec Outcome).run s.fetched =
        (execute s.cycle).run (s.fetched.debugged d) :=
      ⟨⟨true, n, s.fetched.opBPs, s.fetched.addressGBPs, s.fetched.addressPBPs,
        s.fetched.executeBPs⟩, rfl⟩
    cases command with
    | step n => exact hresume n
    | «continue» => exact hresume 0
    | _ => exact h.elim

/-- **A pass**: the debugger may be entered in one machine and not in the other. -/
theorem unseen_pass {command command' : DebugCommand} (h : command.Resumes)
    (h' : command'.Resumes) {s t : Cpu} (hst : SameMachine s t) :
    Alike SameMachine ((pass command).run s) ((pass command').run t) := by
  obtain ⟨d, hs⟩ := run_pass_of_resumes h s
  obtain ⟨d', ht⟩ := run_pass_of_resumes h' t
  rw [hs, ht, hst.cycle]
  exact (unseen_execute s.cycle).out
    (((SameMachine.debugged _ d).symm.trans hst.fetched).trans (.debugged _ d'))

/-! ### Sessions -/

/-- Rounds of the loop of `emulate`, each with the answer of the user if the debugger is entered
in it. -/
def session : List DebugCommand → Exec (List Outcome)
  | [] => return []
  | command :: commands => do
      let outcome ← pass command
      let outcomes ← session commands
      return outcome :: outcomes

/-- **Debugging is transparent**: from machines that differ in the debugger only, two sessions of
one length in which the user always lets the program go on, by single or counted steps or by
`continue`, execute the same instructions with the same results, and leave machines that again
differ in the debugger only; and a fault stops both or none. -/
theorem sessions_agree {s t : Cpu} (hst : SameMachine s t) {answers answers' : List DebugCommand}
    (h : ∀ c ∈ answers, c.Resumes) (h' : ∀ c ∈ answers', c.Resumes)
    (hlength : answers.length = answers'.length) :
    Alike SameMachine ((session answers).run s) ((session answers').run t) := by
  induction answers generalizing answers' s t with
  | nil =>
      obtain rfl := List.length_eq_zero_iff.mp hlength.symm
      exact .ok [] hst
  | cons command answers ih =>
      cases answers' with
      | nil => cases hlength
      | cons command' answers' =>
          rw [List.forall_mem_cons] at h h'
          have hpass := unseen_pass h.1 h'.1 hst
          generalize hs : (pass command).run s = x at hpass
          generalize ht : (pass command').run t = y at hpass
          rw [session, session]
          cases hpass with
          | error e =>
              rw [run_bind_of_error hs, run_bind_of_error ht]
              exact .error e
          | ok outcome hpost =>
              have hrest := ih hpost h.2 h'.2 (Nat.succ.inj hlength)
              rw [run_bind_of_ok hs, run_bind_of_ok ht]
              generalize hs' : (session answers).run _ = x at hrest
              generalize ht' : (session answers').run _ = y at hrest
              cases hrest with
              | error e =>
                  rw [run_bind_of_error hs', run_bind_of_error ht']
                  exact .error e
              | ok outcomes hfinal =>
                  rw [run_bind_of_ok hs', run_bind_of_ok ht']
                  exact .ok _ hfinal

/-- A machine at 01000 that stands still, with MOVEI in all of memory. -/
def Cpu.standing : Cpu :=
  { Cpu.initial with pc := 0o1000, fetchPC := 0o1000, memP := fun _ => 0o201000000000 }

/-- The breakpoints at every address and opcode below 1024, on a machine that stands still. -/
def Debugging.everywhere : Debugging :=
  ⟨false, 0, List.range 1024, List.range 1024, List.range 1024, List.range 1024⟩

/-- Single steps, and two times `continue` past breakpoints everywhere. -/
theorem sessions_agree_initial :
    Alike SameMachine ((session [.step 1, .step 1]).run Cpu.initial)
      ((session [.continue, .continue]).run (Cpu.initial.debugged .everywhere)) :=
  sessions_agree (.debugged _ _) (by simp [DebugCommand.Resumes])
    (by simp [DebugCommand.Resumes]) rfl

end KM10
