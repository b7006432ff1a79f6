import KM10.Debugger.Stepping
import KM10.Devices.Reset

/-!
The console: what is typed, and what a program reads of it (`dte20.cpp`).

The console thread appends the characters to `ctyQ`, between any two passes of the loop, and
control-\ stops the machine instead.  A program asks for a character through the monitor protocol:
it leaves `ctyInput` in `DTEto11Arg`, rings the doorbell with a CONO DTE and finds the answer in
`DTEto10Arg`.

* `ConsoleStep`: a pass of the machine, or a character that is typed;
* `SameQueue`: no instruction but a request for input touches the characters that wait;
* `asked_of_step`: a request takes the first of them, answers with it and is acknowledged;
* `console_in_order`: so a program reads what has been typed.
-/

namespace KM10

open StateExcept

/-! ### The queue -/

/-- The characters that wait stay. -/
def SameQueue (s t : Cpu) : Prop := t.dte.ctyQ = s.dte.ctyQ

namespace SameQueue

lemma of_devices {s t : Cpu} (h : t.toDevices = s.toDevices) : SameQueue s t := by
  rw [SameQueue, h]

lemma after {s t u : Cpu} (hst : SameQueue s t) (htu : SameQueue t u) : SameQueue s u :=
  htu.trans hst

instance plainPI : PlainPI SameQueue where
  trans := after
  core hdevices _ _ := of_devices hdevices
  ac _ _ _ := rfl
  pi _ _ := rfl

lemma of_putAPRConditions (s : Cpu) (v : BitVec 18) :
    SameQueue s { s with toDevices := s.toDevices.putAPRConditions v } := by
  rw [SameQueue]
  simp only [Devices.putAPRConditions]
  split <;> rfl

/-- The other devices have nothing to do with it. -/
lemma plainDevice {dev : DeviceName} (h : dev ≠ .dte) : PlainDevice SameQueue dev where
  update hg s := by
    cases hg with
    | putConditions =>
        cases dev with
        | apr => exact of_putAPRConditions s _
        | _ => rfl
    | ctyQ => exact absurd rfl h
    | _ => rfl

/-- The count of a cycle and the grant of an interrupt keep it. -/
lemma fetched (s : Cpu) : SameQueue s s.fetched := by
  have hswept : SameQueue s s.swept := by
    change s.toDevices.handleSweep.dte.ctyQ = s.toDevices.dte.ctyQ
    rw [Devices.handleSweep]
    split <;> rfl
  have hgranted : SameQueue s.swept s.swept.granted := by
    rw [Cpu.granted]
    split <;> rfl
  have hentered : SameQueue s.swept s.swept.entered := by
    rw [Cpu.entered]
    split
    · rfl
    · split
      · exact hgranted
      · exact hgranted
  exact hswept.after hentered

end SameQueue

/-! ### Other I/O instructions of the front end -/

/-- The front end keeps the queue in all operations but CONO. -/
lemma handleIO_frames_dte {ioOp : IOOp} {ea : W36} (h : ioOp ≠ .CONO) :
    Frames SameQueue <| handleIO .dte ioOp ea := by
  have hsweep : Holds (plainLogic SameQueue) (sweepFirst .dte) := by
    rw [sweepFirst, if_neg DeviceName.noConfusion]
    infer_instance
  have hconditions : Holds (plainLogic SameQueue) (getConditions .dte) := by
    rw [getConditions, if_neg DeviceName.noConfusion]
    infer_instance
  have hDATAI : Holds (plainLogic SameQueue) (doDATAI .dte) := by
    rw [doDATAI]
    infer_instance
  have hDATAO : Holds (plainLogic SameQueue) (doDATAO .dte) := by
    rw [doDATAO, if_neg DeviceName.noConfusion, if_neg DeviceName.noConfusion]
    infer_instance
  have htest : Holds (plainLogic SameQueue) (testConditions .dte ea) := by
    rw [testConditions]
    infer_instance
  have hall : Holds (plainLogic SameQueue) <| handleIO .dte ioOp ea := by
    cases ioOp with
    | BLKI => unfold handleIO; rw [doBLKI, if_neg DeviceName.noConfusion]; infer_instance
    | DATAI => exact hDATAI
    | BLKO => unfold handleIO; rw [doBLKO, if_neg DeviceName.noConfusion]; infer_instance
    | DATAO => exact hDATAO
    | CONO => exact absurd rfl h
    | CONI => unfold handleIO; rw [doCONI]; infer_instance
    | CONSZ => unfold handleIO; rw [doCONSZ]; infer_instance
    | CONSO => unfold handleIO; rw [doCONSO]; infer_instance
  exact hall.frames

/-- **An instruction** that does not command the front end keeps the queue. -/
lemma sameQueue_of_ops {s t : Cpu} {r : IResult}
    (h : (ops s.iw.op.toNat).run s = .ok (r, t)) (hword : ¬ s.iw.CommandsFrontEnd) :
    SameQueue s t := by
  by_cases hdevice : s.iw.op.toNat < 0o700
  · exact (frames_ops_of_not_io SameQueue hdevice).out h
  · rw [ops_io (not_lt.mp hdevice) s.iw.op.isLt, run_doIO_eq] at h
    by_cases hdev : DeviceName.ofIODev s.iw.ioDev = .dte
    · rw [hdev] at h
      exact (handleIO_frames_dte fun hCONO => hword ⟨not_lt.mp hdevice, hdev, hCONO⟩).out h
    · have := SameQueue.plainDevice hdev
      exact (frames_any_io SameQueue (fun _ _ => rfl) (fun _ _ => rfl)
        SameQueue.of_putAPRConditions).out h

/-! ### The commands -/

/-- The function in `DTEto11Arg` is `ctyInputDirect` or `ctyInput`. -/
def W36.asksInput (arg : W36) : Bool :=
  arg.rhu.extractLsb' 8 8 = 0o05 || arg.rhu.extractLsb' 8 8 = 0o07

/-- What a program gets for a typed character. -/
def answerFor (buf : BitVec 8) : BitVec 18 := (buf &&& 0o177).setWidth 18

/-- What a request finds afterwards, if the characters `q` waited: the first of them in
`DTEto10Arg`, or zero, and the acknowledgement in `DTEMonitorOpComplete`. -/
structure Answered (q : List (BitVec 8)) (t : Cpu) : Prop where
  taken : t.dte.ctyQ = q.tail
  to10Arg : (t.memP 0o450).rhu = (q.head?.map answerFor).getD 0
  opComplete : t.memP 0o444 = W36.ofNat 0o177776

/-- The answer to a request, acknowledged. -/
lemma answer_complete {v : BitVec 18} {s t : Cpu}
    (h : (do putTo10ArgRH v; monitorOpComplete : Exec Unit).run s = .ok ((), t)) :
    t.dte.ctyQ = s.dte.ctyQ ∧ (t.memP 0o450).rhu = v ∧ t.memP 0o444 = W36.ofNat 0o177776 := by
  cases h
  exact ⟨rfl, W36.rhu_setRhu _ _, rfl⟩

/-- A request takes the first character. -/
lemma answered_ctyInput {s t : Cpu}
    (h : (do ctyInput; monitorOpComplete : Exec Unit).run s = .ok ((), t)) :
    Answered s.dte.ctyQ t := by
  rw [ctyInput, bind_assoc, run_bind_of_ok (run_gets Cpu.toDevices s)] at h
  cases hq : s.dte.ctyQ with
  | nil =>
      simp only [hq] at h
      obtain ⟨hkept, harg, hcomplete⟩ := answer_complete h
      exact ⟨by rw [hkept, hq]; rfl, harg, hcomplete⟩
  | cons buf rest =>
      simp only [hq, bind_assoc] at h
      obtain ⟨_, u, htake, h⟩ := ok_of_run_bind h
      obtain ⟨hkept, harg, hcomplete⟩ := answer_complete h
      cases htake
      exact ⟨hkept, harg, hcomplete⟩

/-- The other functions of the monitor protocol take none. -/
lemma sameQueue_monitorCommand {fn data : BitVec 8} {s t : Cpu}
    (hfn : ¬ (fn = 0o05 ∨ fn = 0o07)) (h : (monitorCommand fn data).run s = .ok ((), t)) :
    SameQueue s t := by
  have hcomplete : Holds (plainLogic SameQueue) monitorOpComplete := by
    rw [monitorOpComplete]
    infer_instance
  rw [not_or, ← BitVec.toNat_inj, ← BitVec.toNat_inj] at hfn
  rw [monitorCommand] at h
  split at h
  case h_3 hfn' => exact absurd hfn' hfn.1
  case h_4 hfn' => exact absurd hfn' hfn.2
  all_goals exact (Holds.frames SameQueue inferInstance).out h

/-- The effective address stays. -/
def SameEa (s t : Cpu) : Prop := t.ea = s.ea

instance sameEa_refl : Std.Refl SameEa := ⟨fun _ => rfl⟩

instance sameEa_isTrans : IsTrans Cpu SameEa := ⟨fun _ _ _ hst htu => Eq.trans htu hst⟩

/-- A command leaves the effective address alone. -/
lemma frames_ea_monitorCommand (fn data : BitVec 8) : Frames SameEa (monitorCommand fn data) := by
  have hstop : Frames SameEa stop := Frames.modify _ fun _ => rfl
  have hpoke (v : W36) (a : BitVec 18) : Frames SameEa (pokeMem v a) := Frames.modify _ fun _ => rfl
  have hdevices (g : Devices → Devices) : Frames SameEa (modifyDevices g) :=
    Frames.modify _ fun _ => rfl
  have hpeek (a : BitVec 18) : Frames SameEa (peekMem a) := by rw [peekMem]; infer_instance
  have hcomplete : Frames SameEa monitorOpComplete := by rw [monitorOpComplete]; infer_instance
  have hput (v : BitVec 18) : Frames SameEa (putTo10ArgRH v) := by
    rw [putTo10ArgRH]
    infer_instance
  have hinput : Frames SameEa ctyInput := by
    rw [ctyInput]
    refine @Frames.bind _ _ _ _ _ _ _ _ inferInstance fun d => ?_
    split <;> infer_instance
  rw [monitorCommand]
  split <;> infer_instance

/-- **A CONO DTE** that rings the doorbell for input is answered; any other keeps the queue. -/
lemma doDTECONO_spec {ea : W36} {s t : Cpu} {r : IResult}
    (h : (doDTECONO ea).run s = .ok (r, t)) :
    t.ea = s.ea ∧ if ea.rhu.getLsbD 13 && (s.memP 0o451).asksInput then Answered s.dte.ctyQ t
      else SameQueue s t := by
  obtain ⟨_, u, hput, h⟩ := ok_of_run_bind h
  have hqueue : u.dte.ctyQ = s.dte.ctyQ := by
    cases hput
    rfl
  have hmem : u.memP = s.memP := by
    cases hput
    rfl
  have hea : u.ea = s.ea := by
    cases hput
    rfl
  obtain ⟨_, v, hcommand, h⟩ := ok_of_run_bind h
  cases h
  split at hcommand
  case isFalse hbell =>
    cases hcommand
    rw [Bool.not_eq_true] at hbell
    simp only [hbell, Bool.false_and, Bool.false_eq_true, if_false]
    exact ⟨hea, hqueue⟩
  case isTrue hbell =>
    have harg : (peekMem 0o451).run u = .ok (s.memP 0o451, u) := by rw [← hmem]; rfl
    rw [run_bind_of_ok harg] at hcommand
    refine ⟨((frames_ea_monitorCommand _ _).out hcommand).trans hea, ?_⟩
    rw [hbell, Bool.true_and]
    split
    case isTrue hinput =>
      rw [← hqueue]
      refine answered_ctyInput ?_
      simp only [W36.asksInput, Bool.or_eq_true, decide_eq_true_eq] at hinput
      rcases hinput with hfn | hfn <;> rw [hfn] at hcommand <;> exact hcommand
    case isFalse hinput =>
      simp only [W36.asksInput, Bool.or_eq_true, decide_eq_true_eq] at hinput
      exact (sameQueue_monitorCommand hinput hcommand).trans hqueue

/-! ### Passes and keys -/

/-- What happens at the console and in the machine. -/
inductive ConsoleEvent where
  | typed (buf : BitVec 8)
  | pass (outcome : Outcome)

/-- What `consoleIOLoop` does with a character: control-\ signals the debugger. -/
def Cpu.typed (s : Cpu) (buf : BitVec 8) : Cpu :=
  if buf = 0x1c then { s with running := false }
  else { s with dte := { s.dte with ctyQ := s.dte.ctyQ ++ [buf] } }

/-- A character is typed, or the machine makes a pass. -/
inductive ConsoleStep : Cpu → ConsoleEvent → Cpu → Prop where
  | typed (s : Cpu) (buf : BitVec 8) : ConsoleStep s (.typed buf) (s.typed buf)
  | pass {s t : Cpu} {outcome : Outcome} (h : Pass s outcome t) : ConsoleStep s (.pass outcome) t

instance (w : W36) : Decidable w.CommandsFrontEnd := inferInstanceAs (Decidable (_ ∧ _ ∧ _))

/-- The character that a step adds to the queue. -/
def keyOf (x : TraceStep Cpu ConsoleEvent) : Option (BitVec 8) :=
  match x.label with
  | .typed buf => if buf = 0x1c then none else some buf
  | .pass _ => none

/-- The step executes a CONO DTE that rings the doorbell for input. -/
def asks (x : TraceStep Cpu ConsoleEvent) : Bool :=
  match x.label with
  | .pass (.executed _ _) =>
      x.pre.fetchWord.CommandsFrontEnd && (x.post.ea.rhu.getLsbD 13 && (x.pre.memP 0o451).asksInput)
  | _ => false

/-- The character that a step takes from the queue. -/
def takenBy (x : TraceStep Cpu ConsoleEvent) : Option (BitVec 8) :=
  if asks x then x.pre.dte.ctyQ.head? else none

/-- An instruction of a run answers a request or keeps the queue. -/
lemma asked_of_step {s t : Cpu} {label : Cycle × IResult} (h : Step s label t) :
    if s.fetchWord.CommandsFrontEnd && (t.ea.rhu.getLsbD 13 && (s.memP 0o451).asksInput) then
      Answered s.dte.ctyQ t else SameQueue s t := by
  obtain ⟨-, last, running, nSteps, v, -, hop, rfl⟩ := exists_of_step h
  have hfetched : SameQueue s (s.dispatched last running nSteps) := SameQueue.fetched s
  have hretired : SameQueue v (v.retire label.2) :=
    SameQueue.of_devices (retire_toDevices v label.2)
  by_cases hword : s.fetchWord.CommandsFrontEnd
  · rw [ops_io hword.1 s.fetchWord.op.isLt, run_doIO_eq, dispatched_iw, hword.2.1, hword.2.2] at hop
    obtain ⟨hea, hspec⟩ := doDTECONO_spec hop
    have hmem : (s.dispatched last running nSteps).memP = s.memP := fetched_memP s
    rw [← hea, hmem, hfetched] at hspec
    rw [decide_eq_true hword, Bool.true_and, retire_ea]
    split at hspec
    case isTrue hask =>
      rw [if_pos hask]
      exact ⟨hretired.trans hspec.taken, by rw [retire_memP, hspec.to10Arg],
        by rw [retire_memP, hspec.opComplete]⟩
    case isFalse hask =>
      rw [if_neg hask]
      exact (hfetched.after hspec).after hretired
  · have hkept : SameQueue (s.dispatched last running nSteps) v := sameQueue_of_ops hop hword
    simp only [hword, decide_false, Bool.false_and, Bool.false_eq_true, if_false]
    exact (hfetched.after hkept).after hretired

/-- **A step of the console** adds the key to the end of the queue, takes the first character of it
as the answer to a request, or leaves it. -/
lemma queue_of_consoleStep {s t : Cpu} {e : ConsoleEvent} (h : ConsoleStep s e t) :
    s.dte.ctyQ ++ (keyOf ⟨s, e, t⟩).toList = (takenBy ⟨s, e, t⟩).toList ++ t.dte.ctyQ ∧
      (asks ⟨s, e, t⟩ → Answered s.dte.ctyQ t) := by
  have hkept (hasks : asks ⟨s, e, t⟩ = false) (hkey : keyOf ⟨s, e, t⟩ = none)
      (hqueue : SameQueue s t) :
      s.dte.ctyQ ++ (keyOf ⟨s, e, t⟩).toList = (takenBy ⟨s, e, t⟩).toList ++ t.dte.ctyQ ∧
        (asks ⟨s, e, t⟩ → Answered s.dte.ctyQ t) := by
    rw [takenBy, hasks, hkey, hqueue]
    exact ⟨List.append_nil _, fun h => absurd h Bool.false_ne_true⟩
  cases h with
  | typed buf =>
      by_cases hbuf : buf = 0x1c
      · exact hkept rfl (if_pos hbuf) (by rw [Cpu.typed, if_pos hbuf]; rfl)
      · have hkey : keyOf ⟨s, .typed buf, s.typed buf⟩ = some buf := if_neg hbuf
        refine ⟨?_, fun h => absurd h Bool.false_ne_true⟩
        rw [hkey, Cpu.typed, if_neg hbuf]
        rfl
  | @pass _ outcome h =>
      cases outcome with
      | executed cycle result =>
          have hstep := @asked_of_step _ _ (cycle, result) h
          split at hstep
          case isTrue hask =>
            have htaken : takenBy ⟨s, .pass (.executed cycle result), t⟩ = s.dte.ctyQ.head? :=
              if_pos hask
            have hkey : keyOf ⟨s, .pass (.executed cycle result), t⟩ = none := rfl
            refine ⟨?_, fun _ => hstep⟩
            rw [htaken, hkey, hstep.taken]
            cases s.dte.ctyQ <;> simp
          case isFalse hask => exact hkept (Bool.eq_false_iff.mpr hask) rfl hstep
      | _ =>
          rcases h.executed_or_sameBlocks with ⟨result, hexecuted⟩ | ⟨hsame, -⟩
          · cases hexecuted
          · exact hkept rfl rfl ((SameQueue.fetched s).after (.of_devices hsame))

/-! ### Runs -/

/-- What a program finds in `DTEto10Arg` after its requests, in order. -/
def answers (steps : List (TraceStep Cpu ConsoleEvent)) : List (BitVec 18) :=
  (steps.filter asks).map fun x => (x.post.memP 0o450).rhu

/-- The answers other than zero are those for the characters taken. -/
lemma answers_filter {steps : List (TraceStep Cpu ConsoleEvent)}
    (h : ∀ x ∈ steps, asks x → Answered x.pre.dte.ctyQ x.post) :
    (answers steps).filter (· ≠ 0) =
      ((steps.filterMap takenBy).map answerFor).filter (· ≠ 0) := by
  induction steps with
  | nil => rfl
  | cons x steps ih =>
      rw [List.forall_mem_cons] at h
      have ih := ih h.2
      rw [answers] at ih ⊢
      by_cases hask : asks x
      · have htaken : takenBy x = x.pre.dte.ctyQ.head? := if_pos hask
        have harg := (h.1 hask).to10Arg
        rw [List.filter_cons_of_pos hask, List.map_cons, List.filterMap_cons, htaken, harg]
        cases x.pre.dte.ctyQ with
        | nil => simpa using ih
        | cons buf rest =>
            simp only [List.head?_cons, Option.map_some, Option.getD_some, List.map_cons,
              List.filter_cons, ih]
      · have htaken : takenBy x = none := if_neg hask
        rw [List.filter_cons_of_neg hask, List.filterMap_cons, htaken, ih]

/-- **What is typed is read**: in every run, whatever is typed and executed in which order, the
characters that requests for input take, followed by those that wait in the end, are those that
waited at first followed by those typed, in this order.  Every request is acknowledged; and a
program that ignores the answers that are zero, as it gets from an empty queue, reads the
characters typed, in seven bits, in order. -/
theorem console_in_order {s : Cpu} {steps : List (TraceStep Cpu ConsoleEvent)}
    (h : Trace ConsoleStep s steps) :
    s.dte.ctyQ ++ steps.filterMap keyOf =
        steps.filterMap takenBy ++ (Trace.final s steps).dte.ctyQ ∧
      (∀ x ∈ steps, asks x → x.post.memP 0o444 = W36.ofNat 0o177776) ∧
      (((s.dte.ctyQ ++ steps.filterMap keyOf).map answerFor).filter (· ≠ 0)) =
        (answers steps).filter (· ≠ 0) ++
          (((Trace.final s steps).dte.ctyQ.map answerFor).filter (· ≠ 0)) := by
  have hstep {s t : Cpu} {e : ConsoleEvent} (hst : ConsoleStep s e t) :=
    (queue_of_consoleStep hst).1
  have hqueue := h.queue_append hstep
  have hanswered := Trace.invariant (I := fun _ => True) (C := fun _ => True)
    (Q := fun x => asks x → Answered x.pre.dte.ctyQ x.post)
    (fun _ hst _ => ⟨trivial, (queue_of_consoleStep hst).2⟩) h trivial fun _ _ => trivial
  refine ⟨hqueue, fun x hx hask => ((hanswered x hx).2.2 hask).opComplete, ?_⟩
  rw [hqueue, List.map_append, List.filter_append,
    answers_filter fun x hx => (hanswered x hx).2.2]

/-- A program at 01000 that asks for input all the time. -/
def Cpu.asking : Cpu :=
  { Cpu.initial with
    pc := 0o1000
    fetchPC := 0o1000
    running := true
    memP := fun a => if a = 0o451 then 0o2400 else 0o720200020000 }

/-- Two characters are typed, and one is read. -/
theorem console_in_order_typed : ∃ t : Cpu, t.dte.ctyQ = [0x42] ∧ (t.memP 0o450).rhu = 0o101 ∧
    ∃ steps, Cpu.asking.dte.ctyQ ++ steps.filterMap keyOf =
        steps.filterMap takenBy ++ (Trace.final Cpu.asking steps).dte.ctyQ ∧
      (∀ x ∈ steps, asks x → x.post.memP 0o444 = W36.ofNat 0o177776) ∧
      (((Cpu.asking.dte.ctyQ ++ steps.filterMap keyOf).map answerFor).filter (· ≠ 0)) =
        (answers steps).filter (· ≠ 0) ++
          (((Trace.final Cpu.asking steps).dte.ctyQ.map answerFor).filter (· ≠ 0)) := by
  have hstep : Step ((Cpu.asking.typed 0xc1).typed 0x42) (.normal, .iNormal)
      ((Cpu.asking.typed 0xc1).typed 0x42).next := step_next (by decide +kernel)
  exact ⟨((Cpu.asking.typed 0xc1).typed 0x42).next, by decide +kernel, by decide +kernel, _,
    console_in_order <| .cons (.typed _ 0xc1) <| .cons (.typed _ 0x42) <| .cons (.pass hstep) <|
      .nil _⟩

end KM10
