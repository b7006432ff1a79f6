import KM10.Effects.Pass
import KM10.Library.Trace

/-!
The interrupt requests of CONO APR.

The request test of `APRDevice::putConditions` compares sets of conditions as numbers, and only in
a word that enables and sets, although either makes a condition enabled and active.

* `newConditions`: the conditions that become enabled and active;
* `RequestsNew`: what a CONO APR promises of them;
* `applyFunctions_eq`: what it does;
* `RequestsRight`, `requestsNew_iff`: the words that keep the promise;
* `apr_requests_iff`: a sequence of words and ends of sweeps from the cleared state;
* `apr_requests_missed`: a condition that is set first and enabled then requests nothing.
-/

namespace KM10

open StateExcept

/-! ### The promise -/

lemma or_and_eq_right (a b : BitVec 8) : (a ||| b) &&& b = b := by
  ext i hi
  rw [BitVec.getElem_and, BitVec.getElem_or]
  cases a[i] <;> cases b[i] <;> rfl

namespace APRDevice

variable (d : APRDevice)

/-- The conditions that are enabled and active. -/
def interrupting : BitVec 8 := d.aprState.enabled &&& d.aprState.active

/-- The conditions that have become enabled and active. -/
def newConditions (d' : APRDevice) : BitVec 8 := d'.interrupting &&& ~~~ d.interrupting

/-- New conditions request the interrupt, and nothing else does. -/
structure RequestsNew (d' : APRDevice) : Prop where
  requests : d.newConditions d' ≠ 0 → d'.aprState.intRequest = true ∧ d'.intPending = true
  quiet : d.newConditions d' = 0 →
    d'.aprState.intRequest = d.aprState.intRequest ∧ d'.intPending = d.intPending

/-- The words that request the interrupt as they should.  Either it is requested already; or the
word enables and sets, and the selected conditions are all enabled and active before or are more
than the active ones as a number; or it enables or sets only, and no selected condition was active
or enabled without the other, unless the word also takes that one away. -/
def RequestsRight (func : APRFunctions) : Prop :=
  d.intPending = true ∨
    match func.enable, func.set with
    | true, true => func.select &&& ~~~ d.interrupting = 0 ∨ d.aprState.active < func.select
    | true, false => func.clear = true ∨
        func.select &&& d.aprState.active &&& ~~~ d.aprState.enabled = 0
    | false, true => func.disable = true ∨
        func.select &&& d.aprState.enabled &&& ~~~ d.aprState.active = 0
    | false, false => True

/-! ### One word -/

/-- The enabled conditions after a word. -/
def enabledAfter (func : APRFunctions) : BitVec 8 :=
  let enabled := if func.disable then d.aprState.enabled &&& ~~~ func.select else d.aprState.enabled
  if func.enable then enabled ||| func.select else enabled

/-- The active conditions after a word. -/
def activeAfter (func : APRFunctions) : BitVec 8 :=
  let active := if func.clear then d.aprState.active &&& ~~~ func.select else d.aprState.active
  if func.set then active ||| func.select else active

/-- The request test of `putConditions`. -/
def requestTest (func : APRFunctions) : Bool :=
  func.enable && func.set && decide (d.aprState.active < (d.enabledAfter func &&& func.select))

lemma applyFunctions_eq (func : APRFunctions) :
    d.applyFunctions func =
      { d with
        intLevel := func.intLevel.toNat
        intPending := d.intPending || d.requestTest func
        aprState :=
          { d.aprState with
            intLevel := func.intLevel
            intRequest := d.aprState.intRequest || d.requestTest func
            active := d.activeAfter func
            enabled := d.enabledAfter func } } := by
  rw [applyFunctions, activeAfter, requestTest, enabledAfter]
  cases func.disable <;> cases func.enable <;> cases func.set <;> cases func.clear
  all_goals
    simp only [Bool.and_false, Bool.and_true, Bool.false_and, Bool.true_and, Bool.or_false,
      Bool.false_eq_true, if_true, if_false, true_and, false_and, and_false]
  all_goals try split
  all_goals first
    | rfl
    | simp only [requestInterrupt, decide_true, Bool.or_true, decide_false, Bool.or_false, *]

lemma requestTest_eq (func : APRFunctions) :
    d.requestTest func = (func.enable && func.set && decide (d.aprState.active < func.select)) := by
  rw [requestTest, enabledAfter]
  cases func.enable with
  | false => rfl
  | true =>
      rw [if_pos rfl, or_and_eq_right]

/-- The new conditions of a word: they are among the selected ones. -/
lemma newConditions_apply (func : APRFunctions) :
    d.newConditions (d.applyFunctions func) =
      match func.enable, func.set with
      | true, true => func.select &&& ~~~ d.interrupting
      | true, false =>
          if func.clear then 0 else func.select &&& d.aprState.active &&& ~~~ d.aprState.enabled
      | false, true =>
          if func.disable then 0 else func.select &&& d.aprState.enabled &&& ~~~ d.aprState.active
      | false, false => 0 := by
  rw [applyFunctions_eq, newConditions, interrupting, interrupting, enabledAfter, activeAfter]
  cases func.disable <;> cases func.enable <;> cases func.set <;> cases func.clear
  all_goals
    simp only [Bool.false_eq_true, if_true, if_false]
    ext i hi
    have hzero : (0 : BitVec 8)[i] = false := BitVec.getElem_zero hi
    simp only [BitVec.getElem_and, BitVec.getElem_or, BitVec.getElem_not, hzero]
    cases func.select[i] <;> cases d.aprState.enabled[i] <;> cases d.aprState.active[i] <;> rfl

/-- While no interrupt is requested, the promise is that the test finds the new conditions. -/
lemma requestsNew_iff_test {func : APRFunctions} (hd : d.aprState.intRequest = d.intPending) :
    d.RequestsNew (d.applyFunctions func) ↔ d.intPending = true ∨
      (d.requestTest func = true ↔ d.newConditions (d.applyFunctions func) ≠ 0) := by
  have hrequest : (d.applyFunctions func).aprState.intRequest =
      (d.aprState.intRequest || d.requestTest func) := by rw [applyFunctions_eq]
  have hpending : (d.applyFunctions func).intPending =
      (d.intPending || d.requestTest func) := by rw [applyFunctions_eq]
  rw [hd] at hrequest
  constructor
  · rintro ⟨hrequests, hquiet⟩
    rw [hrequest, hpending] at hrequests hquiet
    cases hp : d.intPending with
    | true => exact .inl rfl
    | false =>
        rw [hp, Bool.false_or] at hrequests hquiet
        rw [hd, hp] at hquiet
        refine .inr ⟨fun htest hzero => ?_, fun hne => (hrequests hne).1⟩
        rw [(hquiet hzero).1] at htest
        cases htest
  · rintro (hp | hiff)
    · rw [hp, Bool.true_or] at hrequest hpending
      exact ⟨fun _ => ⟨hrequest, hpending⟩,
        fun _ => ⟨by rw [hrequest, hd, hp], by rw [hpending, hp]⟩⟩
    · refine ⟨fun hne => ?_, fun hzero => ?_⟩
      · rw [hrequest, hpending, hiff.mpr hne, Bool.or_true]
        exact ⟨rfl, rfl⟩
      · have htest : d.requestTest func = false :=
          Bool.eq_false_of_not_eq_true fun htest => hiff.mp htest hzero
        rw [hrequest, hpending, htest, Bool.or_false]
        exact ⟨hd.symm, rfl⟩

/-- Conditions that are all active are not more than the active ones as a number. -/
lemma not_active_lt (select : BitVec 8) (h : select &&& ~~~ d.interrupting = 0) :
    ¬ d.aprState.active < select := by
  have hand : d.aprState.active &&& select = select := by
    ext i hi
    have hbit : (select &&& ~~~ d.interrupting)[i] = false := by
      rw [h]
      exact BitVec.getElem_zero hi
    rw [interrupting, BitVec.getElem_and, BitVec.getElem_not, BitVec.getElem_and] at hbit
    rw [BitVec.getElem_and]
    revert hbit
    cases select[i] <;> cases d.aprState.enabled[i] <;> cases d.aprState.active[i] <;> decide
  rw [BitVec.not_lt, ← hand, BitVec.le_def, BitVec.toNat_and]
  exact Nat.and_le_left

/-- A word requests new conditions exactly if it is a right one. -/
lemma requestsNew_iff (func : APRFunctions) (hd : d.aprState.intRequest = d.intPending) :
    d.RequestsNew (d.applyFunctions func) ↔ d.RequestsRight func := by
  rw [requestsNew_iff_test d hd, newConditions_apply, requestTest_eq, RequestsRight]
  refine or_congr_right ?_
  cases func.enable with
  | false =>
      cases func.set with
      | false => simp
      | true => cases func.disable <;> simp
  | true =>
      cases func.set with
      | false => cases func.clear <;> simp
      | true =>
          have hlt := d.not_active_lt func.select
          simp only [Bool.true_and, decide_eq_true_eq]
          tauto

end APRDevice

/-! ### A sequence of words -/

/-- A CONO APR word or the end of a sweep. -/
inductive AprEvent where
  | CONO (v : BitVec 18)
  | endSweep

/-- A CONO APR instruction whose word resets no I/O, or the end of a cache sweep. -/
inductive AprStep : Cpu → AprEvent → Cpu → Prop where
  | CONO {s t : Cpu} {ea : W36} {r : IResult}
      (hclear : APRFunctions.clearIO (.ofBits ea.rhu) = false)
      (hrun : (doCONO .apr ea).run s = .ok (r, t)) : AprStep s (.CONO ea.rhu) t
  | endSweep {s : Cpu} : AprStep s .endSweep
      { s with toDevices := { s.toDevices with apr := s.apr.endSweep } }

/-- The handler writes the conditions. -/
lemma run_doCONO_apr (ea : W36) (s : Cpu) :
    (doCONO .apr ea).run s =
      .ok (.iNormal, { s with toDevices := s.toDevices.putAPRConditions ea.rhu }) := rfl

/-- A word of the sequence is what the promise is about. -/
lemma AprStep.apr_eq {s t : Cpu} {v : BitVec 18} (h : AprStep s (.CONO v) t) :
    t.apr = s.apr.applyFunctions (.ofBits v) := by
  cases h with
  | CONO hclear hrun =>
      rw [run_doCONO_apr] at hrun
      cases hrun
      rw [Devices.putAPRConditions, hclear]
      rfl

/-- The two request bits agree. -/
lemma AprStep.intRequest_eq {s t : Cpu} {e : AprEvent} (h : AprStep s e t)
    (hs : s.apr.aprState.intRequest = s.apr.intPending) :
    t.apr.aprState.intRequest = t.apr.intPending := by
  cases e with
  | CONO v =>
      rw [h.apr_eq, APRDevice.applyFunctions_eq, hs]
  | endSweep =>
      cases h
      change s.apr.endSweep.aprState.intRequest = s.apr.endSweep.intPending
      rw [APRDevice.endSweep]
      split
      · rfl
      · exact hs

/-- A step keeps the promise. -/
def AprStepRight (x : TraceStep Cpu AprEvent) : Prop :=
  match x.label with
  | .CONO _ => x.pre.apr.RequestsNew x.post.apr
  | .endSweep => True

/-- A step keeps the promise exactly if its word is a right one. -/
lemma AprStep.right_iff {s t : Cpu} {e : AprEvent} (h : AprStep s e t)
    (hs : s.apr.aprState.intRequest = s.apr.intPending) :
    AprStepRight ⟨s, e, t⟩ ↔ ∀ v, e = .CONO v → s.apr.RequestsRight (.ofBits v) := by
  cases e with
  | CONO v =>
      have hiff := s.apr.requestsNew_iff (.ofBits v) hs
      rw [← h.apr_eq] at hiff
      rw [AprStepRight, hiff]
      exact ⟨fun hright w hw => AprEvent.CONO.inj hw ▸ hright, fun hright => hright v rfl⟩
  | endSweep => exact iff_of_true trivial fun v hv => AprEvent.noConfusion hv

/-- **APR requests**: in a sequence of CONO APR words without reset and ends of sweeps from the
cleared state, every word requests the new conditions exactly if every word is a right one. -/
theorem apr_requests_iff {s : Cpu} (hs : s.apr.clearIO = s.apr)
    {steps : List (TraceStep Cpu AprEvent)} (h : Trace AprStep s steps) :
    (∀ x ∈ steps, AprStepRight x) ↔
      ∀ x ∈ steps, ∀ v, x.label = .CONO v → x.pre.apr.RequestsRight (.ofBits v) := by
  refine h.forall_iff (I := fun s => s.apr.aprState.intRequest = s.apr.intPending)
    (C := fun x => ∀ v, x.label = .CONO v → x.pre.apr.RequestsRight (.ofBits v))
    (fun hs hstep => ?_) ?_
  · exact ⟨hstep.right_iff hs, fun _ => hstep.intRequest_eq hs⟩
  · rw [← hs]
    rfl

/-- The machine after a CONO APR word. -/
def Cpu.afterCONOAPR (s : Cpu) (v : BitVec 18) : Cpu :=
  { s with toDevices := s.toDevices.putAPRConditions v }

lemma aprStep_afterCONOAPR {s : Cpu} {v : BitVec 18}
    (h : APRFunctions.clearIO (.ofBits v) = false) :
    AprStep s (.CONO v) (s.afterCONOAPR v) := by
  have hrhu : (W36.halves 0 v).rhu = v := BitVec.extractLsb'_append_eq_right
  have hstep : AprStep s (.CONO (W36.halves 0 v).rhu) (s.afterCONOAPR (W36.halves 0 v).rhu) :=
    .CONO (by rwa [hrhu]) (run_doCONO_apr _ s)
  rwa [hrhu] at hstep

/-- Enabling and setting the sweep-done condition in one word requests the interrupt. -/
theorem apr_requests_iff_once :
    AprStepRight ⟨Cpu.initial, .CONO 0o110020, Cpu.initial.afterCONOAPR 0o110020⟩ := by
  refine (apr_requests_iff rfl (.cons (aprStep_afterCONOAPR (by decide)) (.nil _))).mpr ?_ _
    List.mem_cons_self
  rw [List.forall_mem_singleton]
  intro v hv
  cases hv
  exact .inr (.inr (by decide))

/-- **A missed request**: a word sets the sweep-done condition and the next one enables it, which
makes it enabled and active and requests nothing. -/
theorem apr_requests_missed :
    Trace AprStep Cpu.initial
        [⟨Cpu.initial, .CONO 0o010020, Cpu.initial.afterCONOAPR 0o010020⟩,
          ⟨Cpu.initial.afterCONOAPR 0o010020, .CONO 0o100020,
            (Cpu.initial.afterCONOAPR 0o010020).afterCONOAPR 0o100020⟩] ∧
      Cpu.initial.apr.clearIO = Cpu.initial.apr ∧
      ¬ AprStepRight ⟨Cpu.initial.afterCONOAPR 0o010020, .CONO 0o100020,
            (Cpu.initial.afterCONOAPR 0o010020).afterCONOAPR 0o100020⟩ := by
  refine ⟨.cons (aprStep_afterCONOAPR (by decide))
    (.cons (aprStep_afterCONOAPR (by decide)) (.nil _)), rfl, fun h => ?_⟩
  have hrequested := (h.requests (by decide)).1
  exact absurd hrequested (by decide)

end KM10
