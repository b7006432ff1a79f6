import KM10.Interrupt.Grant
import KM10.Library.Trace

/-!
Nested interrupt services.

The abstract state of the PI device is the stack of the services that are open, the most
recent one first.  The device keeps of it the set `held` and the level `currentLevel`.

* `ServiceStep`: requests, CONO PI words, grants and dismissals, with the stack beside the
  machine;
* `Represents`: the device keeps all of a stack that is nested by priority;
* `servedInOrder_iff_of_step`: while a stack is represented, only a dismissal that leaves services
  open goes wrong;
* `served_in_order_iff`: a run serves in order of priority exactly when it has none;
* `outer_service_forgotten`: a run that has one.
-/

namespace KM10

open PIState Nesting StateExcept

/-! ### Runs of the PI device -/

/-- The machine and its open services, the most recent one first. -/
structure ServiceConfig where
  cpu : Cpu
  services : List ℕ

/-- The levels that the PI device holds. -/
def ServiceConfig.held (c : ServiceConfig) : Set ℕ := levelSet c.cpu.pi.piState.held

/-- What happens to the PI device. -/
inductive ServiceEvent where
  | request
  | cono (v : BitVec 18)
  | setUp
  | dismiss
deriving DecidableEq

/-- One step of the PI device: the other devices raise or drop requests, a CONO PI word
without the clear bit, a call of `setUpInterruptCycleIfPending`, which opens a service when
it returns a vector, and a call of `dismissInterrupt`, which ends the most recent one. -/
inductive ServiceStep : ServiceConfig → ServiceEvent → ServiceConfig → Prop where
  | request {s : Cpu} {services : List ℕ} (devices : Devices) (h : devices.pi = s.pi) :
      ServiceStep ⟨s, services⟩ .request ⟨{ s with toDevices := devices }, services⟩
  | cono {s t : Cpu} {services : List ℕ} {v : BitVec 18}
      (hclear : (PIFunctions.ofBits v).clearPI = false)
      (h : (putPIConditions v).run s = .ok ((), t)) :
      ServiceStep ⟨s, services⟩ (.cono v) ⟨t, services⟩
  | setUp {s t : Cpu} {services : List ℕ} {vec : W36}
      (h : setUpInterruptCycleIfPending.run s = .ok (vec, t)) :
      ServiceStep ⟨s, services⟩ .setUp
        ⟨t, if vec = 0 then services else t.pi.piState.currentLevel.toNat :: services⟩
  | dismiss {s t : Cpu} {level : ℕ} {services : List ℕ}
      (h : dismissInterrupt.run s = .ok ((), t)) :
      ServiceStep ⟨s, level :: services⟩ .dismiss ⟨t, services⟩

/-- A step in order of priority: a service starts only below every level that is open, and
the device holds the levels that are open afterwards. -/
def ServedInOrder (x : TraceStep ServiceConfig ServiceEvent) : Prop :=
  (∀ level, x.post.services = level :: x.pre.services → ∀ open' ∈ x.pre.services, level < open') ∧
    ∀ open' ∈ x.post.services, open' ∈ x.post.held

/-! ### The stack that the device keeps -/

/-- The device keeps a stack: it is nested by priority, `held` holds its levels, and
`currentLevel` is the most recent one. -/
structure Represents (p : PIState) (services : List ℕ) : Prop where
  nested : Nested services
  held : levelSet p.held = {level | level ∈ services}
  current : p.currentLevel.toNat = services.headD noLevel.toNat

namespace Represents

variable {p q : PIState} {services : List ℕ}

/-- The most recent service of a represented stack is the least held level. -/
lemma currentIsLeastHeld (h : Represents p services) : CurrentIsLeastHeld p := by
  cases services with
  | nil =>
      refine .inl ⟨levelSet_eq_empty.mp ?_, BitVec.eq_of_toNat_eq h.current⟩
      rw [h.held]
      exact Set.eq_empty_iff_forall_notMem.mpr fun level => List.not_mem_nil
  | cons level services =>
      refine .inr ?_
      rw [h.held, h.current]
      exact h.nested.isLeast_head

/-- Nothing held represents the empty stack. -/
lemma nil (hheld : p.held = 0) (hcurrent : p.currentLevel = noLevel) : Represents p [] where
  nested := nested_nil
  held := by
    rw [hheld, levelSet_zero]
    exact (Set.eq_empty_iff_forall_notMem.mpr fun level => List.not_mem_nil).symm
  current := by rw [hcurrent]; rfl

/-- The stack depends on `held` and `currentLevel` alone. -/
lemma congr (h : Represents p services) (hheld : q.held = p.held)
    (hcurrent : q.currentLevel = p.currentLevel) : Represents q services where
  nested := h.nested
  held := hheld ▸ h.held
  current := hcurrent ▸ h.current

/-- A grant puts its level on the stack. -/
lemma grantAt (h : Represents p services) {devices : List Device} {level : ℕ}
    (hg : Grants p devices level) : Represents (p.grantAt level) (level :: services) where
  nested := by
    rw [nested_cons]
    refine ⟨fun b hb => hg.2.2 b ?_, h.nested⟩
    rw [h.held]
    exact hb
  held := by
    rw [levelSet_held_grantAt p hg.bounds.1 hg.bounds.2, h.held]
    ext b
    exact List.mem_cons.symm
  current := toNat_ofNat_of_le hg.bounds.2

end Represents

/-! ### One step -/

/-- A step that ends in a represented stack is in order. -/
lemma servedInOrder_of_represents {c c' : ServiceConfig} {e : ServiceEvent}
    (h : Represents c'.cpu.pi.piState c'.services) : ServedInOrder ⟨c, e, c'⟩ := by
  refine ⟨fun level hopens open' hopen => ?_, fun open' hopen => ?_⟩
  · have hnested := h.nested
    rw [hopens, nested_cons] at hnested
    exact hnested.1 open' hopen
  · change open' ∈ levelSet c'.cpu.pi.piState.held
    rw [h.held]
    exact hopen

/-- A CONO PI word without the clear bit leaves the stack. -/
lemma Represents.putPIConditions {s t : Cpu} {services : List ℕ} {v : BitVec 18}
    (hs : Represents s.pi.piState services) (hclear : (PIFunctions.ofBits v).clearPI = false)
    (h : (putPIConditions v).run s = .ok ((), t)) : Represents t.pi.piState services := by
  rw [KM10.putPIConditions, run_bind_of_ok (run_gets Cpu.toDevices s)] at h
  cases hput : s.pi.putConditions v with
  | none => rw [hput] at h; cases h
  | some pi =>
      rw [hput, hclear] at h
      cases h
      rw [PIDevice.putConditions, hclear] at hput
      obtain ⟨hheld, hcurrent⟩ := applyFunctions_held hput
      exact hs.congr hheld hcurrent

/-- A call of `setUpInterruptCycleIfPending` puts the level that it grants on the stack. -/
lemma Represents.setUp {s t : Cpu} {services : List ℕ} {vec : W36}
    (hs : Represents s.pi.piState services)
    (h : setUpInterruptCycleIfPending.run s = .ok (vec, t)) :
    Represents t.pi.piState
      (if vec = 0 then services else t.pi.piState.currentLevel.toNat :: services) := by
  rw [run_setUpInterruptCycle] at h
  cases h
  by_cases hvec : s.vector = 0
  · rw [if_pos hvec, granted_of_vector hvec]
    exact hs
  · rw [if_neg hvec]
    cases hgrant : s.pi.piState.setUpInterruptCycle s.table with
    | none => exact absurd (vector_eq_zero_iff.mpr hgrant) hvec
    | some grant =>
        obtain ⟨hg, hp⟩ := grants_of_setUpInterruptCycle hs.currentIsLeastHeld hgrant
        have hpi : s.granted.pi.piState = s.pi.piState.grantAt grant.1 := by
          rw [Cpu.granted, hgrant]
          exact hp
        rw [hpi, (hs.grantAt hg).current]
        exact hs.grantAt hg

/-- A dismissal leaves nothing held. -/
lemma represents_dismiss {s t : Cpu} (h : dismissInterrupt.run s = .ok ((), t)) :
    Represents t.pi.piState [] := by
  cases h
  exact .nil rfl rfl

/-- Every step but a dismissal keeps the stack represented. -/
lemma Represents.step {c c' : ServiceConfig} {e : ServiceEvent}
    (hc : Represents c.cpu.pi.piState c.services) (h : ServiceStep c e c') (he : e ≠ .dismiss) :
    Represents c'.cpu.pi.piState c'.services := by
  cases h with
  | request devices hpi =>
      change Represents devices.pi.piState _
      rw [hpi]
      exact hc
  | cono hclear h => exact hc.putPIConditions hclear h
  | setUp h => exact hc.setUp h
  | dismiss h => exact absurd rfl he

/-- **One step** from a represented stack is in order, and ends in one, exactly unless it is
a dismissal that leaves services open. -/
lemma servedInOrder_iff_of_step {c c' : ServiceConfig} {e : ServiceEvent}
    (hc : Represents c.cpu.pi.piState c.services) (h : ServiceStep c e c') :
    (ServedInOrder ⟨c, e, c'⟩ ↔ (e = .dismiss → c.services.length ≤ 1)) ∧
      ((e = .dismiss → c.services.length ≤ 1) → Represents c'.cpu.pi.piState c'.services) := by
  by_cases he : e = .dismiss
  · subst he
    cases h with
    | dismiss h =>
        rename_i s t level services
        have ht := represents_dismiss h
        cases services with
        | nil => exact ⟨iff_of_true (servedInOrder_of_represents ht) fun _ => le_rfl, fun _ => ht⟩
        | cons outer services =>
            -- the outer service is open but no longer held
            have hforgotten : ¬ ServedInOrder
                ⟨⟨s, level :: outer :: services⟩, .dismiss, ⟨t, outer :: services⟩⟩ := by
              intro horder
              have hheld : outer ∈ levelSet t.pi.piState.held :=
                horder.2 outer List.mem_cons_self
              rw [ht.held] at hheld
              exact List.not_mem_nil hheld
            have hopen : ¬ (ServiceEvent.dismiss = .dismiss →
                (level :: outer :: services).length ≤ 1) := by
              intro hlength
              have := hlength rfl
              simp only [List.length_cons] at this
              omega
            exact ⟨iff_of_false hforgotten hopen, fun h => absurd h hopen⟩
  · have ht := hc.step h he
    have hcondition : e = .dismiss → c.services.length ≤ 1 := fun h => absurd h he
    exact ⟨iff_of_true (servedInOrder_of_represents ht) hcondition, fun _ => ht⟩

/-! ### Runs -/

/-- A machine in which no interrupt is being serviced. -/
structure Idle (c : ServiceConfig) : Prop where
  services : c.services = []
  held : c.cpu.pi.piState.held = 0
  currentLevel : c.cpu.pi.piState.currentLevel = noLevel

/-- **Priority nesting**: a run from an idle machine serves in order of priority exactly when
every dismissal in it ends the only open service. -/
theorem served_in_order_iff {c : ServiceConfig} (hc : Idle c)
    {steps : List (TraceStep ServiceConfig ServiceEvent)} (h : Trace ServiceStep c steps) :
    (∀ x ∈ steps, ServedInOrder x) ↔
      ∀ x ∈ steps, x.label = .dismiss → x.pre.services.length ≤ 1 := by
  refine h.forall_iff (I := fun c => Represents c.cpu.pi.piState c.services)
    (C := fun x => x.label = .dismiss → x.pre.services.length ≤ 1) servedInOrder_iff_of_step ?_
  rw [hc.services]
  exact .nil hc.held hc.currentLevel

/-- The machine after a dismissal. -/
def Cpu.dismissed (s : Cpu) : Cpu :=
  { s with pi := { s.pi with piState := s.pi.piState.dismissInterrupt }, inInterrupt := false }

/-- The machine that serves level 5. -/
def Cpu.serving5 : Cpu := (Cpu.allOn.request 5).grantAt 5

/-- The machine that serves level 3 inside of level 5. -/
def Cpu.serving3 : Cpu := (Cpu.serving5.request 3).grantAt 3

/-- A request at level 5 and its grant. -/
lemma trace_serving5 {steps : List (TraceStep ServiceConfig ServiceEvent)}
    (h : Trace ServiceStep ⟨Cpu.serving5, [5]⟩ steps) :
    Trace ServiceStep ⟨Cpu.allOn, []⟩
      (⟨⟨Cpu.allOn, []⟩, .request, ⟨Cpu.allOn.request 5, []⟩⟩ ::
        ⟨⟨Cpu.allOn.request 5, []⟩, .setUp, ⟨Cpu.serving5, [5]⟩⟩ :: steps) := by
  have hgrant : setUpInterruptCycleIfPending.run (Cpu.allOn.request 5) =
      .ok (0o52, Cpu.serving5) := rfl
  exact .cons (.request _ rfl) (.cons (.setUp hgrant) h)

/-- The dismissal of a single service is in order. -/
theorem served_in_order_iff_single :
    ServedInOrder ⟨⟨Cpu.serving5, [5]⟩, .dismiss, ⟨Cpu.serving5.dismissed, []⟩⟩ := by
  have hdismiss : ServiceStep ⟨Cpu.serving5, [5]⟩ .dismiss ⟨Cpu.serving5.dismissed, []⟩ :=
    .dismiss rfl
  refine (served_in_order_iff ⟨rfl, rfl, rfl⟩
    (trace_serving5 (.cons hdismiss (.nil _)))).mpr ?_ _
    (List.mem_cons_of_mem _ (List.mem_cons_of_mem _ List.mem_cons_self))
  rw [List.forall_mem_cons, List.forall_mem_cons, List.forall_mem_singleton]
  exact ⟨fun _ => Nat.zero_le 1, fun _ => Nat.zero_le 1, fun _ => le_rfl⟩

/-- **The outer service is forgotten**: after the dismissal of level 3 the device grants level
6 although the service of level 5 is still open. -/
theorem outer_service_forgotten :
    Trace ServiceStep ⟨Cpu.allOn, []⟩
      [⟨⟨Cpu.allOn, []⟩, .request, ⟨Cpu.allOn.request 5, []⟩⟩,
        ⟨⟨Cpu.allOn.request 5, []⟩, .setUp, ⟨Cpu.serving5, [5]⟩⟩,
        ⟨⟨Cpu.serving5, [5]⟩, .request, ⟨Cpu.serving5.request 3, [5]⟩⟩,
        ⟨⟨Cpu.serving5.request 3, [5]⟩, .setUp, ⟨Cpu.serving3, [3, 5]⟩⟩,
        ⟨⟨Cpu.serving3, [3, 5]⟩, .dismiss, ⟨Cpu.serving3.dismissed, [5]⟩⟩,
        ⟨⟨Cpu.serving3.dismissed, [5]⟩, .request, ⟨Cpu.serving3.dismissed.request 6, [5]⟩⟩,
        ⟨⟨Cpu.serving3.dismissed.request 6, [5]⟩, .setUp,
          ⟨(Cpu.serving3.dismissed.request 6).grantAt 6, [6, 5]⟩⟩] ∧
      Idle ⟨Cpu.allOn, []⟩ ∧
      ¬ ServedInOrder ⟨⟨Cpu.serving3.dismissed.request 6, [5]⟩, .setUp,
        ⟨(Cpu.serving3.dismissed.request 6).grantAt 6, [6, 5]⟩⟩ := by
  have hgrant3 : setUpInterruptCycleIfPending.run (Cpu.serving5.request 3) =
      .ok (0o46, Cpu.serving3) := rfl
  have hgrant6 : setUpInterruptCycleIfPending.run (Cpu.serving3.dismissed.request 6) =
      .ok (0o54, (Cpu.serving3.dismissed.request 6).grantAt 6) := rfl
  refine ⟨trace_serving5 (.cons (.request _ rfl) (.cons (.setUp hgrant3) (.cons (.dismiss rfl)
    (.cons (.request _ rfl) (.cons (.setUp hgrant6) (.nil _)))))), ⟨rfl, rfl, rfl⟩, ?_⟩
  intro horder
  have hlt : 6 < 5 := horder.1 6 rfl 5 List.mem_cons_self
  omega

end KM10
