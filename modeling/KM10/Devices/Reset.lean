import KM10.Devices.AcBlocks
import KM10.Devices.Sweep
import KM10.Library.Visits

/-!
The reset of the I/O system.

Every device clears itself.  The cache control device has the APR end its sweep, which makes the
sweep-done condition active, also if the APR has been cleared before.

* `Devices.clearIO`, `Devices.clearInOrder`: the devices are visited in some order;
* `IsReset`: what a reset should leave;
* `isReset_iff`: it does if no sweep is busy, or the APR is visited after the cache control
  device;
* `SameRequests`: the requests of the cache control device and the front end, which a reset does
  not clear, and `sameRequests_of_pass`: nothing makes one;
* `reset_iff`: so from the start on it depends on the sweep and the order only.
-/

namespace KM10

open StateExcept

/-! ### Orders -/

namespace Devices

/-- The part of a device that it inherits from `Device`. -/
def device (d : Devices) : DeviceName → Device
  | .apr => d.apr.toDevice
  | .pi => d.pi.toDevice
  | .pag => d.pag.toDevice
  | .cca => d.cca.toDevice
  | .tim => d.tim.toDevice
  | .mtr => d.mtr.toDevice
  | .dte => d.dte.toDevice
  | .noDevice => d.noDevice.toDevice

/-- The virtual `clearIO`. -/
def clearIO (d : Devices) : DeviceName → Devices
  | .apr => { d with apr := d.apr.clearIO }
  | .pi => { d with pi := d.pi.clearIO }
  | .pag => { d with pag := { d.pag with toDevice := .idle, pagState := 0 } }
  | .cca => d.clearCCA
  | .tim => { d with tim := ⟨.idle, 0⟩ }
  | .mtr => { d with mtr := ⟨.idle, 0⟩ }
  | .dte => d
  | .noDevice => { d with noDevice := ⟨.idle, 0⟩ }

/-- The loop of `clearAll`, with the devices in some order. -/
def clearInOrder (d : Devices) (order : List DeviceName) : Devices := order.foldl clearIO d

end Devices

/-- The devices in the order of the map. -/
def DeviceName.inMap : List DeviceName := [.apr, .pi, .pag, .cca, .tim, .mtr, .dte, .noDevice]

lemma DeviceName.mem_inMap (D : DeviceName) : D ∈ DeviceName.inMap := by
  cases D <;> decide

lemma clearAll_eq (d : Devices) : d.clearAll = d.clearInOrder DeviceName.inMap := rfl

/-- What a reset should leave. -/
structure IsReset (d : Devices) : Prop where
  intPending : ∀ D, (d.device D).intPending = false
  held : d.pi.piState.held = 0
  sweepCountDown : d.cca.sweepCountDown = 0
  sweepBusy : d.apr.aprState.sweepBusy = false
  active : d.apr.aprState.active = 0
  enabled : d.apr.aprState.enabled = 0
  intRequest : d.apr.aprState.intRequest = false
  intLevel : d.apr.intLevel = 0 ∧ d.apr.aprState.intLevel = 0

/-! ### One visit -/

/-- The APR is cleared, but for its active conditions. -/
structure QuietAPR (a : APRDevice) : Prop where
  intPending : a.intPending = false
  sweepBusy : a.aprState.sweepBusy = false
  enabled : a.aprState.enabled = 0
  intRequest : a.aprState.intRequest = false
  intLevel : a.intLevel = 0 ∧ a.aprState.intLevel = 0

lemma quiet_clearIO (a : APRDevice) : QuietAPR a.clearIO := ⟨rfl, rfl, rfl, rfl, rfl, rfl⟩

/-- At level 0 the end of a sweep requests nothing. -/
lemma endSweep_of_intLevel {a : APRDevice} (h : a.aprState.intLevel = 0) :
    a.endSweep = { a with aprState := { a.aprState with
      sweepBusy := false, active := a.aprState.active ||| APRState.sweepDone } } := by
  rw [APRDevice.endSweep]
  exact if_neg fun hlevel => hlevel.1 h

lemma QuietAPR.endSweep {a : APRDevice} (h : QuietAPR a) : QuietAPR a.endSweep := by
  rw [endSweep_of_intLevel h.intLevel.2]
  exact ⟨h.intPending, rfl, h.enabled, h.intRequest, h.intLevel⟩

/-- A cleared APR stays so. -/
lemma QuietAPR.clearIO {d : Devices} (h : QuietAPR d.apr) (D : DeviceName) :
    QuietAPR (d.clearInOrder [D]).apr := by
  cases D with
  | apr => exact quiet_clearIO _
  | cca =>
      change QuietAPR (if d.cca.sweepCountDown ≠ 0 then d.apr.endSweep else d.apr)
      split
      · exact h.endSweep
      · exact h
  | _ => exact h

/-- The other devices do not request anything either. -/
lemma intPending_clearIO {d : Devices} {D : DeviceName} (hD : D ≠ .apr)
    (h : (d.device D).intPending = false) (D' : DeviceName) :
    ((d.clearInOrder [D']).device D).intPending = false := by
  cases D <;> cases D' <;> first | exact h | rfl | exact absurd rfl hD

/-- All but two devices clear their own request. -/
lemma intPending_clearIO_self (d : Devices) {D : DeviceName} (hD : D ≠ .cca ∧ D ≠ .dte) :
    ((d.clearInOrder [D]).device D).intPending = false := by
  cases D <;> first | rfl | exact absurd rfl hD.1 | exact absurd rfl hD.2

/-- The other devices leave the APR and the cache control device alone. -/
lemma clearIO_of_ne (d : Devices) {D : DeviceName} (hapr : D ≠ .apr) (hcca : D ≠ .cca) :
    (d.clearInOrder [D]).apr = d.apr ∧ (d.clearInOrder [D]).cca = d.cca := by
  cases D <;> first | exact ⟨rfl, rfl⟩ | exact absurd rfl hapr | exact absurd rfl hcca

/-! ### All visits -/

section Order

variable {d : Devices} {order : List DeviceName}

/-- The first visit and the others. -/
lemma clearInOrder_cons (d : Devices) (D : DeviceName) (order : List DeviceName) :
    d.clearInOrder (D :: order) = (d.clearInOrder [D]).clearInOrder order := rfl

/-- The APR is cleared, but for its active conditions. -/
lemma quiet_clearInOrder (hapr : .apr ∈ order) : QuietAPR (d.clearInOrder order).apr :=
  Visits.foldl_of_mem (P := fun d => QuietAPR d.apr) (fun d => quiet_clearIO d.apr)
    (fun _ h => h.clearIO) hapr d

/-- No device requests an interrupt, if the two that do not clear their request have none. -/
lemma intPending_clearInOrder (hall : ∀ D, D ∈ order) (hcca : d.cca.intPending = false)
    (hdte : d.dte.intPending = false) (D : DeviceName) :
    ((d.clearInOrder order).device D).intPending = false := by
  by_cases hapr : D = .apr
  · rw [hapr]
    exact (quiet_clearInOrder (hall .apr)).intPending
  · have hkept (d : Devices) (h : (d.device D).intPending = false) (D' : DeviceName) :
        ((d.clearInOrder [D']).device D).intPending = false := intPending_clearIO hapr h D'
    by_cases hD : D ≠ .cca ∧ D ≠ .dte
    · exact Visits.foldl_of_mem (P := fun d => (d.device D).intPending = false)
        (fun d => intPending_clearIO_self d hD) hkept (hall D) d
    · have hd : (d.device D).intPending = false := by
        rw [not_and_or, not_not, not_not] at hD
        rcases hD with rfl | rfl
        · exact hcca
        · exact hdte
      exact List.foldlRecOn order Devices.clearIO hd fun d h D' _ => hkept d h D'

/-- No level is held. -/
lemma held_clearInOrder (hpi : .pi ∈ order) : (d.clearInOrder order).pi.piState.held = 0 := by
  refine Visits.foldl_of_mem (f := Devices.clearIO) (P := fun d => d.pi.piState.held = 0)
    (fun _ => rfl) (fun d h D => ?_) hpi d
  cases D <;> first | exact h | rfl

/-- The sweep is over once the cache control device has been visited, and goes on until then. -/
lemma sweepCountDown_clearInOrder (d : Devices) (order : List DeviceName) :
    (d.clearInOrder order).cca.sweepCountDown =
      if .cca ∈ order then 0 else d.cca.sweepCountDown := by
  induction order generalizing d with
  | nil => rfl
  | cons D order ih =>
      rw [clearInOrder_cons, ih]
      by_cases horder : .cca ∈ order
      · rw [if_pos horder, if_pos (List.mem_cons_of_mem D horder)]
      · rw [if_neg horder]
        cases D <;> simp [horder, Devices.clearInOrder, Devices.clearIO, Devices.clearCCA]

/-- Without the APR a busy sweep ends with its condition active. -/
lemma active_clearInOrder (d : Devices) {order : List DeviceName} (hapr : .apr ∉ order) :
    (d.clearInOrder order).apr.aprState.active =
      if .cca ∈ order ∧ d.cca.sweepCountDown ≠ 0 then d.apr.aprState.active ||| APRState.sweepDone
      else d.apr.aprState.active := by
  induction order generalizing d with
  | nil => rfl
  | cons D order ih =>
      rw [List.mem_cons, not_or] at hapr
      rw [clearInOrder_cons, ih _ hapr.2]
      by_cases hD : D = .cca
      · have hdown : (d.clearInOrder [.cca]).cca.sweepCountDown = 0 := rfl
        have hapr : (d.clearInOrder [.cca]).apr =
          if d.cca.sweepCountDown ≠ 0 then d.apr.endSweep else d.apr := rfl
        rw [hD, if_neg fun h => h.2 hdown, hapr]
        by_cases hsweep : d.cca.sweepCountDown = 0
        · rw [if_neg (not_not.mpr hsweep), if_neg fun h => h.2 hsweep]
        · rw [if_pos hsweep, if_pos ⟨List.mem_cons_self, hsweep⟩, (endSweep_aprState _).2]
      · obtain ⟨hsame, hcca⟩ := clearIO_of_ne d (Ne.symm hapr.1) hD
        rw [hsame, hcca]
        exact if_congr (and_congr_left' ⟨List.mem_cons_of_mem D,
          fun h => (List.mem_cons.mp h).resolve_left (Ne.symm hD)⟩) rfl rfl

/-- **A reset** of devices that request nothing on their own leaves what it should exactly if no
sweep is busy or the cache control device is visited before the APR. -/
lemma isReset_iff (hcca : d.cca.intPending = false) (hdte : d.dte.intPending = false)
    (horder : order.Perm DeviceName.inMap) :
    IsReset (d.clearInOrder order) ↔
      d.cca.sweepCountDown = 0 ∨ [.cca, .apr].Sublist order := by
  have hall (D : DeviceName) : D ∈ order := horder.mem_iff.mpr D.mem_inMap
  have hquiet := quiet_clearInOrder (d := d) (hall .apr)
  have hreset : IsReset (d.clearInOrder order) ↔
      (d.clearInOrder order).apr.aprState.active = 0 := by
    refine ⟨fun h => h.active, fun hactive => ?_⟩
    have hcount := sweepCountDown_clearInOrder d order
    rw [if_pos (hall .cca)] at hcount
    exact ⟨intPending_clearInOrder hall hcca hdte, held_clearInOrder (hall .pi), hcount,
      hquiet.sweepBusy, hactive, hquiet.enabled, hquiet.intRequest, hquiet.intLevel⟩
  obtain ⟨before, after, rfl⟩ := List.append_of_mem (hall .apr)
  have hnodup : (before ++ .apr :: after).Nodup := horder.nodup_iff.mpr (by decide)
  have hafter : .apr ∉ after := (List.nodup_cons.mp (List.nodup_append.mp hnodup).2.1).1
  have hcca_mem : .cca ∈ before ∨ .cca ∈ after := by
    have h := hall .cca
    rw [List.mem_append, List.mem_cons] at h
    exact h.imp id fun h => h.resolve_left DeviceName.noConfusion
  have hdisjoint : .cca ∈ before → .cca ∉ after := fun hbefore h =>
    (List.nodup_append.mp hnodup).2.2 _ hbefore _ (List.mem_cons_of_mem _ h) rfl
  have hvisits : d.clearInOrder (before ++ .apr :: after) =
      (d.clearInOrder (before ++ [.apr])).clearInOrder after := by
    rw [Devices.clearInOrder, List.append_cons, List.foldl_append]
    rfl
  -- the APR is cleared after the devices in front of it
  have hlast : d.clearInOrder (before ++ [.apr]) =
      (d.clearInOrder before).clearInOrder [.apr] := List.foldl_append
  have hcount : (d.clearInOrder (before ++ [.apr])).cca.sweepCountDown =
      if .cca ∈ before then 0 else d.cca.sweepCountDown := by
    rw [hlast]
    exact sweepCountDown_clearInOrder d before
  have hactive : (d.clearInOrder (before ++ [.apr])).apr.aprState.active = 0 := by
    rw [hlast]
    rfl
  rw [hreset, hvisits, active_clearInOrder _ hafter, hactive,
    Visits.pair_sublist_iff DeviceName.noConfusion hafter]
  by_cases hbefore : .cca ∈ before
  · rw [if_neg fun h => h.2 (hcount.trans (if_pos hbefore))]
    exact iff_of_true rfl (.inr hbefore)
  · rw [if_neg hbefore] at hcount
    rw [or_iff_left hbefore]
    by_cases hsweep : d.cca.sweepCountDown = 0
    · rw [if_neg fun h => h.2 (hcount.trans hsweep)]
      exact iff_of_true rfl hsweep
    · rw [if_pos ⟨hcca_mem.resolve_left hbefore, fun h => hsweep (hcount.symm.trans h)⟩]
      exact iff_of_false (by decide) hsweep

end Order

/-! ### Requests -/

/-- The requests of the cache control device and the front end stay. -/
structure SameRequests (s t : Cpu) : Prop where
  cca : t.cca.intPending = s.cca.intPending
  dte : t.dte.intPending = s.dte.intPending

lemma SameRequests.of_devices {s t : Cpu} (h : t.toDevices = s.toDevices) : SameRequests s t := by
  constructor <;> rw [h]

lemma SameRequests.after {s t u : Cpu} (hst : SameRequests s t) (htu : SameRequests t u) :
    SameRequests s u :=
  ⟨htu.cca.trans hst.cca, htu.dte.trans hst.dte⟩

instance : PlainPI SameRequests where
  trans := SameRequests.after
  core hdevices _ _ := .of_devices hdevices
  ac _ _ _ := ⟨rfl, rfl⟩
  pi _ _ := ⟨rfl, rfl⟩

/-- A reset keeps them. -/
lemma requests_putAPRConditions (d : Devices) (v : BitVec 18) :
    (d.putAPRConditions v).cca.intPending = d.cca.intPending ∧
      (d.putAPRConditions v).dte.intPending = d.dte.intPending := by
  rw [Devices.putAPRConditions]
  split <;> exact ⟨rfl, rfl⟩

lemma SameRequests.of_putAPRConditions (s : Cpu) (v : BitVec 18) :
    SameRequests s { s with toDevices := s.toDevices.putAPRConditions v } :=
  ⟨(requests_putAPRConditions s.toDevices v).1, (requests_putAPRConditions s.toDevices v).2⟩

/-- So do all changes of one device. -/
instance (dev : DeviceName) : PlainDevice SameRequests dev where
  update h s := by
    cases h with
    | putConditions =>
        cases dev with
        | apr => exact .of_putAPRConditions s _
        | _ => exact ⟨rfl, rfl⟩
    | _ => exact ⟨rfl, rfl⟩

/-- **Every I/O instruction** keeps them. -/
lemma sameRequests_of_handleIO {dev : DeviceName} {ioOp : IOOp} {ea : W36} {s t : Cpu}
    {r : IResult} (h : handleIO dev ioOp ea s = .ok (r, t)) : SameRequests s t :=
  (frames_any_io SameRequests (fun _ _ => ⟨rfl, rfl⟩) (fun _ _ => ⟨rfl, rfl⟩)
    .of_putAPRConditions).out h

/-- **Every instruction** keeps them. -/
lemma sameRequests_of_ops {op : ℕ} (hop : op < 0o1000) {s t : Cpu} {r : IResult}
    (h : (ops op).run s = .ok (r, t)) : SameRequests s t := by
  by_cases hdevice : op < 0o700
  · exact (frames_ops_of_not_io SameRequests hdevice).out h
  · rw [ops_io (not_lt.mp hdevice) hop, run_doIO_eq] at h
    exact sameRequests_of_handleIO h

/-! ### Runs -/

/-- The count of a cycle and the grant of an interrupt keep them. -/
lemma sameRequests_fetched (s : Cpu) : SameRequests s s.fetched := by
  have hsweep (d : Devices) : d.handleSweep.cca.intPending = d.cca.intPending ∧
      d.handleSweep.dte.intPending = d.dte.intPending := by
    rw [Devices.handleSweep]
    split <;> exact ⟨rfl, rfl⟩
  have hswept : SameRequests s s.swept := ⟨(hsweep s.toDevices).1, (hsweep s.toDevices).2⟩
  have hgranted : SameRequests s.swept s.swept.granted := by
    rw [Cpu.granted]
    split <;> exact ⟨rfl, rfl⟩
  have hentered : SameRequests s.swept s.swept.entered := by
    rw [Cpu.entered]
    split
    · exact ⟨rfl, rfl⟩
    · split
      · exact ⟨hgranted.cca, hgranted.dte⟩
      · exact hgranted
  exact hswept.after ⟨hentered.cca, hentered.dte⟩

/-- **A pass** keeps them. -/
lemma sameRequests_of_pass {s t : Cpu} {outcome : Outcome} (h : Pass s outcome t) :
    SameRequests s t := by
  obtain ⟨label, hstep⟩ | ⟨hsame, -⟩ := h.step_or_sameBlocks
  · obtain ⟨-, last, running, nSteps, v, -, hop, rfl⟩ := exists_of_step hstep
    have hv : SameRequests (s.dispatched last running nSteps) v :=
      sameRequests_of_ops s.fetchWord.op.isLt hop
    have hfetched : SameRequests s.fetched v := ⟨hv.cca, hv.dte⟩
    exact (sameRequests_fetched s).after (hfetched.after (.of_devices (retire_toDevices _ _)))
  · exact (sameRequests_fetched s).after (.of_devices hsame)

/-- The devices are those of a machine in a run from the start, between two passes or in a pass
that has fetched its instruction. -/
def Devices.Reached (d : Devices) : Prop :=
  ∃ s steps, s.toDevices = .initial ∧ Trace Pass s steps ∧
    (d = (Trace.final s steps).toDevices ∨ d = (Trace.final s steps).fetched.toDevices)

/-- In a run the two devices never request an interrupt. -/
lemma Devices.Reached.requests {d : Devices} (h : d.Reached) :
    d.cca.intPending = false ∧ d.dte.intPending = false := by
  obtain ⟨s, steps, hs, hrun, hd⟩ := h
  have hfinal : SameRequests s (Trace.final s steps) :=
    hrun.final_of_invariant (I := SameRequests s)
      (fun hs hpass => hs.after (sameRequests_of_pass hpass)) ⟨rfl, rfl⟩
  have hsame {t : Cpu} (ht : SameRequests s t) (heq : d = t.toDevices) :
      d.cca.intPending = false ∧ d.dte.intPending = false := by
    rw [heq, ht.cca, ht.dte, hs]
    exact ⟨rfl, rfl⟩
  rcases hd with heq | heq
  · exact hsame hfinal heq
  · exact hsame (hfinal.after (sameRequests_fetched _)) heq

/-- **The I/O reset**: in every state of the devices that a run reaches, with the devices in
any order, a reset leaves what it should exactly if no sweep is in progress or the cache control
device is visited before the APR.  In the order of the map it is visited after it, so that
`clearAll` and CONO APR do so exactly if no sweep is in progress. -/
theorem reset_iff {d : Devices} (hd : d.Reached) :
    (∀ order : List DeviceName, order.Perm DeviceName.inMap →
      (IsReset (d.clearInOrder order) ↔
        d.cca.sweepCountDown = 0 ∨ [.cca, .apr].Sublist order)) ∧
      (IsReset d.clearAll ↔ d.cca.sweepCountDown = 0) ∧
      ∀ v, APRFunctions.clearIO (.ofBits v) = true →
        (IsReset (d.putAPRConditions v) ↔ d.cca.sweepCountDown = 0) := by
  obtain ⟨hcca, hdte⟩ := hd.requests
  have hmap : ¬ [DeviceName.cca, .apr].Sublist DeviceName.inMap := by decide
  have hall {d : Devices} (hcca : d.cca.intPending = false) (hdte : d.dte.intPending = false) :
      IsReset d.clearAll ↔ d.cca.sweepCountDown = 0 := by
    rw [clearAll_eq, isReset_iff hcca hdte (.refl _), or_iff_left hmap]
  refine ⟨fun order => isReset_iff hcca hdte, hall hcca hdte, fun v hv => ?_⟩
  rw [Devices.putAPRConditions, hv]
  exact hall (d := { d with apr := d.apr.applyFunctions (.ofBits v) }) hcca hdte

/-- A program at 01000 that enables and sets a condition of the APR at level 3. -/
def Cpu.requestsFirst : Cpu :=
  { Cpu.initial with
    pc := 0o1000
    fetchPC := 0o1000
    running := true
    memP := fun _ => 0o700200110023 }

/-- A reset that takes a request back. -/
theorem reset_iff_requested :
    Cpu.requestsFirst.next.toDevices.Reached ∧
      Cpu.requestsFirst.next.toDevices.apr.intPending = true ∧
      IsReset Cpu.requestsFirst.next.toDevices.clearAll := by
  have hstep : Pass Cpu.requestsFirst (.executed .normal .iNormal) Cpu.requestsFirst.next :=
    @step_next _ (.normal, .iNormal) (by decide +kernel)
  have hreached : Cpu.requestsFirst.next.toDevices.Reached := by
    refine ⟨Cpu.requestsFirst,
      [⟨Cpu.requestsFirst, .executed .normal .iNormal, Cpu.requestsFirst.next⟩], rfl,
      .cons hstep (.nil Cpu.requestsFirst.next), .inl ?_⟩
    rw [Trace.final, Trace.final]
  exact ⟨hreached, by decide +kernel, (reset_iff hreached).2.1.mpr (by decide +kernel)⟩

/-- A program at 01000 that starts a sweep. -/
def Cpu.sweepsFirst : Cpu :=
  { Cpu.initial with
    pc := 0o1000
    fetchPC := 0o1000
    running := true
    memP := fun _ => 0o706200000000 }

/-- **A reset during a sweep**: the APR reports that the sweep is done. -/
theorem not_reset_sweeping :
    Cpu.sweepsFirst.next.toDevices.Reached ∧
      Cpu.sweepsFirst.next.toDevices.clearAll.apr.aprState.active = APRState.sweepDone ∧
      ¬ IsReset Cpu.sweepsFirst.next.toDevices.clearAll := by
  have hstep : Pass Cpu.sweepsFirst (.executed .normal .iNoSuchDevice) Cpu.sweepsFirst.next :=
    @step_next _ (.normal, .iNoSuchDevice) (by decide +kernel)
  have hactive :
      Cpu.sweepsFirst.next.toDevices.clearAll.apr.aprState.active = APRState.sweepDone := by
    decide +kernel
  refine ⟨⟨Cpu.sweepsFirst,
    [⟨Cpu.sweepsFirst, .executed .normal .iNoSuchDevice, Cpu.sweepsFirst.next⟩], rfl,
    .cons hstep (.nil Cpu.sweepsFirst.next), .inl ?_⟩, hactive, fun h => ?_⟩
  · rw [Trace.final, Trace.final]
  · exact absurd (hactive.symm.trans h.active) (by decide)

end KM10
