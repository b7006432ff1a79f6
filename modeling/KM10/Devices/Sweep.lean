import KM10.Devices.AprRequests
import KM10.Effects.OnDevice

/-!
Cache sweeps, which the cache control device counts down and the APR reports.

The counter and the busy bit are in two devices, each of which clears itself on an I/O reset.

* `SweepConsistent`: the busy bit is set exactly while the counter runs, from ten down;
* `SweepStep`: what may happen to them: instructions for the cache control device, CONO APR, the
  count of a cycle, and any instruction that is not for a device;
* `handleIO_starts`: an instruction for the cache control device starts a sweep;
* `SweepStep.consistent`: a step keeps them consistent;
* `sweep_status`: so does a run, in which a sweep ends with its tenth count.
-/

namespace KM10

open StateExcept

/-! ### The status of a sweep -/

/-- The counter runs from ten down, and the busy bit is set exactly while it runs. -/
structure SweepConsistent (s : Cpu) : Prop where
  busy : s.apr.aprState.sweepBusy = true ↔ 0 < s.cca.sweepCountDown
  nonneg : 0 ≤ s.cca.sweepCountDown
  le : s.cca.sweepCountDown ≤ 10

/-- A sweep has just started. -/
structure Sweeping (s : Cpu) : Prop where
  busy : s.apr.aprState.sweepBusy = true
  countDown : s.cca.sweepCountDown = 10

/-- The counter and the busy bit stay. -/
structure SameSweep (s t : Cpu) : Prop where
  busy : t.apr.aprState.sweepBusy = s.apr.aprState.sweepBusy
  countDown : t.cca.sweepCountDown = s.cca.sweepCountDown

lemma Sweeping.consistent {s : Cpu} (h : Sweeping s) : SweepConsistent s where
  busy := by simp [h.busy, h.countDown]
  nonneg := by simp [h.countDown]
  le := by simp [h.countDown]

lemma SweepConsistent.of_same {s t : Cpu} (hs : SweepConsistent s) (h : SameSweep s t) :
    SweepConsistent t where
  busy := by rw [h.busy, h.countDown, hs.busy]
  nonneg := h.countDown ▸ hs.nonneg
  le := h.countDown ▸ hs.le

lemma Sweeping.of_same {s t : Cpu} (hs : Sweeping s) (h : SameSweep s t) : Sweeping t :=
  ⟨h.busy.trans hs.busy, h.countDown.trans hs.countDown⟩

instance : Plain SameSweep where
  trans hst htu := ⟨htu.busy.trans hst.busy, htu.countDown.trans hst.countDown⟩
  core {s t} hdevices _ _ := by
    constructor <;> rw [hdevices]
  ac _ _ _ := ⟨rfl, rfl⟩

/-! ### Instructions for the cache control device -/

/-- Every normal return ends with a sweep that has just started. -/
def Starts {α : Type} (m : Exec α) : Prop :=
  ∀ {s t : Cpu} {a : α}, m.run s = .ok (a, t) → Sweeping t

lemma starts_sweepFirst : Starts (sweepFirst .cca) := by
  intro s t a h
  cases h
  exact ⟨rfl, rfl⟩

/-- What comes before the start does not matter. -/
lemma Starts.after {α β : Type} (m : Exec α) {f : α → Exec β} (h : ∀ a, Starts (f a)) :
    Starts (m >>= f) := by
  intro s t b hrun
  obtain ⟨a, u, -, hf⟩ := ok_of_run_bind hrun
  exact h a hf

/-- What comes after it must not concern the sweep. -/
lemma Starts.before {α β : Type} {m : Exec α} (h : Starts m) (f : α → Exec β)
    [hf : ∀ a, Holds (plainLogic SameSweep) (f a)] : Starts (m >>= f) := by
  intro s t b hrun
  obtain ⟨a, u, hm, hrest⟩ := ok_of_run_bind hrun
  exact (h hm).of_same ((hf a).frames.out hrest)

/-- The conditions of the cache control device do not concern the sweep. -/
instance (v : BitVec 18) : Holds (plainLogic SameSweep) (putConditions .cca v) :=
  ⟨Frames.modify _ fun _ => ⟨rfl, rfl⟩⟩

instance : Holds (plainLogic SameSweep) (getConditions .cca) := by
  rw [getConditions, if_neg (by decide)]
  infer_instance

lemma starts_doDATAI : Starts (doDATAI .cca) := by
  rw [doDATAI]
  exact starts_sweepFirst.before _

lemma starts_testConditions (ea : W36) : Starts (testConditions .cca ea) := by
  rw [testConditions]
  exact starts_sweepFirst.before _

/-- Every instruction for the cache control device starts a sweep. -/
lemma handleIO_starts (ioOp : IOOp) (ea : W36) : Starts <| handleIO .cca ioOp ea := by
  cases ioOp with
  | BLKI =>
      change Starts (do
        let e ← stepPointer
        let _ ← doDATAI .cca
        return if e.lhu ≠ 0 then .iSkip else .iNormal : Exec IResult)
      exact Starts.after _ fun e => starts_doDATAI.before _
  | DATAI => exact starts_doDATAI
  | BLKO =>
      change Starts (do
        sweepFirst .cca
        let e ← stepPointer
        sweepFirst .cca
        return if e.lhu ≠ 0 then .iSkip else .iNormal : Exec IResult)
      exact Starts.after _ fun _ => Starts.after _ fun e => starts_sweepFirst.before _
  | DATAO => exact starts_sweepFirst.before _
  | CONO => exact starts_sweepFirst.before _
  | CONI => exact starts_sweepFirst.before _
  | CONSZ => exact Starts.before (starts_testConditions ea) _
  | CONSO => exact Starts.before (starts_testConditions ea) _

/-! ### The steps -/

/-- What may happen to a sweep. -/
inductive SweepEvent where
  | cca
  | CONO (v : BitVec 18)
  | handleSweep
  | other
deriving DecidableEq

/-- An instruction for the cache control device, a CONO APR, the count of a cycle, or an
instruction that is not for a device. -/
inductive SweepStep : Cpu → SweepEvent → Cpu → Prop where
  | cca {s t : Cpu} {ioOp : IOOp} {ea : W36} {r : IResult}
      (hrun : handleIO .cca ioOp ea s = .ok (r, t)) : SweepStep s .cca t
  | CONO {s t : Cpu} {ea : W36} {r : IResult} (hrun : (doCONO .apr ea).run s = .ok (r, t)) :
      SweepStep s (.CONO ea.rhu) t
  | handleSweep {s : Cpu} :
      SweepStep s .handleSweep { s with toDevices := s.toDevices.handleSweep }
  | other {s t : Cpu} {op : ℕ} {r : IResult} (hop : op < 0o700)
      (hrun : (ops op).run s = .ok (r, t)) : SweepStep s .other t

/-- The event starts a sweep or resets the I/O system. -/
def SweepEvent.interferes : SweepEvent → Bool
  | .cca => true
  | .CONO v => APRFunctions.clearIO (.ofBits v)
  | .handleSweep => false
  | .other => false

lemma applyFunctions_sweepBusy (d : APRDevice) (func : APRFunctions) :
    (d.applyFunctions func).aprState.sweepBusy = d.aprState.sweepBusy := by
  rw [APRDevice.applyFunctions_eq]

/-- The end of a sweep clears the busy bit and makes the sweep-done condition active. -/
lemma endSweep_aprState (d : APRDevice) :
    d.endSweep.aprState.sweepBusy = false ∧
      d.endSweep.aprState.active = d.aprState.active ||| APRState.sweepDone := by
  rw [APRDevice.endSweep]
  split <;> exact ⟨rfl, rfl⟩

/-- A CONO APR without reset leaves the sweep alone. -/
lemma sameSweep_of_CONO (s : Cpu) {v : BitVec 18} (h : APRFunctions.clearIO (.ofBits v) = false) :
    SameSweep s { s with toDevices := s.toDevices.putAPRConditions v } := by
  rw [Devices.putAPRConditions, h]
  exact ⟨applyFunctions_sweepBusy s.apr _, rfl⟩

/-- One with reset ends it. -/
lemma consistent_of_CONO (s : Cpu) {v : BitVec 18} (h : APRFunctions.clearIO (.ofBits v) = true) :
    SweepConsistent { s with toDevices := s.toDevices.putAPRConditions v } := by
  -- the APR clears the busy bit first, and the cache control device ends its sweep after it
  have hbusy (d : Devices) : (d.clearAll.apr.aprState.sweepBusy = true ↔ (0 : ℤ) < 0) := by
    refine iff_of_false ?_ (lt_irrefl 0)
    change ¬ (if d.cca.sweepCountDown ≠ 0 then d.apr.clearIO.endSweep
      else d.apr.clearIO).aprState.sweepBusy = true
    split
    · rw [(endSweep_aprState _).1]
      exact Bool.false_ne_true
    · exact Bool.false_ne_true
  rw [Devices.putAPRConditions, h]
  exact ⟨hbusy _, le_refl 0, show (0 : ℤ) ≤ 10 by decide⟩

/-- The count of a cycle steps the counter, if it runs. -/
lemma handleSweep_countDown (d : Devices) :
    d.handleSweep.cca.sweepCountDown =
      if d.cca.sweepCountDown ≠ 0 then d.cca.sweepCountDown - 1 else d.cca.sweepCountDown := by
  rw [Devices.handleSweep]
  split <;> rfl

/-- The tenth count ends the sweep. -/
lemma handleSweep_of_last {d : Devices} (h : d.cca.sweepCountDown = 1) :
    d.handleSweep.apr = d.apr.endSweep := by
  rw [Devices.handleSweep, h]
  rfl

/-- Any other leaves the APR alone. -/
lemma handleSweep_of_not_last {d : Devices} (h : d.cca.sweepCountDown ≠ 1) :
    d.handleSweep.apr = d.apr := by
  rw [Devices.handleSweep]
  split
  · exact if_neg (by omega)
  · rfl

/-- The count of a cycle keeps the two devices consistent. -/
lemma SweepConsistent.handleSweep {s : Cpu} (h : SweepConsistent s) :
    SweepConsistent { s with toDevices := s.toDevices.handleSweep } := by
  obtain ⟨hbusy, hnonneg, hle⟩ := h
  have hcount := handleSweep_countDown s.toDevices
  refine ⟨?_, ?_, ?_⟩
  · change s.toDevices.handleSweep.apr.aprState.sweepBusy = true ↔
      0 < s.toDevices.handleSweep.cca.sweepCountDown
    by_cases hlast : s.cca.sweepCountDown = 1
    · rw [handleSweep_of_last hlast, (endSweep_aprState _).1, hcount, hlast]
      decide
    · rw [handleSweep_of_not_last hlast, hbusy, hcount]
      split <;> omega
  · change 0 ≤ s.toDevices.handleSweep.cca.sweepCountDown
    rw [hcount]
    split <;> omega
  · change s.toDevices.handleSweep.cca.sweepCountDown ≤ 10
    rw [hcount]
    split <;> omega

/-- A step that neither starts a sweep nor resets nor counts leaves the sweep alone. -/
lemma SweepStep.same {s t : Cpu} {e : SweepEvent} (h : SweepStep s e t)
    (hinterferes : e.interferes = false) (hcount : e ≠ .handleSweep) : SameSweep s t := by
  cases h with
  | cca hrun => cases hinterferes
  | CONO hrun =>
      rw [run_doCONO_apr] at hrun
      cases hrun
      exact sameSweep_of_CONO s hinterferes
  | handleSweep => exact absurd rfl hcount
  | other hop hrun =>
      have hpi := (frames_ops_onDevice hop).out hrun
      exact ⟨by rw [hpi.apr (by decide)]; rfl, by rw [hpi.cca (by decide)]⟩

/-- **One step** keeps the two devices consistent. -/
lemma SweepStep.consistent {s t : Cpu} {e : SweepEvent} (h : SweepStep s e t)
    (hs : SweepConsistent s) : SweepConsistent t := by
  cases h with
  | cca hrun => exact (handleIO_starts _ _ hrun).consistent
  | CONO hrun =>
      rw [run_doCONO_apr] at hrun
      cases hrun
      cases hclear : APRFunctions.clearIO (.ofBits _) with
      | false => exact hs.of_same (sameSweep_of_CONO s hclear)
      | true => exact consistent_of_CONO s hclear
  | handleSweep => exact hs.handleSweep
  | other hop hrun => exact hs.of_same ((SweepStep.other hop hrun).same rfl SweepEvent.noConfusion)

/-! ### A run -/

/-- How often a run counts. -/
def sweepCounts (steps : List (TraceStep Cpu SweepEvent)) : ℕ :=
  steps.countP fun x => x.label = .handleSweep

/-- Without a start or a reset the counter goes down with every count until it stops. -/
lemma sweepCountDown_final {s : Cpu} (hs : SweepConsistent s)
    {steps : List (TraceStep Cpu SweepEvent)} (h : Trace SweepStep s steps)
    (hquiet : ∀ x ∈ steps, x.label.interferes = false) :
    (Trace.final s steps).cca.sweepCountDown =
      max (s.cca.sweepCountDown - sweepCounts steps) 0 := by
  induction h with
  | nil s => simp [Trace.final, sweepCounts, hs.nonneg]
  | @cons s t e steps hstep rest ih =>
      rw [List.forall_mem_cons] at hquiet
      have hnonneg := hs.nonneg
      rw [Trace.final, ih (hstep.consistent hs) hquiet.2, sweepCounts, sweepCounts,
        List.countP_cons]
      by_cases hcount : e = .handleSweep
      · subst hcount
        cases hstep
        have hdown := handleSweep_countDown s.toDevices
        simp only [decide_true, if_true] at hdown ⊢
        rw [hdown]
        split <;> omega
      · rw [(hstep.same hquiet.1 hcount).countDown, if_neg (by simpa using hcount), Nat.add_zero]

/-- What becomes of a sweep that has just started: it is busy up to its tenth count, which clears
the busy bit and makes the sweep-done condition active. -/
structure SweepEnds (start : Cpu) (steps : List (TraceStep Cpu SweepEvent)) : Prop where
  busy : (Trace.final start steps).apr.aprState.sweepBusy = true ↔ sweepCounts steps < 10
  tenth : ∀ rest last, steps = rest ++ [last] → last.label = .handleSweep →
    sweepCounts rest = 9 → last.post.apr.aprState.sweepBusy = false ∧
      last.post.apr.aprState.active &&& APRState.sweepDone = APRState.sweepDone

/-- A sweep that has just started and is neither started again nor reset. -/
lemma Sweeping.ends {s : Cpu} (hs : Sweeping s) {steps : List (TraceStep Cpu SweepEvent)}
    (h : Trace SweepStep s steps) (hquiet : ∀ x ∈ steps, x.label.interferes = false) :
    SweepEnds s steps where
  busy := by
    have hfinal := h.final_of_invariant (fun hs hstep => hstep.consistent hs) hs.consistent
    rw [hfinal.busy, sweepCountDown_final hs.consistent h hquiet, hs.countDown]
    omega
  tenth := by
    rintro rest last rfl hlast hnine
    obtain ⟨hrest, hstep⟩ := Trace.append_iff.mp h
    have hone := sweepCountDown_final hs.consistent hrest fun x hx =>
      hquiet x (List.mem_append_left _ hx)
    rw [hs.countDown, hnine] at hone
    cases hstep with
    | cons hstep _ =>
        subst hlast
        cases hstep
        have hlast := handleSweep_of_last (d := (Trace.final s rest).toDevices) hone
        obtain ⟨hbusy, hactive⟩ := endSweep_aprState (Trace.final s rest).apr
        rw [hlast, hbusy, hactive]
        exact ⟨rfl, or_and_eq_right _ _⟩

/-- **The status of sweeps**: from the cleared devices, in every interleaving of instructions for
the cache control device, CONO APR words, counts and other instructions, the busy bit is set
exactly while the counter runs, and a sweep that is neither started again nor reset ends with its
tenth count. -/
theorem sweep_status {s : Cpu} (hs : s.toDevices = .initial)
    {steps : List (TraceStep Cpu SweepEvent)} (h : Trace SweepStep s steps) :
    (∀ x ∈ steps, SweepConsistent x.post) ∧
      ∀ before start sweep, steps = before ++ start :: sweep → start.label = .cca →
        (∀ x ∈ sweep, x.label.interferes = false) → SweepEnds start.post sweep := by
  have hs : SweepConsistent s := by
    constructor <;> rw [hs] <;> decide
  have hall := h.invariant (I := SweepConsistent) (C := fun _ => True) (Q := fun _ => True)
    (fun hs hstep _ => ⟨hstep.consistent hs, trivial⟩) hs fun _ _ => trivial
  refine ⟨fun x hx => (hall x hx).2.1, ?_⟩
  rintro before start sweep rfl hstart hquiet
  obtain ⟨-, hsweep⟩ := Trace.append_iff.mp h
  cases hsweep with
  | cons hstep rest =>
      subst hstart
      cases hstep with
      | cca hrun => exact Sweeping.ends (handleIO_starts _ _ hrun) rest hquiet

/-- The machine after a CONO for the cache control device, which starts a sweep, and so many counts
of it. -/
def Cpu.sweepCounted : ℕ → Cpu
  | 0 => { Cpu.initial with toDevices := Devices.initial.startSweep }
  | k + 1 => { sweepCounted k with toDevices := (sweepCounted k).toDevices.handleSweep }

/-- One of these counts. -/
def sweepCount (k : ℕ) : TraceStep Cpu SweepEvent :=
  ⟨Cpu.sweepCounted k, .handleSweep, Cpu.sweepCounted (k + 1)⟩

lemma trace_counts (n k : ℕ) :
    Trace SweepStep (Cpu.sweepCounted k) ((List.range' k n).map sweepCount) := by
  induction n generalizing k with
  | zero => exact .nil _
  | succ n ih =>
      rw [List.range'_succ, List.map_cons]
      exact .cons .handleSweep (ih (k + 1))

/-- A whole sweep, which is busy up to its tenth count. -/
theorem sweep_status_counted :
    (∀ x ∈ (List.range' 0 10).map sweepCount, SweepConsistent x.post) ∧
      (Cpu.sweepCounted 9).apr.aprState.sweepBusy = true ∧
      (Cpu.sweepCounted 10).apr.aprState.sweepBusy = false ∧
      (Cpu.sweepCounted 10).apr.aprState.active &&& APRState.sweepDone = APRState.sweepDone := by
  have hstart : SweepStep Cpu.initial .cca (Cpu.sweepCounted 0) :=
    @SweepStep.cca _ _ .CONO 0 .iNoSuchDevice rfl
  obtain ⟨hconsistent, hends⟩ := sweep_status (s := Cpu.initial) rfl
    (.cons hstart (trace_counts 10 0))
  have hquiet : ∀ x ∈ (List.range' 0 10).map sweepCount, x.label.interferes = false := by
    intro x hx
    obtain ⟨k, -, rfl⟩ := List.mem_map.mp hx
    rfl
  have htenth := (hends [] _ _ rfl rfl hquiet).tenth ((List.range' 0 9).map sweepCount)
    (sweepCount 9) rfl rfl rfl
  have hninth := hconsistent (sweepCount 8) (.tail _ (List.mem_map_of_mem (by decide)))
  exact ⟨fun x hx => hconsistent x (.tail _ hx), hninth.busy.mpr (by decide), htenth⟩

end KM10
