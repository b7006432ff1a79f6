import KM10.Effects.Plain

/-!
What an I/O instruction does to the devices.

* `KeepsOthers`: a change keeps the devices but one, apart from the sweep bit of the APR that the
  cache control device drives;
* `OnDevice`: a change of one device and within the current AC block;
* `frames_ops_onDevice`: an instruction that is none for a device changes the PI at most;
* `PlainDevice`: a relation that allows the changes of a device, and `handleIO_holds`: an I/O
  instruction moves the machine along it, unless it resets the I/O system or loads the process
  context;
* `frames_any_io`: the same for every I/O instruction, if the relation allows these too;
* `handleIO_frames`: an I/O instruction changes the device that it reaches.
-/

namespace KM10

open StateExcept

/-- The changes of the devices that I/O instructions for one of them make, but for a reset of the
I/O system and the load of a process context. -/
inductive DeviceUpdate : DeviceName → (Devices → Devices) → Prop where
  | startSweep : DeviceUpdate .cca Devices.startSweep
  | refreshAPR : DeviceUpdate .apr Devices.refreshAPR
  | breakState (v : W36) :
      DeviceUpdate .apr fun d => { d with apr := { d.apr with breakState := W36.halves 0 v.rhu } }
  | pi (pi : PIDevice) : DeviceUpdate .pi fun d => { d with pi := pi }
  | ctyQ (rest : List (BitVec 8)) :
      DeviceUpdate .dte fun d => { d with dte := { d.dte with ctyQ := rest } }
  | putConditions {dev : DeviceName} {v : BitVec 18} (hpi : dev ≠ .pi)
      (hreset : dev = .apr → APRFunctions.clearIO (.ofBits v) = false) :
      DeviceUpdate dev fun d => d.putConditions v dev

/-- A relation that allows the changes of a device. -/
class PlainDevice (R : Cpu → Cpu → Prop) (dev : DeviceName) : Prop where
  update : ∀ {g : Devices → Devices}, DeviceUpdate dev g →
    ∀ s : Cpu, R s { s with toDevices := g s.toDevices }

/-- The registers of the devices other than `D` stay.  The cache control device also drives the
sweep bit of the APR. -/
structure KeepsOthers (D : DeviceName) (s t : Cpu) : Prop where
  apr : D ≠ .apr → t.apr = if D = .cca then
    { s.apr with aprState := { s.apr.aprState with sweepBusy := t.apr.aprState.sweepBusy } }
    else s.apr
  pi : D ≠ .pi → t.pi = s.pi
  pag : D ≠ .pag → t.pag = s.pag
  cca : D ≠ .cca → t.cca = s.cca
  tim : D ≠ .tim → t.tim = s.tim
  mtr : D ≠ .mtr → t.mtr = s.mtr

/-- A change within the current AC block and the device `D`, which leaves the process context. -/
structure OnDevice (D : DeviceName) (s t : Cpu) : Prop extends KeepsOthers D s t where
  AC : t.AC = s.AC
  blocks : ∀ b, b ≠ s.AC → t.ACBlocks b = s.ACBlocks b
  processContext : t.pag.processContext = s.pag.processContext

namespace OnDevice

variable {D : DeviceName}

lemma trans {s t u : Cpu} (hst : OnDevice D s t) (htu : OnDevice D t u) : OnDevice D s u where
  AC := htu.AC.trans hst.AC
  blocks b hb := (htu.blocks b (hst.AC ▸ hb)).trans (hst.blocks b hb)
  processContext := htu.processContext.trans hst.processContext
  apr h := by
    rw [htu.apr h, hst.apr h]
    split <;> rfl
  pi h := (htu.pi h).trans (hst.pi h)
  pag h := (htu.pag h).trans (hst.pag h)
  cca h := (htu.cca h).trans (hst.cca h)
  tim h := (htu.tim h).trans (hst.tim h)
  mtr h := (htu.mtr h).trans (hst.mtr h)

lemma of_devices {s t : Cpu} (hdevices : t.toDevices = s.toDevices) (hAC : t.AC = s.AC)
    (hblocks : ∀ b, b ≠ s.AC → t.ACBlocks b = s.ACBlocks b) : OnDevice D s t where
  AC := hAC
  blocks := hblocks
  processContext := by rw [hdevices]
  apr _ := by
    rw [hdevices]
    split <;> rfl
  pi _ := by rw [hdevices]
  pag _ := by rw [hdevices]
  cca _ := by rw [hdevices]
  tim _ := by rw [hdevices]
  mtr _ := by rw [hdevices]

instance : Plain (OnDevice D) where
  trans := trans
  core hdevices hAC hblocks := of_devices hdevices hAC fun b _ => by rw [hblocks]
  ac s v n := of_devices rfl rfl fun b hb => by
    funext m
    exact if_neg fun h => hb h.1

instance : PlainPI (OnDevice .pi) where
  pi _ _ :=
    { AC := rfl, blocks := fun _ _ => rfl, processContext := rfl, apr := fun _ => rfl,
      pi := fun h => absurd rfl h, pag := fun _ => rfl, cca := fun _ => rfl,
      tim := fun _ => rfl, mtr := fun _ => rfl }

/-- A change of the APR. -/
lemma of_apr (s : Cpu) (a : APRDevice) :
    OnDevice .apr s { s with toDevices := { s.toDevices with apr := a } } where
  AC := rfl
  blocks _ _ := rfl
  processContext := rfl
  apr h := absurd rfl h
  pi _ := rfl
  pag _ := rfl
  cca _ := rfl
  tim _ := rfl
  mtr _ := rfl

/-- The start of a sweep. -/
lemma of_startSweep (s : Cpu) :
    OnDevice .cca s { s with toDevices := s.toDevices.startSweep } where
  AC := rfl
  blocks _ _ := rfl
  processContext := rfl
  apr _ := rfl
  pi _ := rfl
  pag _ := rfl
  cca h := absurd rfl h
  tim _ := rfl
  mtr _ := rfl

/-- The change of a device by one of its I/O instructions. -/
lemma of_update {g : Devices → Devices} (h : DeviceUpdate D g) (s : Cpu) :
    OnDevice D s { s with toDevices := g s.toDevices } := by
  cases h with
  | startSweep => exact of_startSweep s
  | refreshAPR => exact of_apr s _
  | breakState => exact of_apr s _
  | pi pi => exact PlainPI.pi s pi
  | ctyQ rest =>
      exact { AC := rfl, blocks := fun _ _ => rfl, processContext := rfl, apr := fun _ => rfl,
              pi := fun _ => rfl, pag := fun _ => rfl, cca := fun _ => rfl, tim := fun _ => rfl,
              mtr := fun _ => rfl }
  | putConditions hpi hreset =>
      cases D with
      | apr =>
          simp only [Devices.putConditions, Devices.putAPRConditions, hreset rfl]
          exact of_apr s _
      | pi => exact absurd rfl hpi
      | _ =>
          refine { AC := rfl, blocks := fun _ _ => rfl, processContext := rfl, toKeepsOthers := ?_ }
          constructor <;> intros <;> first | rfl | contradiction

instance : PlainDevice (OnDevice D) D := ⟨of_update⟩

end OnDevice

/-- An instruction that is none for a device changes the PI at most. -/
theorem frames_ops_onDevice {op : ℕ} (hop : op < 0o700) : Frames (OnDevice .pi) (ops op) :=
  frames_ops_of_not_io (OnDevice .pi) hop

/-! ### The I/O handlers -/

section Handlers

variable (R : Cpu → Cpu → Prop) [Plain R] {dev : DeviceName} [hR : PlainDevice R dev]

/-- A change of the device. -/
lemma holds_update {g : Devices → Devices} (h : DeviceUpdate dev g) :
    Holds (plainLogic R) (modifyDevices g) := ⟨Frames.modify _ (hR.update h)⟩

instance [PlainDevice R .pi] (v : BitVec 18) : Holds (plainLogic R) (putPIConditions v) := by
  rw [putPIConditions]
  refine @Holds.bind _ _ _ _ _ _ fun d => ?_
  split
  · infer_instance
  · rename_i pi _
    have hpi := holds_update R (.pi pi)
    infer_instance

/-- Conditions that do not reset the I/O system. -/
lemma holds_putConditions {v : BitVec 18}
    (h : dev = .apr → APRFunctions.clearIO (.ofBits v) = false) :
    Holds (plainLogic R) (putConditions dev v) := by
  rw [putConditions]
  split
  case isTrue hdev =>
    subst hdev
    infer_instance
  case isFalse hpi => exact holds_update R (.putConditions hpi h)

/-- Reading conditions changes the APR only. -/
instance : Holds (plainLogic R) (getConditions dev) := by
  rw [getConditions]
  split
  case isTrue hdev =>
    subst hdev
    have hrefresh := holds_update R .refreshAPR
    infer_instance
  case isFalse => infer_instance

/-- Only the cache control device sweeps. -/
instance : Holds (plainLogic R) (sweepFirst dev) := by
  rw [sweepFirst]
  split
  case isTrue hdev =>
    subst hdev
    exact holds_update R .startSweep
  case isFalse => infer_instance

instance : Holds (plainLogic R) (doDATAI dev) := by
  rw [doDATAI]
  infer_instance

instance [PlainDevice R .apr] : Holds (plainLogic R) doAPRDATAO := by
  have hbreak (v : W36) := holds_update R (.breakState v)
  rw [doAPRDATAO]
  infer_instance

/-- The DATAO of the pager loads the process context. -/
lemma holds_doDATAO (h : dev ≠ .pag) : Holds (plainLogic R) (doDATAO dev) := by
  rw [doDATAO, if_neg h]
  split
  case isTrue hdev =>
    subst hdev
    infer_instance
  case isFalse => infer_instance

instance : Holds (plainLogic R) stepPointer := by
  rw [stepPointer]
  infer_instance

instance : Holds (plainLogic R) (doBLKI dev) := by
  rw [doBLKI]
  infer_instance

lemma holds_doBLKO (h : dev ≠ .pag) : Holds (plainLogic R) (doBLKO dev) := by
  have := holds_doDATAO R h
  rw [doBLKO]
  infer_instance

/-- A console character is taken from the front end. -/
instance [PlainDevice R .dte] : Holds (plainLogic R) ctyInput := by
  have htake (rest : List (BitVec 8)) := holds_update R (.ctyQ rest)
  have hput (v : BitVec 18) : Holds (plainLogic R) (putTo10ArgRH v) := by
    rw [putTo10ArgRH]
    infer_instance
  rw [ctyInput]
  refine @Holds.bind _ _ _ _ _ _ fun d => ?_
  split <;> infer_instance

/-- One case for each function of the monitor protocol. -/
instance [PlainDevice R .dte] (fn data : BitVec 8) :
    Holds (plainLogic R) (monitorCommand fn data) := by
  have hcomplete : Holds (plainLogic R) monitorOpComplete := by
    rw [monitorOpComplete]
    infer_instance
  rw [monitorCommand]
  split <;> infer_instance

variable (ea : W36)

lemma holds_doCONO (h : dev = .apr → APRFunctions.clearIO (.ofBits ea.rhu) = false) :
    Holds (plainLogic R) (doCONO dev ea) := by
  have hput := holds_putConditions R h
  rw [doCONO]
  split
  case isTrue hdev =>
    subst hdev
    rw [doDTECONO]
    infer_instance
  case isFalse => infer_instance

instance : Holds (plainLogic R) (doCONI dev) := by rw [doCONI]; infer_instance

instance : Holds (plainLogic R) (testConditions dev ea) := by
  rw [testConditions]
  infer_instance

instance : Holds (plainLogic R) (doCONSZ dev ea) := by rw [doCONSZ]; infer_instance
instance : Holds (plainLogic R) (doCONSO dev ea) := by rw [doCONSO]; infer_instance

end Handlers

/-- The I/O instruction loads the process context. -/
def IOOp.loadsContext (ioOp : IOOp) (dev : DeviceName) : Prop :=
  dev = .pag ∧ (ioOp = .DATAO ∨ ioOp = .BLKO)

/-- The I/O instruction resets the I/O system. -/
def IOOp.resets (ioOp : IOOp) (dev : DeviceName) (ea : W36) : Prop :=
  dev = .apr ∧ ioOp = .CONO ∧ APRFunctions.clearIO (.ofBits ea.rhu) = true

/-- **An I/O instruction makes the changes of the device that it reaches**, unless it loads the
process context or resets the I/O system. -/
theorem handleIO_holds (R : Cpu → Cpu → Prop) [Plain R] {dev : DeviceName} [PlainDevice R dev]
    {ioOp : IOOp} {ea : W36} (hload : ¬ ioOp.loadsContext dev) (hreset : ¬ ioOp.resets dev ea) :
    Holds (plainLogic R) <| handleIO dev ioOp ea := by
  cases ioOp with
  | DATAO => exact holds_doDATAO R fun h => hload ⟨h, .inl rfl⟩
  | BLKO => exact holds_doBLKO R fun h => hload ⟨h, .inr rfl⟩
  | CONO =>
      exact holds_doCONO R ea fun h =>
        Bool.eq_false_of_not_eq_true fun hclear => hreset ⟨h, rfl, hclear⟩
  | _ => unfold handleIO; infer_instance

/-- **Every I/O instruction** makes changes that a relation allows, if it allows those of the
device, the load of a process context, the switch of the block and the reset. -/
theorem frames_any_io (R : Cpu → Cpu → Prop) [Plain R] {dev : DeviceName} [PlainDevice R dev]
    (hload : ∀ (s : Cpu) (c : ProcessContext),
      R s { s with pag := { s.pag with processContext := c } })
    (hswitch : ∀ (s : Cpu) (b : BitVec 3), R s { s with AC := b })
    (hreset : ∀ (s : Cpu) (v : BitVec 18),
      R s { s with toDevices := s.toDevices.putAPRConditions v })
    {ioOp : IOOp} {ea : W36} : Frames R <| handleIO dev ioOp ea := by
  have hmodify (newContext : ProcessContext) :
      Holds (plainLogic R) (modifyDevices fun d =>
        { d with pag := { d.pag with processContext := d.pag.processContext.load newContext } }) :=
    ⟨Frames.modify _ fun s => hload s _⟩
  have hupdate (b : BitVec 3) : Holds (plainLogic R) (updateACBlock b) :=
    ⟨Frames.modify _ fun s => hswitch s b⟩
  have hDATAO : Holds (plainLogic R) doPAGDATAO := by
    rw [doPAGDATAO]
    infer_instance
  by_cases hloads : ioOp.loadsContext dev
  · have hpag : Holds (plainLogic R) <| handleIO dev ioOp ea := by
      obtain ⟨rfl, rfl | rfl⟩ := hloads
      · exact inferInstanceAs (Holds (plainLogic R) doPAGDATAO)
      · unfold handleIO
        rw [doBLKO, if_neg DeviceName.noConfusion, doDATAO, if_pos rfl]
        infer_instance
    exact hpag.frames
  · by_cases hresets : ioOp.resets dev ea
    · obtain ⟨rfl, rfl, -⟩ := hresets
      refine ⟨fun {s _ _} h => ?_⟩
      cases h
      exact hreset s _
    · exact (handleIO_holds R hloads hresets).frames

/-- So it stays within that device. -/
theorem handleIO_frames {dev : DeviceName} {ioOp : IOOp} {ea : W36}
    (hload : ¬ ioOp.loadsContext dev) (hreset : ¬ ioOp.resets dev ea) :
    Frames (OnDevice dev) <| handleIO dev ioOp ea :=
  Holds.frames _ (handleIO_holds _ hload hreset)

end KM10
