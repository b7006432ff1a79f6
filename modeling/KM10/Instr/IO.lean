import KM10.Machine.Cpu

/-!
The I/O instructions (`device.cpp`, `i-io.cpp`, and the I/O handlers of the devices).

The virtual handlers of `struct Device` are functions of the device that answers: `doBLKI` to
`doCONSO` are the versions of `Device` with the calls that `CCADevice` puts in front of
them, and the devices with a version of their own (`APRDevice`, `PAGDevice`, `DTE20`) are
picked off first, as the virtual call does.

* `handleIO`: the dispatch on device and I/O operation;
* `setUpInterruptCycleIfPending`, `dismissInterrupt`, `putConditions`: the operations that
  reach back into the loop;
* `doDTECONO`: the commands of the monitor protocol.
-/

namespace KM10

open StateExcept (gets)

/-- The operation of an I/O instruction (`W36::IOOp`). -/
inductive IOOp where
  | BLKI
  | DATAI
  | BLKO
  | DATAO
  | CONO
  | CONI
  | CONSZ
  | CONSO
deriving DecidableEq

/-- The operation that the three-bit field encodes. -/
def IOOp.ofBits (b : BitVec 3) : IOOp :=
  match b.toNat with
  | 0 => .BLKI
  | 1 => .DATAI
  | 2 => .BLKO
  | 3 => .DATAO
  | 4 => .CONO
  | 5 => .CONI
  | 6 => .CONSZ
  | _ => .CONSO

/-! ### The priority interrupt device -/

/-- The store `ACBlocks[7][3] = ifw` of the function word 0, which is what
`Device::getIntFuncWord` returns for every device. -/
def saveIntFuncWord : Exec Unit :=
  modify fun s => { s with ACBlocks := fun b n => if b = 7 ∧ n = 3 then 0 else s.ACBlocks b n }

/-- `PIDevice::setUpInterruptCycleIfPending`: the address of the vector word, or zero. -/
def setUpInterruptCycleIfPending : Exec W36 := do
  let d ← gets Cpu.toDevices
  match d.pi.piState.setUpInterruptCycle d.table with
  | none => return 0
  | some (highestLevel, piState) => do
      modifyDevices fun d => { d with pi := { d.pi with piState := piState } }
      saveIntFuncWord
      return eptAddressFor (0o40 + 2 * highestLevel)

/-- `PIDevice::dismissInterrupt`. -/
def dismissInterrupt : Exec Unit := do
  modifyDevices fun d => { d with pi := { d.pi with piState := d.pi.piState.dismissInterrupt } }
  setInInterrupt false

/-- `PIDevice::putConditions`.  The clear bit also leaves the interrupt vector; a request for
no level at all never ends. -/
def putPIConditions (v : BitVec 18) : Exec Unit := do
  let d ← gets Cpu.toDevices
  match d.pi.putConditions v with
  | none => throw .hang
  | some pi => do
      modifyDevices fun d => { d with pi := pi }
      if (PIFunctions.ofBits v).clearPI then setInInterrupt false else pure ()

/-! ### The conditions -/

/-- `putConditions`. -/
def putConditions (dev : DeviceName) (v : BitVec 18) : Exec Unit :=
  if dev = .pi then putPIConditions v else modifyDevices fun d => d.putConditions v dev

/-- `getConditions`. -/
def getConditions (dev : DeviceName) : Exec (BitVec 32) := do
  (if dev = .apr then modifyDevices Devices.refreshAPR else pure ())
  let d ← gets Cpu.toDevices
  return d.conditions dev

/-- The `startSweep()` that begins every handler of the CCA but BLKI. -/
def sweepFirst (dev : DeviceName) : Exec Unit :=
  if dev = .cca then modifyDevices Devices.startSweep else pure ()

/-! ### The front end -/

/-- The store `DTEMonitorOpComplete = W36(-2 & 0xFFFF)`. -/
def monitorOpComplete : Exec Unit := pokeMem (W36.ofNat 0o177776) 0o444

/-- The store `DTEto10Arg.rhu = v`. -/
def putTo10ArgRH (v : BitVec 18) : Exec Unit := do
  let arg ← peekMem 0o450
  pokeMem (arg.setRhu v) 0o450

/-- `ctyInput`: the next console character, or zero. -/
def ctyInput : Exec Unit := do
  let d ← gets Cpu.toDevices
  match d.dte.ctyQ with
  | [] => putTo10ArgRH 0
  | buf :: rest => do
      modifyDevices fun d => { d with dte := { d.dte with ctyQ := rest } }
      putTo10ArgRH ((buf &&& 0o177).setWidth 18)

/-- The monitor command that the to-11 doorbell carries, `fn` with its `data`. -/
def monitorCommand (fn data : BitVec 8) : Exec Unit :=
  match fn.toNat with
  | 0o01 => do
      (if data = 0o02 ∨ data = 0o01 then stop else pure ())
      monitorOpComplete
  | 0o03 => do
      let switches ← gets Cpu.switches
      pokeMem switches 0o450
      monitorOpComplete
  | 0o05 => do
      ctyInput
      monitorOpComplete
  | 0o07 => do
      ctyInput
      monitorOpComplete
  | 0o11 => pure ()
  | 0o12 => pure ()
  | _ => monitorOpComplete

/-- `DTE20::doCONO`. -/
def doDTECONO (ea : W36) : Exec IResult := do
  putConditions .dte ea.rhu
  (if ea.rhu.getLsbD 13 then do
    let arg ← peekMem 0o451
    monitorCommand (arg.rhu.extractLsb' 8 8) (arg.rhu.extractLsb' 0 8)
  else pure ())
  return .iNormal

/-! ### The I/O handlers -/

/-- `doDATAI`. -/
def doDATAI (dev : DeviceName) : Exec IResult := do
  sweepFirst dev
  let d ← gets Cpu.toDevices
  memPut (match dev with
    | .apr => d.apr.breakState
    | .pag => { d.pag.processContext with
        loadUserBase := false, selectPrevContext := false, selectACBlocks := false }.u
    | _ => 0)
  return .iNormal

/-- `PAGDevice::doDATAO`: the loads, and the switch to the selected AC block. -/
def doPAGDATAO : Exec IResult := do
  let v ← memGet
  let newContext := ProcessContext.ofBits v
  modifyDevices fun d =>
    { d with pag := { d.pag with processContext := d.pag.processContext.load newContext } }
  (if newContext.selectACBlocks then updateACBlock newContext.curACBlock else pure ())
  return .iNormal

/-- `APRDevice::doDATAO`. -/
def doAPRDATAO : Exec IResult := do
  let v ← memGet
  modifyDevices fun d => { d with apr := { d.apr with breakState := W36.halves 0 v.rhu } }
  return .iNormal

/-- `doDATAO`.  The version of `Device` says that there is no such device. -/
def doDATAO (dev : DeviceName) : Exec IResult :=
  if dev = .pag then doPAGDATAO
  else if dev = .apr then doAPRDATAO
  else do
    sweepFirst dev
    return .iNoSuchDevice

/-- The pointer word that BLKI and BLKO step: both halves by one, without a carry. -/
def stepPointer : Exec W36 := do
  let e ← memGet
  let e := W36.halves (e.lhu + 1) (e.rhu + 1)
  memPut e
  return e

/-- `Device::doBLKI`; the BLKI of the APR is APRID. -/
def doBLKI (dev : DeviceName) : Exec IResult :=
  if dev = .apr then do
    memPut aprIDValue
    return .iNormal
  else do
    let e ← stepPointer
    let _ ← doDATAI dev
    return if e.lhu ≠ 0 then .iSkip else .iNormal

/-- `Device::doBLKO`; the BLKO of the APR is a no-op. -/
def doBLKO (dev : DeviceName) : Exec IResult :=
  if dev = .apr then return .iNormal
  else do
    sweepFirst dev
    let e ← stepPointer
    let _ ← doDATAO dev
    return if e.lhu ≠ 0 then .iSkip else .iNormal

/-- `doCONO`.  The version of `Device` writes the conditions and says that there is no such
device; the APR says `iNormal`, and the DTE has its own. -/
def doCONO (dev : DeviceName) (ea : W36) : Exec IResult :=
  if dev = .dte then doDTECONO ea
  else do
    sweepFirst dev
    putConditions dev ea.rhu
    return if dev = .apr then .iNormal else .iNoSuchDevice

/-- `doCONI`. -/
def doCONI (dev : DeviceName) : Exec IResult := do
  sweepFirst dev
  let conditions ← getConditions dev
  memPut (conditions.setWidth 36)
  return .iNormal

/-- The conditions that CONSZ and CONSO test. -/
def testConditions (dev : DeviceName) (ea : W36) : Exec (BitVec 32) := do
  sweepFirst dev
  let conditions ← getConditions dev
  return conditions &&& ea.rhu.setWidth 32

/-- `Device::doCONSZ`. -/
def doCONSZ (dev : DeviceName) (ea : W36) : Exec IResult := do
  let tested ← testConditions dev ea
  return if tested = 0 then .iSkip else .iNormal

/-- `Device::doCONSO`. -/
def doCONSO (dev : DeviceName) (ea : W36) : Exec IResult := do
  let tested ← testConditions dev ea
  return if tested ≠ 0 then .iSkip else .iNormal

/-- `Device::handleIO(iw, ea)`. -/
def handleIO (dev : DeviceName) (ioOp : IOOp) (ea : W36) : Exec IResult :=
  match ioOp with
  | .BLKI => doBLKI dev
  | .DATAI => doDATAI dev
  | .BLKO => doBLKO dev
  | .DATAO => doDATAO dev
  | .CONO => doCONO dev ea
  | .CONI => doCONI dev
  | .CONSZ => doCONSZ dev ea
  | .CONSO => doCONSO dev ea

/-- `doIO`. -/
def doIO : Exec IResult := do
  let iw ← gets Cpu.iw
  let ea ← gets Cpu.ea
  handleIO (.ofIODev iw.ioDev) (.ofBits iw.ioOp) ea

end KM10
