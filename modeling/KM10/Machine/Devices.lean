import KM10.Machine.Word

/-!
The registers of the devices (`device.hpp`, `pi.hpp`, `apr.hpp`, `pag.hpp`, `cca.hpp`,
`tim.hpp`, `mtr.hpp`, `dte20.hpp`) and the operations on them that touch nothing else.

* `Device`: what every device inherits, its interrupt level and request;
* `PIFunctions`, `PIState`, `PIDevice`: the priority interrupt system.  `PIState.search` is
  the walk over the device table, `PIState.setUpInterruptCycle` the grant,
  `PIDevice.applyFunctions` a CONO PI word without the clear bit (`none` when the search for
  the requested level never ends), `PIDevice.putConditions` any CONO PI word;
* `APRFunctions`, `APRState`, `ProcessContext`: the processor and pager registers, packed
  and unpacked as their unions are;
* `Devices`: all devices together, with the operations that reach from one to another.

Register bits that the source declares but nothing reads or sets to a non-zero value are
left out; where a register is read whole (`u`) they are the zeros between the fields.
-/

namespace KM10

/-- What every device inherits from `struct Device`. -/
structure Device where
  intLevel : ℕ
  intPending : Bool
deriving DecidableEq

/-- A device at level 0 without a request, as the constructor leaves it. -/
def Device.idle : Device := ⟨0, false⟩

/-! ### The priority interrupt system -/

/-- The function bits of a CONO PI word (`PIDevice::PIFunctions`). -/
structure PIFunctions where
  levels : BitVec 7
  turnPIOn : Bool
  turnPIOff : Bool
  levelsTurnOff : Bool
  levelsTurnOn : Bool
  initiatePR : Bool
  clearPI : Bool
  dropPR : Bool
  writeEvenParityDir : Bool
  writeEvenParityData : Bool
  writeEvenParityAddr : Bool
deriving DecidableEq

/-- `PIFunctions(unsigned v)`. -/
def PIFunctions.ofBits (v : BitVec 18) : PIFunctions where
  levels := v.extractLsb' 0 7
  turnPIOn := v.getLsbD 7
  turnPIOff := v.getLsbD 8
  levelsTurnOff := v.getLsbD 9
  levelsTurnOn := v.getLsbD 10
  initiatePR := v.getLsbD 11
  clearPI := v.getLsbD 12
  dropPR := v.getLsbD 13
  writeEvenParityDir := v.getLsbD 15
  writeEvenParityData := v.getLsbD 16
  writeEvenParityAddr := v.getLsbD 17

/-- The state of the priority interrupt system (`PIDevice::PIState`). -/
structure PIState where
  levelsOn : BitVec 7
  piOn : Bool
  held : BitVec 7
  writeEvenParityDir : Bool
  writeEvenParityData : Bool
  writeEvenParityAddr : Bool
  prLevels : BitVec 7
  currentLevel : BitVec 4
deriving DecidableEq

namespace PIState

/-- The value of `currentLevel` when no interrupt is being serviced. -/
def noLevel : BitVec 4 := 8

/-- `PIState()`: everything zero and no current level. -/
def initial : PIState := ⟨0, false, 0, false, false, false, 0, noLevel⟩

/-- The CONI bits, `unsigned u: 25`. -/
def u (p : PIState) : BitVec 25 :=
  p.prLevels ++ BitVec.ofBool p.writeEvenParityAddr ++ BitVec.ofBool p.writeEvenParityData ++
    BitVec.ofBool p.writeEvenParityDir ++ p.held ++ BitVec.ofBool p.piOn ++ p.levelsOn

/-- The mask `1 << (7 - level)` in a 7-bit set of levels, for the levels 0 to 7: level 1 is
the leftmost bit and level 0 falls off the left end. -/
def levelMask (level : ℕ) : BitVec 7 := BitVec.ofNat 7 (1 <<< 7 >>> level)

/-- One step of the walk over the device table: the level found so far, or that of the
device when it is pending, turned on and higher in priority. -/
def searchStep (levelsOn : BitVec 7) (highestLevel : ℕ) (dev : Device) : ℕ :=
  if dev.intPending then
    if levelMask dev.intLevel &&& levelsOn ≠ 0 ∧ dev.intLevel < highestLevel then dev.intLevel
    else highestLevel
  else highestLevel

/-- The search of the device table for the highest pending level, 99 when there is none. -/
def search (levelsOn : BitVec 7) (devices : List Device) : ℕ :=
  devices.foldl (searchStep levelsOn) 99

/-- What `setUpInterruptCycleIfPending` does to the PI state: the level it grants and the
state after the grant, or `none` when it grants nothing. -/
def setUpInterruptCycle (p : PIState) (devices : List Device) : Option (ℕ × PIState) :=
  if !p.piOn || p.levelsOn == 0 then none
  else
    let highestLevel := search p.levelsOn devices
    if highestLevel < p.currentLevel.toNat then
      some (highestLevel,
        { p with held := p.held ||| levelMask highestLevel,
                 currentLevel := BitVec.ofNat 4 highestLevel })
    else none

/-- What `dismissInterrupt` does to the PI state. -/
def dismissInterrupt (p : PIState) : PIState := { p with currentLevel := noLevel, held := 0 }

/-- What `PIDevice::clearIO` does to the PI state: `levelsOn` and `piOn` survive. -/
def clearIO (p : PIState) : PIState := { initial with levelsOn := p.levelsOn, piOn := p.piOn }

end PIState

/-- The priority interrupt device. -/
structure PIDevice extends Device where
  piState : PIState
deriving DecidableEq

namespace PIDevice

/-- The `for` loop that looks for the highest requested level: `thisLevel` counts up while
`levelMask` shifts to the right.  Once the mask is zero the loop never ends, so that eight
rounds decide it. -/
def seekLevel (levels : BitVec 7) : ℕ → ℕ → BitVec 7 → Option (ℕ × BitVec 7)
  | 0, _, _ => none
  | rounds + 1, thisLevel, levelMask =>
      if levels &&& levelMask = 0 then seekLevel levels rounds (thisLevel + 1) (levelMask >>> 1)
      else some (thisLevel, levelMask)

/-- The initiate-request branch of `putConditions`: the level at which the device requests
its interrupt afterwards, `none` when the search never ends. -/
def requestLevel (d : PIDevice) (levels : BitVec 7) : Option ℕ :=
  if d.piState.prLevels &&& levels = 0 then
    (seekLevel levels 8 1 0o100).map fun (thisLevel, levelMask) =>
      if levelMask = 0 ∨ thisLevel < d.piState.currentLevel.toNat then thisLevel else d.intLevel
  else some d.intLevel

/-- `putConditions` on a word without the clear bit, up to the initiate-request branch. -/
def writeConditions (p : PIState) (pif : PIFunctions) : PIState :=
  let p := { p with writeEvenParityDir := pif.writeEvenParityDir,
                    writeEvenParityData := pif.writeEvenParityData,
                    writeEvenParityAddr := pif.writeEvenParityAddr }
  let p := if pif.turnPIOn then { p with piOn := true } else p
  let p := if pif.turnPIOff then { p with piOn := false } else p
  let p := if pif.levelsTurnOff then { p with levelsOn := p.levelsOn &&& ~~~ pif.levels } else p
  let p := if pif.levelsTurnOn then { p with levelsOn := p.levelsOn ||| pif.levels } else p
  if pif.dropPR then { p with prLevels := p.prLevels &&& ~~~ pif.levels } else p

/-- `putConditions` on a word without the clear bit. -/
def applyFunctions (d : PIDevice) (pif : PIFunctions) : Option PIDevice :=
  let d := { d with piState := writeConditions d.piState pif }
  if pif.initiatePR then
    (d.requestLevel pif.levels).map fun level =>
      { intLevel := level, intPending := true,
        piState := { d.piState with prLevels := d.piState.prLevels ||| pif.levels } }
  else some { d with intPending := false }

/-- `PIDevice::clearIO`.  The `putConditions(0)` inside `Device::clearIO` only touches the
request and the parity bits, which are cleared afterwards anyway. -/
def clearIO (d : PIDevice) : PIDevice := ⟨Device.idle, d.piState.clearIO⟩

/-- `PIDevice::putConditions` on the registers of the device. -/
def putConditions (d : PIDevice) (v : BitVec 18) : Option PIDevice :=
  let pif := PIFunctions.ofBits v
  if pif.clearPI then some { d.clearIO with piState := PIState.initial }
  else d.applyFunctions pif

/-- The device as its constructor leaves it: cleared. -/
def initial : PIDevice := clearIO ⟨Device.idle, PIState.initial⟩

end PIDevice

/-! ### The processor registers -/

/-- The CONI APR status (`APRDevice::APRState`). -/
structure APRState where
  intLevel : BitVec 3
  intRequest : Bool
  active : BitVec 8
  sweepBusy : Bool
  enabled : BitVec 8
deriving DecidableEq

namespace APRState

/-- Everything zero. -/
def initial : APRState := ⟨0, false, 0, false, 0⟩

/-- The status word `uint64_t u: 36`. -/
def u (a : APRState) : W36 :=
  (0 : BitVec 6) ++ a.enabled ++ (0 : BitVec 5) ++ BitVec.ofBool a.sweepBusy ++ (0 : BitVec 4) ++
    a.active ++ BitVec.ofBool a.intRequest ++ a.intLevel

/-- The sweep-done bit, the lowest of the eight conditions. -/
def sweepDone : BitVec 8 := 1

end APRState

/-- The function bits of a CONO APR word (`APRDevice::APRFunctions`). -/
structure APRFunctions where
  intLevel : BitVec 3
  select : BitVec 8
  set : Bool
  clear : Bool
  disable : Bool
  enable : Bool
  clearIO : Bool
deriving DecidableEq

/-- `APRFunctions(unsigned v)`. -/
def APRFunctions.ofBits (v : BitVec 18) : APRFunctions where
  intLevel := v.extractLsb' 0 3
  select := v.extractLsb' 4 8
  set := v.getLsbD 12
  clear := v.getLsbD 13
  disable := v.getLsbD 14
  enable := v.getLsbD 15
  clearIO := v.getLsbD 16

/-- The processor device: the status and the address break register. -/
structure APRDevice extends Device where
  aprState : APRState
  breakState : W36
deriving DecidableEq

/-- The processor identification `aprIDValue`. -/
def aprIDValue : W36 :=
  (0b110 : BitVec 3) ++ (0 : BitVec 6) ++ (0o442 : BitVec 9) ++ (0b00111 : BitVec 5) ++
    (0 : BitVec 1) ++ (0o4321 : BitVec 12)

namespace APRDevice

/-- `APRDevice::requestInterrupt`. -/
def requestInterrupt (d : APRDevice) : APRDevice :=
  { d with intPending := true, aprState := { d.aprState with intRequest := true } }

/-- `APRDevice::startSweep`. -/
def startSweep (d : APRDevice) : APRDevice :=
  { d with aprState := { d.aprState with sweepBusy := true } }

/-- `APRDevice::endSweep`. -/
def endSweep (d : APRDevice) : APRDevice :=
  let d := { d with aprState := { d.aprState with
    sweepBusy := false, active := d.aprState.active ||| APRState.sweepDone } }
  if d.aprState.intLevel ≠ 0 ∧ d.aprState.enabled &&& APRState.sweepDone ≠ 0 then
    d.requestInterrupt
  else d

/-- `APRDevice::putConditions` up to the I/O reset, which concerns the other devices. -/
def applyFunctions (d : APRDevice) (func : APRFunctions) : APRDevice :=
  let select := func.select
  let d := { d with intLevel := func.intLevel.toNat,
                    aprState := { d.aprState with intLevel := func.intLevel } }
  let setEnabled (d : APRDevice) (a : BitVec 8) : APRDevice :=
    { d with aprState := { d.aprState with enabled := a } }
  let setActive (d : APRDevice) (a : BitVec 8) : APRDevice :=
    { d with aprState := { d.aprState with active := a } }
  let d := if func.disable then setEnabled d (d.aprState.enabled &&& ~~~ select) else d
  let d := if func.enable then setEnabled d (d.aprState.enabled ||| select) else d
  let d :=
    if func.enable ∧ func.set ∧ d.aprState.active < (d.aprState.enabled &&& select) then
      d.requestInterrupt
    else d
  let d := if func.clear then setActive d (d.aprState.active &&& ~~~ select) else d
  if func.set then setActive d (d.aprState.active ||| select) else d

/-- `APRDevice::clearIO`. -/
def clearIO (d : APRDevice) : APRDevice :=
  { d with intLevel := 0, intPending := false, aprState := APRState.initial }

end APRDevice

/-! ### The pager registers -/

/-- The process context word (`PAGDevice::ProcessContext`), its fields from the right. -/
structure ProcessContext where
  userBaseAddress : BitVec 13
  doNotUpdateAccounts : Bool
  prevSection : BitVec 5
  prevACBlock : BitVec 3
  curACBlock : BitVec 3
  loadUserBase : Bool
  selectPrevContext : Bool
  selectACBlocks : Bool
deriving DecidableEq

namespace ProcessContext

/-- Everything zero. -/
def initial : ProcessContext := ⟨0, false, 0, 0, 0, false, false, false⟩

/-- `ProcessContext(uint64_t v)`. -/
def ofBits (v : W36) : ProcessContext where
  userBaseAddress := v.extractLsb' 0 13
  doNotUpdateAccounts := v.getLsbD 13
  prevSection := v.extractLsb' 14 5
  prevACBlock := v.extractLsb' 20 3
  curACBlock := v.extractLsb' 23 3
  loadUserBase := v.getLsbD 29
  selectPrevContext := v.getLsbD 30
  selectACBlocks := v.getLsbD 31

/-- The context word `uint64_t u: 36`. -/
def u (c : ProcessContext) : W36 :=
  (0 : BitVec 4) ++ BitVec.ofBool c.selectACBlocks ++ BitVec.ofBool c.selectPrevContext ++
    BitVec.ofBool c.loadUserBase ++ (0 : BitVec 3) ++ c.curACBlock ++ c.prevACBlock ++
    (0 : BitVec 1) ++ c.prevSection ++ BitVec.ofBool c.doNotUpdateAccounts ++ c.userBaseAddress

/-- The loads of `PAGDevice::doDATAO`, each under its own select bit. -/
def load (c newContext : ProcessContext) : ProcessContext :=
  let c := if newContext.loadUserBase then
    { c with userBaseAddress := newContext.userBaseAddress } else c
  let c := if newContext.selectPrevContext then
    { c with prevSection := newContext.prevSection } else c
  if newContext.selectACBlocks then
    { c with prevACBlock := newContext.prevACBlock, curACBlock := newContext.curACBlock }
  else c

end ProcessContext

/-- The pager device. -/
structure PAGDevice extends Device where
  processContext : ProcessContext
  pagState : BitVec 18
deriving DecidableEq

/-- `pagerEnabled()`. -/
def PAGDevice.pagerEnabled (d : PAGDevice) : Bool := d.pagState.getLsbD 13

/-- `getPCW()`. -/
def PAGDevice.getPCW (d : PAGDevice) : W36 := d.processContext.u

/-! ### The other devices -/

/-- The cache control device: its sweep counter runs while a sweep is busy. -/
structure CCADevice extends Device where
  genericConditions : BitVec 18
  sweepCountDown : ℤ
deriving DecidableEq

/-- The interval timer. -/
structure TIMDevice extends Device where
  timState : W36
deriving DecidableEq

/-- The meters. -/
structure MTRDevice extends Device where
  mtrState : BitVec 18
deriving DecidableEq

/-- The front end: its conditions and the console characters waiting to be read. -/
structure DTE20 extends Device where
  genericConditions : BitVec 18
  ctyQ : List (BitVec 8)
deriving DecidableEq

/-- The stand-in for every device number that is not registered. -/
structure NoDevice extends Device where
  genericConditions : BitVec 18
deriving DecidableEq

/-! ### The devices of the machine together -/

/-- The devices, under the names of the members of `class KM10`. -/
structure Devices where
  apr : APRDevice
  cca : CCADevice
  mtr : MTRDevice
  pag : PAGDevice
  pi : PIDevice
  tim : TIMDevice
  dte : DTE20
  noDevice : NoDevice
deriving DecidableEq

/-- Which of the devices answers to a device number. -/
inductive DeviceName where
  | apr
  | pi
  | pag
  | cca
  | tim
  | mtr
  | dte
  | noDevice
deriving DecidableEq

/-- The look-up of `Device::handleIO`: an unregistered number is answered by `noDevice`. -/
def DeviceName.ofIODev (ioDev : BitVec 7) : DeviceName :=
  match ioDev.toNat with
  | 0o00 => .apr
  | 0o01 => .pi
  | 0o03 => .pag
  | 0o14 => .cca
  | 0o20 => .tim
  | 0o24 => .mtr
  | 0o40 => .dte
  | _ => .noDevice

namespace Devices

/-- The devices as their constructors leave them. -/
def initial : Devices where
  apr := ⟨.idle, .initial, 0⟩
  cca := ⟨.idle, 0, 0⟩
  mtr := ⟨.idle, 0⟩
  pag := ⟨.idle, .initial, 0⟩
  pi := .initial
  tim := ⟨.idle, 0⟩
  dte := ⟨.idle, 0, []⟩
  noDevice := ⟨.idle, 0⟩

/-- `Device::devices`, the map of the devices in the order of their numbers. -/
def table (d : Devices) : List Device :=
  [d.apr.toDevice, d.pi.toDevice, d.pag.toDevice, d.cca.toDevice, d.tim.toDevice,
    d.mtr.toDevice, d.dte.toDevice, d.noDevice.toDevice]

/-- `CCADevice::startSweep`. -/
def startSweep (d : Devices) : Devices :=
  { d with cca := { d.cca with sweepCountDown := 10 }, apr := d.apr.startSweep }

/-- `CCADevice::handleSweep`. -/
def handleSweep (d : Devices) : Devices :=
  if d.cca.sweepCountDown ≠ 0 then
    let sweepCountDown := d.cca.sweepCountDown - 1
    { d with cca := { d.cca with sweepCountDown := sweepCountDown },
             apr := if sweepCountDown = 0 then d.apr.endSweep else d.apr }
  else d

/-- `CCADevice::clearIO`: a sweep that is busy ends at once. -/
def clearCCA (d : Devices) : Devices :=
  { d with apr := if d.cca.sweepCountDown ≠ 0 then d.apr.endSweep else d.apr,
           cca := { d.cca with sweepCountDown := 0 } }

/-- `Device::clearAll`: the `clearIO` of every device in the order of the map.  PAG, TIM, MTR
and `noDevice` inherit it from `Device`, which writes the conditions 0; that of the DTE does
nothing. -/
def clearAll (d : Devices) : Devices :=
  let d := { d with apr := d.apr.clearIO }
  let d := { d with pi := d.pi.clearIO }
  let d := { d with pag := { d.pag with toDevice := .idle, pagState := 0 } }
  let d := d.clearCCA
  let d := { d with tim := ⟨.idle, 0⟩ }
  let d := { d with mtr := ⟨.idle, 0⟩ }
  { d with noDevice := ⟨.idle, 0⟩ }

/-- `APRDevice::putConditions`. -/
def putAPRConditions (d : Devices) (v : BitVec 18) : Devices :=
  let func := APRFunctions.ofBits v
  let d := { d with apr := d.apr.applyFunctions func }
  if func.clearIO then d.clearAll else d

/-- `putConditions` of every device but PI, whose version also concerns the loop. -/
def putConditions (d : Devices) (v : BitVec 18) : DeviceName → Devices
  | .apr => d.putAPRConditions v
  | .pi => d
  | .pag => { d with pag := { d.pag with pagState := v } }
  | .cca => { d with cca := { d.cca with genericConditions := v } }
  | .tim => { d with tim := { d.tim with timState := v.setWidth 36 } }
  | .mtr => { d with mtr := { d.mtr with mtrState := v } }
  | .dte => { d with dte := { d.dte with genericConditions := v } }
  | .noDevice => { d with noDevice := { d.noDevice with genericConditions := v } }

/-- The store with which `APRDevice::getConditions` refreshes its interrupt level. -/
def refreshAPR (d : Devices) : Devices :=
  { d with apr := { d.apr with aprState := { d.apr.aprState with
      intLevel := BitVec.ofNat 3 d.apr.intLevel } } }

/-- The value of `getConditions`, an `unsigned` of 32 bits. -/
def conditions (d : Devices) : DeviceName → BitVec 32
  | .apr => d.apr.aprState.u.setWidth 32
  | .pi => d.pi.piState.u.setWidth 32
  | .pag => d.pag.pagState.setWidth 32
  | .cca => d.cca.genericConditions.setWidth 32
  | .tim => d.tim.timState.setWidth 32
  | .mtr => d.mtr.mtrState.setWidth 32
  | .dte => d.dte.genericConditions.setWidth 32
  | .noDevice => d.noDevice.genericConditions.setWidth 32

end Devices

end KM10
