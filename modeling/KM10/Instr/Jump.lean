import KM10.Machine.Cpu
import KM10.Instr.IO

/-!
The jump group (`i-jump.cpp`) and the UUO group (`i-uuos.cpp`).

* `jumpInsn`, `skipInsn`: the conditional jumps and skips;
* `push`, `pop`: the stack, in its section 0 and global forms;
* `doPUSHJ` to `doJRA`: the subroutine calls, which save the PC of the next instruction, or
  that of the interrupted one in an interrupt;
* `doJRST`, `doXCT`, `doADJSP`;
* `doMUUO`, `doLUUO`, `doJSYS`.
-/

namespace KM10

open StateExcept (gets)

/-! ### Conditional jumps and skips -/

/-- Jump if the accumulator meets a condition. -/
def jumpInsn (cond : ℤ → Bool) : Handler := do
  let a ← acGet
  return if cond a.ext64 then .iJump else .iNormal

abbrev doJUMP : Handler := pure .iNormal
abbrev doJUMPL : Handler := jumpInsn fun s => s < 0
abbrev doJUMPE : Handler := jumpInsn fun s => s = 0
abbrev doJUMPLE : Handler := jumpInsn fun s => s ≤ 0
abbrev doJUMPA : Handler := pure .iJump
abbrev doJUMPGE : Handler := jumpInsn fun s => s ≥ 0
abbrev doJUMPN : Handler := jumpInsn fun s => s ≠ 0
abbrev doJUMPG : Handler := jumpInsn fun s => s > 0

/-- `if (iw.ac != 0) acPut(memGet())`. -/
def loadIfAC : Exec Unit := do
  let iw ← gets Cpu.iw
  if iw.ac ≠ 0 then do
    let v ← memGet
    acPut v
  else pure ()

/-- Skip if the memory operand meets a condition. -/
def skipInsn (cond : ℤ → Bool) : Handler := do
  loadIfAC
  let v ← memGet
  return if cond v.ext64 then .iSkip else .iNormal

/-- `doSKIP`. -/
def doSKIP : Handler := do
  loadIfAC
  return .iNormal

/-- `doSKIPA`. -/
def doSKIPA : Handler := do
  loadIfAC
  return .iSkip

abbrev doSKIPL : Handler := skipInsn fun s => s < 0
abbrev doSKIPE : Handler := skipInsn fun s => s = 0
abbrev doSKIPLE : Handler := skipInsn fun s => s ≤ 0
abbrev doSKIPGE : Handler := skipInsn fun s => s ≥ 0
abbrev doSKIPN : Handler := skipInsn fun s => s ≠ 0
abbrev doSKIPG : Handler := skipInsn fun s => s > 0

/-- The accumulator with one added to both halves. -/
def stepBothHalves : Exec W36 := do
  let tmp ← acGet
  let tmp := W36.halves (tmp.lhu + 1) (tmp.rhu + 1)
  acPut tmp
  return tmp

/-- `doAOBJP`. -/
def doAOBJP : Handler := do
  let tmp ← stepBothHalves
  return if 0 ≤ tmp.ext64 then .iJump else .iNormal

/-- `doAOBJN`. -/
def doAOBJN : Handler := do
  let tmp ← stepBothHalves
  return if tmp.ext64 < 0 then .iJump else .iNormal

/-- `doJFCL`. -/
def doJFCL : Handler := do
  let iw ← gets Cpu.iw
  let wasFlags ← gets Cpu.flags
  modifyFlags (.clearTested iw.ac)
  return if wasFlags.u &&& (iw.ac.setWidth 13 <<< 9) ≠ 0 then .iJump else .iNormal

/-! ### The stack -/

/-- The condition under which a stack pointer is a section 0 one. -/
def localStack (ac : W36) : Exec Bool := do
  let pc ← gets Cpu.pc
  return pc.isSection0 || ac.lhs < 0 || ac.lhu &&& 0o7777 == 0

/-- `push(v, iw.ac)`.  In its global form the word and the address change places. -/
def push (v : W36) : Exec Unit := do
  let ac ← acGet
  let isLocal ← localStack ac
  if isLocal then do
    let ac := W36.halves (ac.lhu + 1) (ac.rhu + 1)
    (if ac.lhu = 0 then modifyFlags .trap2 else memPutN v (W36.halves 0 ac.rhu))
    acPut ac
  else do
    let ac := ac + 1
    memPutN (W36.ofNat ac.vma.toNat) v
    acPut ac

/-- `pop(iw.ac)`. -/
def pop : Exec W36 := do
  let ac ← acGet
  let isLocal ← localStack ac
  if isLocal then do
    let poppedWord ← memGetN (W36.halves 0 ac.rhu)
    let ac := W36.halves (ac.lhu - 1) (ac.rhu - 1)
    (if ac.lhs = -1 then modifyFlags .trap2 else pure ())
    acPut ac
    return poppedWord
  else do
    let poppedWord ← memGetN (W36.ofNat ac.vma.toNat)
    acPut (ac - 1)
    return poppedWord

/-- `doPUSH`. -/
def doPUSH : Handler := do
  let v ← memGet
  push v
  return .iNormal

/-- `doPOP`. -/
def doPOP : Handler := do
  let v ← pop
  memPut v
  return .iNormal

/-- The store `ea.rhu = r`. -/
def putEaRH (r : BitVec 18) : Exec Unit := modify fun s => { s with ea := s.ea.setRhu r }

/-- `doPOPJ`. -/
def doPOPJ : Handler := do
  let v ← pop
  putEaRH v.rhu
  return .iJump

/-- `doADJSP`. -/
def doADJSP : Handler := do
  let a ← acGet
  let pc ← gets Cpu.pc
  let ea ← gets Cpu.ea
  if pc.isSection0 ∨ a.lhs < 0 then do
    let previousLH := a.lhs
    let a := W36.halves (a.lhu + ea.rhu) (a.rhu + ea.rhu)
    acPut a
    if (ea.rhs < 0 ∧ 0 ≤ previousLH ∧ a.lhs < 0) ∨ (0 < ea.rhs ∧ previousLH < 0 ∧ 0 ≤ a.lhs) then
      flagging .trap2 .iTrap
    else return .iNormal
  else if a.lhu &&& 0o7777 ≠ 0 then do
    acPut (a + W36.ofInt ea.rhs)
    return .iNormal
  else return .iNormal

/-! ### Subroutine calls -/

/-- The offset of the saved PC: zero in an interrupt, otherwise one. -/
def savedDelta : Exec ℕ := do
  let inInterrupt ← gets Cpu.inInterrupt
  return if inInterrupt then 0 else 1

/-- The word that a call saves: flags and PC when `inSection0`, otherwise the PC alone. -/
def savedPC (inSection0 : Bool) : Exec W36 := do
  let delta ← savedDelta
  let pc ← gets Cpu.pc
  if inSection0 then flagsWord (pc.rhu.toNat + delta) else return W36.ofNat (pc.vma.toNat + delta)

/-- `if (inInterrupt) flags.usr = flags.pub = 0`. -/
def enterExecInInterrupt : Exec Unit := do
  let inInterrupt ← gets Cpu.inInterrupt
  if inInterrupt then modifyFlags fun f => { f with usr := false, pub := false } else pure ()

/-- `if (inInterrupt) flags.usr = 0`. -/
def clearUsrInInterrupt : Exec Unit := do
  let inInterrupt ← gets Cpu.inInterrupt
  if inInterrupt then modifyFlags fun f => { f with usr := false } else pure ()

/-- `++ea.rhu`. -/
def stepEa : Exec Unit := modify fun s => { s with ea := s.ea.setRhu (s.ea.rhu + 1) }

/-- `doPUSHJ`.  The flags are cleared before the word is pushed, since `push` may set TR2. -/
def doPUSHJ : Handler := do
  modifyFlags .clearForCall
  let pc ← gets Cpu.pc
  let saved ← savedPC pc.isSection0
  push saved
  enterExecInInterrupt
  return .iJump

/-- `doJSR`. -/
def doJSR : Handler := do
  let ea ← gets Cpu.ea
  let tmp ← savedPC ea.isSection0
  memPut tmp
  stepEa
  modifyFlags .clearForCall
  enterExecInInterrupt
  return .iJump

/-- `doJSP`. -/
def doJSP : Handler := do
  let ea ← gets Cpu.ea
  let tmp ← savedPC ea.isSection0
  acPut tmp
  modifyFlags .clearForCall
  enterExecInInterrupt
  return .iJump

/-- `doJSA`. -/
def doJSA : Handler := do
  let delta ← savedDelta
  let a ← acGet
  memPut a
  let pc ← gets Cpu.pc
  let ea ← gets Cpu.ea
  acPut (W36.halves ea.rhu (pc.rhu + BitVec.ofNat 18 delta))
  stepEa
  clearUsrInInterrupt
  return .iJump

/-- `doJRA`. -/
def doJRA : Handler := do
  let a ← acGet
  let v ← memGetN (W36.halves 0 a.lhu)
  acPut v
  return .iJump

/-! ### JRST, XCT and MAP -/

/-- `doJRST`.  The forms that are not implemented jump. -/
def doJRST : Handler := do
  let iw ← gets Cpu.iw
  let ea ← gets Cpu.ea
  match iw.ac.toNat with
  | 0o02 => do
      restoreFlags ea
      return .iJump
  | 0o04 => do
      stop
      return .iHALT
  | 0o06 => do
      dismissInterrupt
      return .iJump
  | 0o10 => do
      restoreFlags ea
      return .iJump
  | 0o12 => do
      dismissInterrupt
      restoreFlags ea
      return .iJump
  | _ => return .iJump

/-- `doXCT`.  The previous context form is not implemented and executes like the plain one. -/
def doXCT : Handler := return .iXCT

/-- `doMAP`, which is not implemented. -/
def doMAP : Handler := return .iNormal

/-- `InstallJumpGroup`. -/
def installJumpGroup : List (ℕ × Handler) :=
  [(0o105, doADJSP),
    (0o252, doAOBJP), (0o253, doAOBJN), (0o254, doJRST), (0o255, doJFCL), (0o256, doXCT),
    (0o257, doMAP), (0o260, doPUSHJ), (0o261, doPUSH), (0o262, doPOP), (0o263, doPOPJ),
    (0o264, doJSR), (0o265, doJSP), (0o266, doJSA), (0o267, doJRA),
    (0o320, doJUMP), (0o321, doJUMPL), (0o322, doJUMPE), (0o323, doJUMPLE),
    (0o324, doJUMPA), (0o325, doJUMPGE), (0o326, doJUMPN), (0o327, doJUMPG),
    (0o330, doSKIP), (0o331, doSKIPL), (0o332, doSKIPE), (0o333, doSKIPLE),
    (0o334, doSKIPA), (0o335, doSKIPGE), (0o336, doSKIPN), (0o337, doSKIPG)]

/-! ### UUOs -/

/-- The word `flags << 23 | op << 15 | ac << 5` that a UUO saves. -/
def uuoWord (flags : ProgramFlags) (iw : W36) : W36 :=
  (flags.u.setWidth 36 <<< 23) ||| (iw.op.setWidth 36 <<< 15) ||| (iw.ac.setWidth 36 <<< 5)

/-- The UPT word with the new PC of an MUUO. -/
def muuoNewPC (flags : ProgramFlags) : ℕ :=
  if flags.usr then (if flags.pub then 0o436 else 0o434)
  else if flags.pub then 0o432 else 0o430

/-- `doMUUO`. -/
def doMUUO : Handler := do
  let flags ← gets Cpu.flags
  let d ← gets Cpu.toDevices
  let contextBits := if flags.usr then 0 else d.pag.getPCW
  let newPC ← uptGetN (muuoNewPC flags)
  setFetchPC newPC
  let flagsBits := { flags with cy0 := false, cy1 := false, ov := false }
  let iw ← gets Cpu.iw
  uptPutN (contextBits ||| uuoWord flagsBits iw) 0o424
  let pc ← gets Cpu.pc
  uptPutN (W36.ofNat (pc.vma.toNat + 1)) 0o425
  let ea ← gets Cpu.ea
  uptPutN ea 0o426
  uptPutN d.pag.getPCW 0o427
  modifyFlags fun _ => .none
  setPc newPC
  return .iMUUO

/-- `doLUUO`: through location 040 in section 0, through the UPT in user mode elsewhere, and
as an MUUO in executive mode elsewhere. -/
def doLUUO : Handler := do
  let pc ← gets Cpu.pc
  let usr ← userMode
  if pc.isSection0 then do
    let iw ← gets Cpu.iw
    memPutN iw.clearIX (W36.ofNat 0o40)
    setPcOffset 0
    setFetchPC (W36.ofNat 0o41)
    return .iLUUO
  else if usr then do
    let uuoA ← peekMem 0o420
    let flags ← gets Cpu.flags
    let iw ← gets Cpu.iw
    memPutN (uuoWord flags iw) uuoA
    memPutN pc (uuoA + 1)
    let ea ← gets Cpu.ea
    memPutN ea (uuoA + 2)
    setPcOffset 0
    let newPC ← memGetN (uuoA + 3)
    setFetchPC newPC
    return .iLUUO
  else doMUUO

/-- `doJSYS`, which is not implemented. -/
def doJSYS : Handler := do
  setInInterrupt true
  return .iMUUO

end KM10
