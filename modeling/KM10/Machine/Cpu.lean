import KM10.Library.StateExcept
import KM10.Machine.Devices
import KM10.Machine.Flags

/-!
The processor state and its accessors (`km10.hpp`, the first half of `km10.cpp`).

* `Cpu`: the members of `class KM10` that the emulation loop and the handlers use;
* `Exec`: a stateful computation on it, which may stop with a `Fault`;
* `acGetN` to `immediate`, `uptGetN`, `uptPutN`: the accumulator and memory accessors;
* `getEA`: the effective address calculation;
* `setADDFlags`, `setSUBFlags`, `flagsWord`, `restoreFlags`: the helpers on the flags.

Memory is the 18-bit address space that `memP[a.rhu]` reaches; the EPT and the UPT are both
based at its word 0, where the constructor puts them.
-/

namespace KM10

open StateExcept (gets)

/-- What an instruction handler tells the loop (`iresult.hpp`). -/
inductive IResult where
  | iNormal
  | iSkip
  | iJump
  | iMUUO
  | iLUUO
  | iTrap
  | iHALT
  | iXCT
  | iNoSuchDevice
  | iNYI
deriving DecidableEq

/-- Why an instruction did not complete: a failed assertion on an accumulator index, a loop
of the source that never ends, or a step that the language leaves undefined. -/
inductive Fault where
  | acIndex (n : ℕ)
  | hang
  | undefined
deriving DecidableEq

/-- The state of the machine. -/
structure Cpu extends Devices where
  pc : W36
  iw : W36
  ea : W36
  fetchPC : W36
  pcOffset : ℕ
  memP : BitVec 18 → W36
  running : Bool
  ACBlocks : BitVec 3 → BitVec 4 → W36
  AC : BitVec 3
  flags : ProgramFlags
  inInterrupt : Bool
  nSteps : ℤ
  opBPs : List ℕ
  addressGBPs : List ℕ
  addressPBPs : List ℕ
  executeBPs : List ℕ
  switches : W36
  indeterminate : Bool

/-- The machine as its constructor leaves it, with the switches that the constructor of the debugger
sets. -/
def Cpu.initial : Cpu where
  toDevices := .initial
  pc := 0
  iw := 0
  ea := 0
  fetchPC := 0
  pcOffset := 0
  memP := fun _ => 0
  running := false
  ACBlocks := fun _ _ => 0
  AC := 0
  flags := .none
  inInterrupt := false
  nSteps := 0
  opBPs := []
  addressGBPs := []
  addressPBPs := []
  executeBPs := []
  switches := .halves 0o2000 0
  indeterminate := false

/-- A computation on the machine. -/
abbrev Exec (α : Type) := StateT Cpu (Except Fault) α

/-- The handler of an opcode. -/
abbrev Handler := Exec IResult

/-- The accumulators of the current block. -/
def Cpu.acs (s : Cpu) (n : BitVec 4) : W36 := s.ACBlocks s.AC n

/-- The word that an access to address `a` reaches: an accumulator below 020, otherwise a
memory word. -/
def Cpu.word (s : Cpu) (a : BitVec 18) : W36 :=
  if a < 0o20 then s.acs (a.setWidth 4) else s.memP a

/-- The state with word `v` in accumulator `n` of the current block. -/
def Cpu.setAC (s : Cpu) (v : W36) (n : BitVec 4) : Cpu :=
  { s with ACBlocks := fun b m => if b = s.AC ∧ m = n then v else s.ACBlocks b m }

/-- The state with word `v` in memory word `a`. -/
def Cpu.setMem (s : Cpu) (v : W36) (a : BitVec 18) : Cpu :=
  { s with memP := fun m => if m = a then v else s.memP m }

/-- The state with word `v` where an access to address `a` reaches. -/
def Cpu.setWord (s : Cpu) (v : W36) (a : BitVec 18) : Cpu :=
  if a < 0o20 then s.setAC v (a.setWidth 4) else s.setMem v a

section SetWord

variable (s : Cpu) (v : W36) (a : BitVec 18)

@[simp] lemma setWord_toDevices : (s.setWord v a).toDevices = s.toDevices := by
  rw [Cpu.setWord]
  split <;> rfl

@[simp] lemma setWord_pc : (s.setWord v a).pc = s.pc := by
  rw [Cpu.setWord]
  split <;> rfl

@[simp] lemma setWord_iw : (s.setWord v a).iw = s.iw := by
  rw [Cpu.setWord]
  split <;> rfl

@[simp] lemma setWord_ea : (s.setWord v a).ea = s.ea := by
  rw [Cpu.setWord]
  split <;> rfl

@[simp] lemma setWord_fetchPC : (s.setWord v a).fetchPC = s.fetchPC := by
  rw [Cpu.setWord]
  split <;> rfl

@[simp] lemma setWord_AC : (s.setWord v a).AC = s.AC := by
  rw [Cpu.setWord]
  split <;> rfl

@[simp] lemma setWord_flags : (s.setWord v a).flags = s.flags := by
  rw [Cpu.setWord]
  split <;> rfl

@[simp] lemma setWord_inInterrupt : (s.setWord v a).inInterrupt = s.inInterrupt := by
  rw [Cpu.setWord]
  split <;> rfl

/-- A store does not depend on the run flag and keeps it. -/
lemma setWord_running (running : Bool) :
    ({ s with running := running } : Cpu).setWord v a =
      { s.setWord v a with running := running } := by
  simp only [Cpu.setWord]
  split <;> rfl

/-- Nor on the flags. -/
lemma setWord_with_flags (flags : ProgramFlags) :
    ({ s with flags := flags } : Cpu).setWord v a = { s.setWord v a with flags := flags } := by
  simp only [Cpu.setWord]
  split <;> rfl

end SetWord

/-- What a store to an accumulator leaves in the accumulators. -/
lemma acs_setAC (s : Cpu) (v : W36) (n m : BitVec 4) :
    (s.setAC v n).acs m = if m = n then v else s.acs m := by
  by_cases h : m = n
  · rw [if_pos h]
    exact if_pos ⟨rfl, h⟩
  · rw [if_neg h]
    exact if_neg fun hboth => h hboth.2

/-- Stores to an accumulator that leave the same machine, with whatever flags, store the same
word. -/
lemma setAC_inj {s t : Cpu} {v w : W36} {n : BitVec 4} {f g : ProgramFlags}
    {running running' : Bool} (h : ({ s.setAC v n with flags := f, running := running } : Cpu) =
      { t.setAC w n with flags := g, running := running' }) : v = w ∧ f = g := by
  have hacs : (s.setAC v n).acs n = (t.setAC w n).acs n := by
    have hn := congrArg (fun u : Cpu => u.acs n) h
    exact hn
  rw [acs_setAC, acs_setAC, if_pos rfl, if_pos rfl] at hacs
  exact ⟨hacs, congrArg Cpu.flags h⟩

lemma setAC_eq_iff {s : Cpu} {v w : W36} {n : BitVec 4} : s.setAC v n = s.setAC w n ↔ v = w :=
  ⟨fun h => (@setAC_inj s s v w n s.flags s.flags s.running s.running h).1, fun h => h ▸ rfl⟩

/-- The second of two stores to an accumulator counts. -/
lemma setAC_setAC (s : Cpu) (v w : W36) (n : BitVec 4) : (s.setAC v n).setAC w n = s.setAC w n := by
  have hblocks : (fun b m => if b = s.AC ∧ m = n then w else
      if b = s.AC ∧ m = n then v else s.ACBlocks b m) =
      fun b m => if b = s.AC ∧ m = n then w else s.ACBlocks b m := by
    funext b m
    split <;> rfl
  exact congrArg (fun blocks => { s with ACBlocks := blocks }) hblocks

/-- Stores to different accumulators do not depend on their order. -/
lemma setAC_comm (s : Cpu) (v w : W36) {n m : BitVec 4} (hne : n ≠ m) :
    (s.setAC v n).setAC w m = (s.setAC w m).setAC v n := by
  have hblocks : (fun b k => if b = s.AC ∧ k = m then w else
      if b = s.AC ∧ k = n then v else s.ACBlocks b k) =
      fun b k => if b = s.AC ∧ k = n then v else
        if b = s.AC ∧ k = m then w else s.ACBlocks b k := by
    funext b k
    split
    case isTrue hm => rw [if_neg fun hn => hne (hn.2.symm.trans hm.2)]
    case isFalse => rfl
  exact congrArg (fun blocks => { s with ACBlocks := blocks }) hblocks

/-- Storing what the accumulator holds changes nothing. -/
lemma setAC_self (s : Cpu) (n : BitVec 4) : s.setAC (s.acs n) n = s := by
  have hsame : (fun b m => if b = s.AC ∧ m = n then s.acs n else s.ACBlocks b m) =
      s.ACBlocks := by
    funext b m
    split
    case isTrue h =>
      rw [h.1, h.2]
      rfl
    case isFalse => rfl
  rw [Cpu.setAC, hsame]

/-- What a store to an address leaves in the accumulators. -/
lemma acs_setWord (s : Cpu) (v : W36) (a : BitVec 18) (m : BitVec 4) :
    (s.setWord v a).acs m = if a < 0o20 ∧ m = a.setWidth 4 then v else s.acs m := by
  rw [Cpu.setWord]
  by_cases ha : a < 0o20
  · rw [if_pos ha, acs_setAC]
    simp only [ha, true_and]
  · rw [if_neg ha, if_neg fun h => ha h.1]
    rfl

/-- A store is read back. -/
lemma word_setWord (s : Cpu) (v : W36) (a : BitVec 18) : (s.setWord v a).word a = v := by
  rw [Cpu.word]
  split
  case isTrue ha => rw [acs_setWord, if_pos ⟨ha, rfl⟩]
  case isFalse ha =>
    rw [Cpu.setWord, if_neg ha]
    exact if_pos rfl

/-- A store to an accumulator leaves the other words alone. -/
lemma word_setAC_of_ne {s : Cpu} {v : W36} {n : BitVec 4} {a : BitVec 18}
    (h : ¬ (a < 0o20 ∧ a.setWidth 4 = n)) : (s.setAC v n).word a = s.word a := by
  rw [Cpu.word, Cpu.word]
  split
  case isTrue ha => rw [acs_setAC, if_neg fun hn => h ⟨ha, hn⟩]
  case isFalse => rfl

/-- The address of an accumulator. -/
lemma eq_setWidth_iff {a : BitVec 18} {n : BitVec 4} :
    a = n.setWidth 18 ↔ a < 0o20 ∧ a.setWidth 4 = n := by
  have hn := n.isLt
  have ha := a.isLt
  rw [← BitVec.toNat_inj, ← BitVec.toNat_inj, BitVec.lt_def, BitVec.toNat_setWidth,
    BitVec.toNat_setWidth]
  change _ ↔ a.toNat < 16 ∧ _
  omega

/-- What a store to an accumulator leaves at an address. -/
lemma word_setAC (s : Cpu) (v : W36) (n : BitVec 4) (a : BitVec 18) :
    (s.setAC v n).word a = if a = n.setWidth 18 then v else s.word a := by
  split
  case isTrue h =>
    rw [eq_setWidth_iff] at h
    rw [Cpu.word, if_pos h.1, acs_setAC, if_pos h.2]
  case isFalse h =>
    rw [eq_setWidth_iff] at h
    exact word_setAC_of_ne h

/-- What a store to an address leaves in an accumulator. -/
lemma acs_setWord_eq (s : Cpu) (v : W36) (a : BitVec 18) (n : BitVec 4) :
    (s.setWord v a).acs n = if a = n.setWidth 18 then v else s.acs n := by
  rw [acs_setWord]
  split
  case isTrue h => rw [if_pos (eq_setWidth_iff.mpr ⟨h.1, h.2.symm⟩)]
  case isFalse h => rw [if_neg fun heq => h ((eq_setWidth_iff.mp heq).imp_right Eq.symm)]

/-- Stores to an accumulator and to another address do not depend on their order. -/
lemma setAC_setWord (s : Cpu) (v w : W36) {a : BitVec 18} {n : BitVec 4}
    (h : a ≠ n.setWidth 18) : (s.setAC w n).setWord v a = (s.setWord v a).setAC w n := by
  rw [Cpu.setWord, Cpu.setWord]
  split
  case isTrue hlt => exact setAC_comm s w v fun hn => h (eq_setWidth_iff.mpr ⟨hlt, hn.symm⟩)
  case isFalse => rfl

/-- A store leaves the words at other addresses alone. -/
lemma word_setWord_of_ne {s : Cpu} {v : W36} {a b : BitVec 18} (h : b ≠ a) :
    (s.setWord v a).word b = s.word b := by
  rw [Cpu.setWord]
  split
  case isTrue ha =>
    refine word_setAC_of_ne fun ⟨hb, hn⟩ => h (BitVec.eq_of_toNat_eq ?_)
    have hn := congrArg BitVec.toNat hn
    have ha : a.toNat < 16 := BitVec.lt_def.mp ha
    have hb : b.toNat < 16 := BitVec.lt_def.mp hb
    rwa [BitVec.toNat_setWidth, BitVec.toNat_setWidth, Nat.mod_eq_of_lt ha,
      Nat.mod_eq_of_lt hb] at hn
  case isFalse =>
    rw [Cpu.word, Cpu.word]
    split
    · rfl
    · exact if_neg h

/-! ### Updates of single members -/

/-- The store `running = false`. -/
def stop : Exec Unit := modify fun s => { s with running := false }

/-- A store into the flags. -/
def modifyFlags (g : ProgramFlags → ProgramFlags) : Exec Unit :=
  modify fun s => { s with flags := g s.flags }

/-- The store `ea = v`. -/
def setEa (v : W36) : Exec Unit := modify fun s => { s with ea := v }

/-- The store `fetchPC = v`. -/
def setFetchPC (v : W36) : Exec Unit := modify fun s => { s with fetchPC := v }

/-- The store `pc = v`. -/
def setPc (v : W36) : Exec Unit := modify fun s => { s with pc := v }

/-- The store `pcOffset = n`. -/
def setPcOffset (n : ℕ) : Exec Unit := modify fun s => { s with pcOffset := n }

/-- The store `inInterrupt = b`. -/
def setInInterrupt (b : Bool) : Exec Unit := modify fun s => { s with inInterrupt := b }

/-- `updateACBlock(newBlock)`. -/
def updateACBlock (newBlock : BitVec 3) : Exec Unit :=
  modify fun s => { s with AC := newBlock }

/-- A change of the devices. -/
def modifyDevices (g : Devices → Devices) : Exec Unit :=
  modify fun s => { s with toDevices := g s.toDevices }

/-- A read of a memory word past the accessors, through `memP`, `eptP` or `uptP`. -/
def peekMem (a : BitVec 18) : Exec W36 := gets fun s => s.memP a

/-- A store into a memory word past the accessors. -/
def pokeMem (v : W36) (a : BitVec 18) : Exec Unit := modify fun s => s.setMem v a

/-- The test of a breakpoint table against an address: a hit stops the machine. -/
def checkBreakpoint (table : Cpu → List ℕ) (a : ℕ) : Exec Unit := do
  let bps ← gets table
  if bps.contains a then stop else pure ()

/-! ### Accumulators and memory -/

/-- `acGetN(n)`, with its assertion. -/
def acGetN (n : ℕ) : Exec W36 :=
  if n < 16 then gets fun s => s.acs (BitVec.ofNat 4 n) else throw (.acIndex n)

/-- `acGetEA(n)`, with its assertion. -/
def acGetEA (n : ℕ) : Exec W36 :=
  if n < 16 then gets fun s => s.acs (BitVec.ofNat 4 n) else throw (.acIndex n)

/-- `acPutN(value, n)`, with its assertion. -/
def acPutN (value : W36) (n : ℕ) : Exec Unit :=
  if n < 16 then modify fun s => s.setAC value (BitVec.ofNat 4 n) else throw (.acIndex n)

/-- `memGetN(a)`. -/
def memGetN (a : W36) : Exec W36 := do
  let value ← (if a.rhu < 0o20 then acGetEA a.rhu.toNat else peekMem a.rhu)
  checkBreakpoint Cpu.addressGBPs a.vma.toNat
  return value

/-- `memPutN(value, a)`. -/
def memPutN (value : W36) (a : W36) : Exec Unit := do
  (if a.rhu < 0o20 then acPutN value a.rhu.toNat else pokeMem value a.rhu)
  checkBreakpoint Cpu.addressPBPs a.vma.toNat

/-- The accumulator `k` beyond the one that the instruction names: `acGetN(iw.ac+k)`. -/
def acGetPlus (k : ℕ) : Exec W36 := do
  let iw ← gets Cpu.iw
  acGetN (iw.ac.toNat + k)

/-- The store `acPutN(v, iw.ac+k)`. -/
def acPutPlus (v : W36) (k : ℕ) : Exec Unit := do
  let iw ← gets Cpu.iw
  acPutN v (iw.ac.toNat + k)

/-- `acGet()`. -/
def acGet : Exec W36 := acGetPlus 0

/-- `acPut(v)`. -/
def acPut (v : W36) : Exec Unit := acPutPlus v 0

/-- `acGetRH()`: the right half of the accumulator. -/
def acGetRH : Exec W36 := do
  let v ← acGet
  return W36.halves 0 v.rhu

/-- `acGetLH()`: the left half of the accumulator, in the right half of the result. -/
def acGetLH : Exec W36 := do
  let v ← acGet
  return W36.halves 0 v.lhu

/-- `acPutRH(v)`. -/
def acPutRH (v : W36) : Exec Unit := do
  let a ← acGet
  acPut (W36.halves a.lhu v.rhu)

/-- `acPutLH(v)`: the right half of `v` goes to the left half of the accumulator. -/
def acPutLH (v : W36) : Exec Unit := do
  let a ← acGet
  acPut (W36.halves v.rhu a.rhu)

/-- `acGet2()`. -/
def acGet2 : Exec W72 := do
  let hi ← acGetPlus 0
  let lo ← acGetPlus 1
  return ⟨hi, lo⟩

/-- `acPut2(v)`. -/
def acPut2 (v : W72) : Exec Unit := do
  acPutPlus v.hi 0
  acPutPlus v.lo 1

/-- `memGet()`. -/
def memGet : Exec W36 := do
  let ea ← gets Cpu.ea
  memGetN ea

/-- `memPut(v)`. -/
def memPut (v : W36) : Exec Unit := do
  let ea ← gets Cpu.ea
  memPutN v ea

/-- `memPutHi(v)`. -/
def memPutHi (v : W72) : Exec Unit := memPut v.hi

/-- `bothPut2(v)`. -/
def bothPut2 (v : W72) : Exec Unit := do
  acPutPlus v.hi 0
  acPutPlus v.lo 1
  memPut v.hi

/-- `immediate()`: the left half of the effective address counts outside section 0 only. -/
def immediate : Exec W36 := do
  let pc ← gets Cpu.pc
  let ea ← gets Cpu.ea
  return W36.halves (if pc.isSection0 then 0 else ea.lhu) ea.rhu

/-- `uptGetN(n)`: the UPT is based at address 0. -/
def uptGetN (uptWordOffset : ℕ) : Exec W36 := memGetN (W36.ofNat uptWordOffset)

/-- `uptPutN(value, n)`. -/
def uptPutN (value : W36) (uptWordOffset : ℕ) : Exec Unit :=
  memPutN value (W36.ofNat uptWordOffset)

/-- `eptAddressFor`: the virtual address of a word of the EPT, which is based at address 0. -/
def eptAddressFor (eptWordOffset : ℕ) : W36 := W36.ofNat eptWordOffset

/-- `selfPut(v)`: to memory, and to the accumulator when the AC field names one. -/
def selfPut (v : W36) : Exec Unit := do
  memPut v
  let iw ← gets Cpu.iw
  if iw.ac ≠ 0 then acPut v else pure ()

/-- `bothPut(v)`: to the accumulator, then to memory. -/
def bothPut (v : W36) : Exec Unit := do
  acPut v
  memPut v

/-! ### The effective address -/

/-- The address after the indexing step: the whole index register is added. -/
def indexed (x : BitVec 4) (y : ℕ) : Exec ℕ :=
  if x ≠ 0 then do
    let index ← acGetN x.toNat
    return y + index.toNat
  else return y

/-- The loop of `getEA`, for at most `fuel` rounds. -/
def getEALoop : ℕ → Bool → BitVec 4 → ℕ → Exec ℕ
  | 0, _, _, _ => throw .hang
  | fuel + 1, i, x, y => do
      let y ← indexed x y
      if i then do
        let eaw ← memGetN (W36.ofNat y)
        getEALoop fuel eaw.i eaw.x eaw.y.toNat
      else return y

/-- The rounds after which `getEA` has met some indirect word twice: one for the
instruction and one for every address. -/
def eaRounds : ℕ := 2 ^ 18 + 1

/-- `getEA(i, x, y)`. -/
def getEA (i : Bool) (x : BitVec 4) (y : ℕ) : Exec ℕ := getEALoop eaRounds i x y

/-! ### The flags -/

/-- `userMode()`. -/
def userMode : Exec Bool := do
  let flags ← gets Cpu.flags
  return flags.usr

/-- A store into the flags on the way to a result. -/
def flagging (g : ProgramFlags → ProgramFlags) (result : IResult) : Exec IResult := do
  modifyFlags g
  return result

/-- `setADDFlags`.  Overflow counts in user mode only. -/
def setADDFlags (a b sum : W36) : Exec IResult := do
  let trapAllowed ← userMode
  if a.sign then
    if b.sign then
      if sum.sign then flagging .carries .iNormal
      else if trapAllowed then flagging .overflow0 .iTrap
      else flagging .carry0 .iNormal
    else if !sum.sign then flagging .carries .iNormal
    else return .iNormal
  else if !b.sign then
    if sum.sign then
      if trapAllowed then flagging .overflow1 .iTrap else flagging .carry1 .iNormal
    else return .iNormal
  else if !sum.sign then flagging .carries .iNormal
  else return .iNormal

/-- `setSUBFlags`. -/
def setSUBFlags (a b diff : W36) : Exec IResult := do
  let trapAllowed ← userMode
  if !a.sign then
    if !b.sign then
      if !diff.sign then flagging .carries .iNormal else return .iNormal
    else if diff.sign then
      if trapAllowed then flagging .overflow1 .iTrap else flagging .carry1 .iNormal
    else return .iNormal
  else if !b.sign then
    if diff.sign then flagging .carries .iNormal
    else if trapAllowed then flagging .overflow0 .iTrap
    else flagging .carry0 .iNormal
  else if !diff.sign then flagging .carries .iNormal
  else return .iNormal

/-- `flagsWord(pc)`: the flags over a 23-bit PC. -/
def flagsWord (pc : ℕ) : Exec W36 := do
  let flags ← gets Cpu.flags
  return (W36.ofNat pc).setPcFlags flags.u

/-- What `restoreFlags` makes of the flags `newFlags` of a saved word: user mode cannot
clear USR or set UIO, and PUB cannot be cleared. -/
def ProgramFlags.restore (flags newFlags : ProgramFlags) : ProgramFlags :=
  let newFlags := if flags.usr then { newFlags with uio := false, usr := true } else newFlags
  if flags.pub then { newFlags with pub := true } else newFlags

/-- `restoreFlags(ea)`. -/
def restoreFlags (ea : W36) : Exec Unit :=
  modifyFlags fun flags => flags.restore (.ofU ea.pcFlags)

end KM10
