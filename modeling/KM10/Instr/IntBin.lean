import KM10.Machine.Cpu

/-!
The integer and boolean group (`i-intbin.cpp`).

* `addWord` to `divWord`: the arithmetic on one and two words, with the flags it sets;
* `binInsn`: the binary instructions, as an operation with two operands and a store;
* `doASH` to `doLSHC`: the shifts, `doJFFO`, `doEXCH` and the block transfer `doBLT`.
-/

namespace KM10

open StateExcept (gets)

/-! ### Arithmetic -/

/-- `addWord(s1, s2)`.  The second test compares the sum as an unsigned number, so that
every negative sum passes it. -/
def addWord (s1 s2 : W36) : Exec W36 := do
  let sum := s1.ext64 + s2.ext64
  (if sum < -2 ^ 35 then modifyFlags .overflow0
  else if sum < 0 ∨ 2 ^ 35 ≤ sum then modifyFlags .overflow1
  else if s1.ext64 < 0 ∧ s2.ext64 < 0 then modifyFlags .carries
  else if (s1.ext64 < 0) ≠ (s2.ext64 < 0) ∧
      ((0 ≤ s1.ext64 ∧ s2.ext64.natAbs ≤ s1.ext64.natAbs) ∨
        (0 ≤ s2.ext64 ∧ s1.ext64.natAbs ≤ s2.ext64.natAbs)) then modifyFlags .carries
  else pure ())
  return W36.ofInt sum

/-- `subWord(s1, s2)`, with the same unsigned test. -/
def subWord (s1 s2 : W36) : Exec W36 := do
  let diff := s1.ext64 - s2.ext64
  (if diff < -2 ^ 35 then modifyFlags .overflow0
  else if diff < 0 ∨ 2 ^ 35 ≤ diff then modifyFlags .overflow1
  else pure ())
  return W36.ofInt diff

/-- The double word that `mulWord` and `imulWord` make of a product. -/
def productWord (s1 s2 : W36) : W72 :=
  let prod128 := s1.ext64 * s2.ext64
  W72.fromMag (BitVec.ofNat 128 prod128.natAbs) (prod128 < 0)

/-- Both factors are the most negative number. -/
def bothMaxNeg (s1 s2 : W36) : Bool := s1 = W36.ofNat W36.bit0 ∧ s2 = W36.ofNat W36.bit0

/-- `mulWord(s1, s2)`. -/
def mulWord (s1 s2 : W36) : Exec W72 :=
  if bothMaxNeg s1 s2 then do
    modifyFlags .overflow
    return ⟨W36.ofNat (2 ^ 34), 0⟩
  else return productWord s1 s2

/-- `imulWord(s1, s2)`. -/
def imulWord (s1 s2 : W36) : Exec W36 := do
  let prod := productWord s1 s2
  (if bothMaxNeg s1 s2 then modifyFlags .overflow else pure ())
  return BitVec.ofBool prod.hiSign ++ prod.lo35

/-- The operands for which `idivWord` signals no-divide. -/
def idivFails (s1 s2 : W36) : Bool :=
  (s1 = W36.ofNat W36.bit0 ∧ s2.ext64 = -1) ∨ s2 = 0

/-- `idivWord(s1, s2)`.  On no-divide it returns the two operands; otherwise the low word is
the absolute value of the remainder, whichever sign it was given before. -/
def idivWord (s1 s2 : W36) : Exec W72 :=
  if idivFails s1 s2 then do
    modifyFlags .noDivide
    return ⟨s1, s2⟩
  else
    let quo := s1.ext64.tdiv s2.ext64
    let rem := (s1.ext64.tmod s2.ext64).natAbs
    return ⟨W36.ofInt quo, W36.ofNat rem⟩

/-- The operands for which `divWord` signals no-divide. -/
def divFails (s1 : W72) (s2 : W36) : Bool := s2.mag ≤ s1.hi35 ∨ s2 = 0

/-- `divWord(s1, s2)`.  On no-divide it returns the dividend. -/
def divWord (s1 : W72) (s2 : W36) : Exec W72 :=
  if divFails s1 s2 then do
    modifyFlags .noDivide
    return s1
  else
    let den70 := s1.hi35.toNat * 2 ^ 35 + s1.lo35.toNat
    let dor := s2.mag.toNat
    return W72.ofMags (BitVec.ofNat 64 (den70 / dor)) (BitVec.ofNat 64 (den70 % dor)) s1.hiSign

/-- A binary instruction: two operands, an operation and a store. -/
def binInsn {α β : Type} (get1 : Exec α) (get2 : Exec W36) (op : α → W36 → Exec β)
    (put : β → Exec Unit) : Handler := do
  let a1 ← get1
  let a2 ← get2
  let r ← op a1 a2
  put r
  return .iNormal

abbrev doIMUL : Handler := binInsn acGet memGet imulWord acPut
abbrev doIMULI : Handler := binInsn acGet immediate imulWord acPut
abbrev doIMULM : Handler := binInsn acGet memGet imulWord memPut
abbrev doIMULB : Handler := binInsn acGet memGet imulWord bothPut
abbrev doMUL : Handler := binInsn acGet memGet mulWord acPut2
abbrev doMULI : Handler := binInsn acGet immediate mulWord acPut2
abbrev doMULM : Handler := binInsn acGet memGet mulWord memPutHi
abbrev doMULB : Handler := binInsn acGet memGet mulWord bothPut2
abbrev doIDIV : Handler := binInsn acGet memGet idivWord acPut2
abbrev doIDIVI : Handler := binInsn acGet immediate idivWord acPut2
abbrev doIDIVM : Handler := binInsn acGet memGet idivWord memPutHi
abbrev doIDIVB : Handler := binInsn acGet memGet idivWord bothPut2
abbrev doDIV : Handler := binInsn acGet2 memGet divWord acPut2
abbrev doDIVI : Handler := binInsn acGet2 immediate divWord acPut2
abbrev doDIVM : Handler := binInsn acGet2 memGet divWord memPutHi
abbrev doDIVB : Handler := binInsn acGet2 memGet divWord bothPut2
abbrev doADD : Handler := binInsn acGet memGet addWord acPut
abbrev doADDI : Handler := binInsn acGet immediate addWord acPut
abbrev doADDM : Handler := binInsn acGet memGet addWord memPut
abbrev doADDB : Handler := binInsn acGet memGet addWord bothPut
abbrev doSUB : Handler := binInsn acGet memGet subWord acPut
abbrev doSUBI : Handler := binInsn acGet immediate subWord acPut
abbrev doSUBM : Handler := binInsn acGet memGet subWord memPut
abbrev doSUBB : Handler := binInsn acGet memGet subWord bothPut

/-! ### Boolean instructions -/

/-- A boolean instruction: `a1` from `src`, `a2` from the accumulator. -/
abbrev logicInsn (src : Exec W36) (f : W36 → W36 → W36) (put : W36 → Exec Unit) : Handler :=
  binInsn src acGet (fun a1 a2 => pure (f a1 a2)) put

abbrev doXOR : Handler := logicInsn memGet (fun a1 a2 => a1 ^^^ a2) acPut
abbrev doXORI : Handler := logicInsn immediate (fun a1 a2 => a1 ^^^ a2) acPut
abbrev doXORM : Handler := logicInsn memGet (fun a1 a2 => a1 ^^^ a2) memPut
abbrev doXORB : Handler := logicInsn memGet (fun a1 a2 => a1 ^^^ a2) bothPut
abbrev doIOR : Handler := logicInsn memGet (fun a1 a2 => a1 ||| a2) acPut
abbrev doIORI : Handler := logicInsn immediate (fun a1 a2 => a1 ||| a2) acPut
abbrev doIORM : Handler := logicInsn memGet (fun a1 a2 => a1 ||| a2) memPut
abbrev doIORB : Handler := logicInsn memGet (fun a1 a2 => a1 ||| a2) bothPut
abbrev doAND : Handler := logicInsn memGet (fun a1 a2 => a1 &&& a2) acPut
abbrev doANDI : Handler := logicInsn immediate (fun a1 a2 => a1 &&& a2) acPut
abbrev doANDM : Handler := logicInsn memGet (fun a1 a2 => a1 &&& a2) memPut
abbrev doANDB : Handler := logicInsn memGet (fun a1 a2 => a1 &&& a2) bothPut
abbrev doANDCA : Handler := logicInsn memGet (fun a1 a2 => a1 &&& ~~~ a2) acPut
abbrev doANDCAI : Handler := logicInsn immediate (fun a1 a2 => a1 &&& ~~~ a2) acPut
abbrev doANDCAM : Handler := logicInsn memGet (fun a1 a2 => a1 &&& ~~~ a2) memPut
abbrev doANDCAB : Handler := logicInsn memGet (fun a1 a2 => a1 &&& ~~~ a2) bothPut
abbrev doANDCM : Handler := logicInsn memGet (fun a1 a2 => ~~~ a1 &&& a2) acPut
abbrev doANDCMI : Handler := logicInsn immediate (fun a1 a2 => ~~~ a1 &&& a2) acPut
abbrev doANDCMM : Handler := logicInsn memGet (fun a1 a2 => ~~~ a1 &&& a2) memPut
abbrev doANDCMB : Handler := logicInsn memGet (fun a1 a2 => ~~~ a1 &&& a2) bothPut
abbrev doANDCB : Handler := logicInsn memGet (fun a1 a2 => ~~~ a1 &&& ~~~ a2) acPut
abbrev doANDCBI : Handler := logicInsn immediate (fun a1 a2 => ~~~ a1 &&& ~~~ a2) acPut
abbrev doANDCBM : Handler := logicInsn memGet (fun a1 a2 => ~~~ a1 &&& ~~~ a2) memPut
abbrev doANDCBB : Handler := logicInsn memGet (fun a1 a2 => ~~~ a1 &&& ~~~ a2) bothPut
abbrev doORCA : Handler := logicInsn memGet (fun a1 a2 => a1 ||| ~~~ a2) acPut
abbrev doORCAI : Handler := logicInsn immediate (fun a1 a2 => a1 ||| ~~~ a2) acPut
abbrev doORCAM : Handler := logicInsn memGet (fun a1 a2 => a1 ||| ~~~ a2) memPut
abbrev doORCAB : Handler := logicInsn memGet (fun a1 a2 => a1 ||| ~~~ a2) bothPut
abbrev doORCM : Handler := logicInsn memGet (fun a1 a2 => ~~~ a1 ||| a2) acPut
abbrev doORCMI : Handler := logicInsn immediate (fun a1 a2 => ~~~ a1 ||| a2) acPut
abbrev doORCMM : Handler := logicInsn memGet (fun a1 a2 => ~~~ a1 ||| a2) memPut
abbrev doORCMB : Handler := logicInsn memGet (fun a1 a2 => ~~~ a1 ||| a2) bothPut
abbrev doORCB : Handler := logicInsn memGet (fun a1 a2 => ~~~ a1 ||| ~~~ a2) acPut
abbrev doORCBI : Handler := logicInsn immediate (fun a1 a2 => ~~~ a1 ||| ~~~ a2) acPut
abbrev doORCBM : Handler := logicInsn memGet (fun a1 a2 => ~~~ a1 ||| ~~~ a2) memPut
abbrev doORCBB : Handler := logicInsn memGet (fun a1 a2 => ~~~ a1 ||| ~~~ a2) bothPut
abbrev doEQV : Handler := logicInsn memGet (fun a1 a2 => ~~~ (a1 ^^^ a2)) acPut
abbrev doEQVI : Handler := logicInsn immediate (fun a1 a2 => ~~~ (a1 ^^^ a2)) acPut
abbrev doEQVM : Handler := logicInsn memGet (fun a1 a2 => ~~~ (a1 ^^^ a2)) memPut
abbrev doEQVB : Handler := logicInsn memGet (fun a1 a2 => ~~~ (a1 ^^^ a2)) bothPut

/-! ### Shifts -/

/-- The shift count `ea.rhs % n`, rounded towards zero. -/
def shiftCount (n : ℤ) : Exec ℤ := do
  let ea ← gets Cpu.ea
  return ea.rhs.tmod n

/-- The word and the lost bits of `doASH`. -/
def ashWord (a : W36) (n : ℤ) : W36 × W36 :=
  if 0 < n then (a.sshiftRight n.natAbs, a &&& W36.ofNat (2 ^ n.natAbs - 1))
  else if n < 0 then (a <<< n.natAbs, a &&& (W36.all1s >>> n.natAbs))
  else (a, 0)

/-- `doASH`. -/
def doASH : Handler := do
  let n ← shiftCount 36
  let aSigned ← acGet
  let a := (ashWord aSigned n).1
  let lostBits := (ashWord aSigned n).2
  (if (0 < a.ext64 ∧ lostBits ≠ 0) ∨ (a.ext64 < 0 ∧ lostBits = 0) then modifyFlags .overflow
  else pure ())
  acPut (a.setSign aSigned.sign)
  return .iNormal

/-- `doASHC`. -/
def doASHC : Handler := do
  let a0 ← acGetPlus 0
  let a1 ← acGetPlus 1
  let n ← shiftCount 72
  let isNeg := a0.sign
  let w70 : BitVec 128 := (a0.signExtend 128 <<< 35) ||| a1.mag.setWidth 128
  let lostMask : BitVec 128 := (1 <<< n.natAbs) - 1
  (if n < 0 ∧ w70 &&& lostMask ≠ (if isNeg then lostMask else 0) then modifyFlags .overflow
  else pure ())
  let w70 :=
    if 0 < n then w70 <<< n.natAbs
    else if n < 0 then w70.sshiftRight n.natAbs
    else w70
  let a := W72.ofMags ((w70.sshiftRight 35).setWidth 64) ((w70.setWidth 35).setWidth 64) isNeg
  (if n ≠ 0 then acPut2 a else pure ())
  return .iNormal

/-- `doROT`. -/
def doROT : Handler := do
  let n ← shiftCount 36
  let a ← acGet
  acPut (
    if 0 < n then (a <<< n.natAbs) ||| (a >>> (36 - n.natAbs))
    else if n < 0 then (a >>> n.natAbs) ||| (a <<< (36 - n.natAbs))
    else a)
  return .iNormal

/-- `doLSH`. -/
def doLSH : Handler := do
  let n ← shiftCount 36
  let a ← acGet
  acPut (if 0 < n then a <<< n.natAbs else if n < 0 then a >>> n.natAbs else a)
  return .iNormal

/-- The `while` loop of `doJFFO` on a non-zero word, which has at most 35 rounds. -/
def jffoCount : ℕ → W36 → ℕ → ℕ
  | 0, _, count => count
  | rounds + 1, tmp, count =>
      if 0 < tmp.ext64 then jffoCount rounds (tmp <<< 1) (count + 1) else count

/-- `doJFFO`. -/
def doJFFO : Handler := do
  let tmp ← acGet
  let tmp := if tmp ≠ 0 then W36.ofNat (jffoCount 36 tmp 0) else tmp
  acPutPlus tmp 1
  return if tmp ≠ 0 then .iJump else .iNormal

/-- `doROTC`. -/
def doROTC : Handler := do
  let n ← shiftCount 72
  let a0 ← acGetPlus 0
  let a1 ← acGetPlus 1
  let a : BitVec 128 := (a0 ++ a1).setWidth 128
  let a :=
    if 0 < n then (a <<< n.natAbs) ||| (a >>> (72 - n.natAbs))
    else if n < 0 then (a >>> n.natAbs) ||| (a <<< (72 - n.natAbs))
    else a
  acPut2 (.ofBits (a.setWidth 72))
  return .iNormal

/-- The shifted double word of `doLSHC`.  A count of 128 or more, and the negated count of a
right shift unless it is zero, are undefined. -/
def lshcWord (a : BitVec 72) (rhs : ℤ) (count : ℕ) : Exec (BitVec 72) :=
  if 0 < rhs then (if count < 128 then return a <<< count else throw .undefined)
  else if rhs < 0 then (if count = 0 then return a else throw .undefined)
  else return a

/-- `doLSHC`. -/
def doLSHC : Handler := do
  let a0 ← acGet
  let a1 ← acGetPlus 1
  let ea ← gets Cpu.ea
  let a ← lshcWord (a0 ++ a1) ea.rhs (ea.rhu &&& 0o377).toNat
  acPut2 (.ofBits a)
  return .iNormal

/-! ### Exchange and block transfer -/

/-- `doEXCH`. -/
def doEXCH : Handler := do
  let a ← acGet
  let v ← memGet
  acPut v
  memPut a
  return .iNormal

/-- The loop of `doBLT`, for at most `fuel` rounds: both halves of the pointer `a` step up
until the right one has passed the effective address. -/
def bltLoop (ea : W36) : ℕ → W36 → Exec Unit
  | 0, _ => throw .hang
  | fuel + 1, a => do
      let v ← memGetN (W36.halves ea.lhu a.lhu)
      memPutN v (W36.halves ea.lhu a.rhu)
      let a := W36.halves (a.lhu + 1) (a.rhu + 1)
      acPut a
      if a.rhu ≤ ea.rhu then bltLoop ea fuel a else pure ()

/-- The rounds after which the right half of the pointer has taken every value. -/
def bltRounds : ℕ := 2 ^ 18

/-- `doBLT`. -/
def doBLT : Handler := do
  let a ← acGet
  let ea ← gets Cpu.ea
  bltLoop ea bltRounds a
  return .iNormal

/-- `InstallIntBinGroup`. -/
def installIntBinGroup : List (ℕ × Handler) :=
  [(0o220, doIMUL), (0o221, doIMULI), (0o222, doIMULM), (0o223, doIMULB), (0o224, doMUL),
    (0o225, doMULI), (0o226, doMULM), (0o227, doMULB), (0o230, doIDIV), (0o231, doIDIVI),
    (0o232, doIDIVM), (0o233, doIDIVB), (0o234, doDIV), (0o235, doDIVI), (0o236, doDIVM),
    (0o237, doDIVB), (0o240, doASH), (0o241, doROT), (0o242, doLSH), (0o243, doJFFO),
    (0o244, doASHC), (0o245, doROTC), (0o246, doLSHC), (0o250, doEXCH), (0o251, doBLT),
    (0o270, doADD), (0o271, doADDI), (0o272, doADDM), (0o273, doADDB), (0o274, doSUB),
    (0o275, doSUBI), (0o276, doSUBM), (0o277, doSUBB), (0o404, doAND), (0o405, doANDI),
    (0o406, doANDM), (0o407, doANDB), (0o410, doANDCA), (0o411, doANDCAI), (0o412, doANDCAM),
    (0o413, doANDCAB), (0o420, doANDCM), (0o421, doANDCMI), (0o422, doANDCMM),
    (0o423, doANDCMB), (0o430, doXOR), (0o431, doXORI), (0o432, doXORM), (0o433, doXORB),
    (0o434, doIOR), (0o435, doIORI), (0o436, doIORM), (0o437, doIORB), (0o440, doANDCB),
    (0o441, doANDCBI), (0o442, doANDCBM), (0o443, doANDCBB), (0o444, doEQV), (0o445, doEQVI),
    (0o446, doEQVM), (0o447, doEQVB), (0o454, doORCA), (0o455, doORCAI), (0o456, doORCAM),
    (0o457, doORCAB), (0o464, doORCM), (0o465, doORCMI), (0o466, doORCMM), (0o467, doORCMB),
    (0o470, doORCB), (0o471, doORCBI), (0o472, doORCBM), (0o473, doORCBB)]

end KM10
