import KM10.Instr.Move

/-!
The compare group (`i-cmpand.cpp`), the count group (`i-aoxsox.cpp`) and the test and set
group (`i-tstset.cpp`).

* `compareInsn`: compare the accumulator and skip on a condition;
* `doAOJWith` to `doSOSWith`: the templates of the count group, under which the 32 counting
  instructions are a condition and a result each;
* `testInsn`: test an accumulator against a mask, modify it, and skip on a condition;
* `setInsn`: store a word that needs no operand or only one.
-/

namespace KM10

open StateExcept (gets)

/-! ### Compare and skip -/

/-- A comparison of the accumulator with `src`, as signed numbers. -/
def compareInsn (src : Exec W36) (skips : ℤ → ℤ → Bool) : Handler := do
  let a ← acGet
  let b ← src
  return if skips a.ext64 b.ext64 then .iSkip else .iNormal

/-- CAI reads the accumulator and goes on. -/
def doCAI : Handler := do
  let _ ← acGet
  return .iNormal

/-- CAIA reads the accumulator and skips. -/
def doCAIA : Handler := do
  let _ ← acGet
  return .iSkip

/-- CAM reads both operands and goes on. -/
def doCAM : Handler := do
  let _ ← acGet
  let _ ← memGet
  return .iNormal

/-- CAMA reads both operands and skips. -/
def doCAMA : Handler := do
  let _ ← acGet
  let _ ← memGet
  return .iSkip

abbrev doCAIL : Handler := compareInsn immediate fun a b => a < b
abbrev doCAIE : Handler := compareInsn immediate fun a b => a = b
abbrev doCAILE : Handler := compareInsn immediate fun a b => a ≤ b
abbrev doCAIGE : Handler := compareInsn immediate fun a b => a ≥ b
abbrev doCAIN : Handler := compareInsn immediate fun a b => a ≠ b
abbrev doCAIG : Handler := compareInsn immediate fun a b => a > b
abbrev doCAML : Handler := compareInsn memGet fun a b => a < b
abbrev doCAME : Handler := compareInsn memGet fun a b => a = b
abbrev doCAMLE : Handler := compareInsn memGet fun a b => a ≤ b
abbrev doCAMGE : Handler := compareInsn memGet fun a b => a ≥ b
abbrev doCAMN : Handler := compareInsn memGet fun a b => a ≠ b
abbrev doCAMG : Handler := compareInsn memGet fun a b => a > b

/-- `InstallCmpAndGroup`. -/
def installCmpAndGroup : List (ℕ × Handler) :=
  [(0o300, doCAI), (0o301, doCAIL), (0o302, doCAIE), (0o303, doCAILE), (0o304, doCAIA),
    (0o305, doCAIGE), (0o306, doCAIN), (0o307, doCAIG), (0o310, doCAM), (0o311, doCAML),
    (0o312, doCAME), (0o313, doCAMLE), (0o314, doCAMA), (0o315, doCAMGE), (0o316, doCAMN),
    (0o317, doCAMG)]

/-! ### Count and jump or skip -/

/-- `checkAOTraps(a)`. -/
def checkAOTraps (a : W36) : Exec IResult :=
  if a = W36.ofNat (W36.bit0 - 1) then flagging .overflow1 .iTrap
  else if a.ext64 = -1 then flagging .carries .iNormal
  else return .iNormal

/-- `checkSOTraps(a)`. -/
def checkSOTraps (a : W36) : Exec IResult :=
  if a = W36.ofNat W36.bit0 then flagging .overflow1 .iTrap
  else if a ≠ 0 then flagging .carries .iNormal
  else return .iNormal

/-- What the four templates share: read a word, check it for traps, count it by `delta`, put
it back, and return `action` or the result of the check. -/
def countInsn (get : Exec W36) (check : W36 → Exec IResult) (delta : W36)
    (put : W36 → Exec Unit) (condF : ℤ → Bool) (action : IResult) : Handler := do
  let a ← get
  let result ← check a
  put (a + delta)
  return if condF (a + delta).ext64 then action else result

/-- `doAOJ(condF, actionF)`. -/
abbrev doAOJWith : (ℤ → Bool) → IResult → Handler := countInsn acGet checkAOTraps 1 acPut

/-- `doAOS(condF, actionF)`. -/
abbrev doAOSWith : (ℤ → Bool) → IResult → Handler := countInsn memGet checkAOTraps 1 selfPut

/-- `doSOJ(condF, actionF)`. -/
abbrev doSOJWith : (ℤ → Bool) → IResult → Handler := countInsn acGet checkSOTraps (-1) acPut

/-- `doSOS(condF, actionF)`. -/
abbrev doSOSWith : (ℤ → Bool) → IResult → Handler := countInsn memGet checkSOTraps (-1) selfPut

abbrev doAOJ : Handler := doAOJWith (fun _ => false) .iNormal
abbrev doAOJL : Handler := doAOJWith (fun s => s < 0) .iJump
abbrev doAOJE : Handler := doAOJWith (fun s => s = 0) .iJump
abbrev doAOJLE : Handler := doAOJWith (fun s => s ≤ 0) .iJump
abbrev doAOJA : Handler := doAOJWith (fun _ => true) .iJump
abbrev doAOJGE : Handler := doAOJWith (fun s => s ≥ 0) .iJump
abbrev doAOJN : Handler := doAOJWith (fun s => s ≠ 0) .iJump
abbrev doAOJG : Handler := doAOJWith (fun s => s > 0) .iJump
abbrev doAOS : Handler := doAOSWith (fun _ => false) .iNormal
abbrev doAOSL : Handler := doAOSWith (fun s => s < 0) .iSkip
abbrev doAOSE : Handler := doAOSWith (fun s => s = 0) .iSkip
abbrev doAOSLE : Handler := doAOSWith (fun s => s ≤ 0) .iSkip
abbrev doAOSA : Handler := doAOSWith (fun _ => true) .iSkip
abbrev doAOSGE : Handler := doAOSWith (fun s => s ≥ 0) .iSkip
abbrev doAOSN : Handler := doAOSWith (fun s => s ≠ 0) .iSkip
abbrev doAOSG : Handler := doAOSWith (fun s => s > 0) .iSkip
abbrev doSOJ : Handler := doSOJWith (fun _ => false) .iNormal
abbrev doSOJL : Handler := doSOJWith (fun s => s < 0) .iJump
abbrev doSOJE : Handler := doSOJWith (fun s => s = 0) .iJump
abbrev doSOJLE : Handler := doSOJWith (fun s => s ≤ 0) .iJump
abbrev doSOJA : Handler := doSOJWith (fun _ => true) .iJump
abbrev doSOJGE : Handler := doSOJWith (fun s => s ≥ 0) .iJump
abbrev doSOJN : Handler := doSOJWith (fun s => s ≠ 0) .iJump
abbrev doSOJG : Handler := doSOJWith (fun s => s > 0) .iJump
abbrev doSOS : Handler := doSOSWith (fun _ => false) .iNormal
abbrev doSOSL : Handler := doSOSWith (fun s => s < 0) .iSkip
abbrev doSOSE : Handler := doSOSWith (fun s => s = 0) .iSkip
abbrev doSOSLE : Handler := doSOSWith (fun s => s ≤ 0) .iSkip
abbrev doSOSA : Handler := doSOSWith (fun _ => true) .iSkip
abbrev doSOSGE : Handler := doSOSWith (fun s => s ≥ 0) .iSkip
abbrev doSOSN : Handler := doSOSWith (fun s => s ≠ 0) .iSkip
abbrev doSOSG : Handler := doSOSWith (fun s => s > 0) .iSkip

/-- `InstallAOxSOxGroup`. -/
def installAOxSOxGroup : List (ℕ × Handler) :=
  [(0o340, doAOJ), (0o341, doAOJL), (0o342, doAOJE), (0o343, doAOJLE), (0o344, doAOJA),
    (0o345, doAOJGE), (0o346, doAOJN), (0o347, doAOJG), (0o350, doAOS), (0o351, doAOSL),
    (0o352, doAOSE), (0o353, doAOSLE), (0o354, doAOSA), (0o355, doAOSGE), (0o356, doAOSN),
    (0o357, doAOSG), (0o360, doSOJ), (0o361, doSOJL), (0o362, doSOJE), (0o363, doSOJLE),
    (0o364, doSOJA), (0o365, doSOJGE), (0o366, doSOJN), (0o367, doSOJG), (0o370, doSOS),
    (0o371, doSOSL), (0o372, doSOSE), (0o373, doSOSLE), (0o374, doSOSA), (0o375, doSOSGE),
    (0o376, doSOSN), (0o377, doSOSG)]

/-! ### Test, modify and skip -/

/-- `zeroMaskR(a, b)`. -/
def zeroMaskR (a b : W36) : W36 := a &&& ~~~ (b.rhu.setWidth 36)

/-- `zeroMask(a, b)`. -/
def zeroMask (a b : W36) : W36 := a &&& ~~~ b

/-- `onesMaskR(a, b)`. -/
def onesMaskR (a b : W36) : W36 := a ||| b.rhu.setWidth 36

/-- `onesMask(a, b)`. -/
def onesMask (a b : W36) : W36 := a ||| b

/-- `compMaskR(a, b)`. -/
def compMaskR (a b : W36) : W36 := a ^^^ b.rhu.setWidth 36

/-- `compMask(a, b)`. -/
def compMask (a b : W36) : W36 := a ^^^ b

/-- `memGetSwapped()`. -/
def memGetSwapped : Exec W36 := do
  let v ← memGet
  return swap v

/-- The mask operand `ea`. -/
def eaMask : Exec W36 := gets Cpu.ea

/-- The mask operand `ea.rhu`. -/
def eaMaskR : Exec W36 := do
  let ea ← gets Cpu.ea
  return W36.halves 0 ea.rhu

/-- The condition of a test on the selected bits: never, all zero, always, some set. -/
inductive SkipWhen where
  | never
  | zero
  | always
  | nonzero
deriving DecidableEq

/-- `doSkip`. -/
def SkipWhen.holds (when : SkipWhen) (selected : W36) : Bool :=
  match when with
  | .never => false
  | .zero => selected = 0
  | .always => true
  | .nonzero => selected ≠ 0

/-- A test without a modification. -/
def testInsn (get1 get2 : Exec W36) (when : SkipWhen) : Handler := do
  let a1 ← get1
  let a2 ← get2
  return if when.holds (a1 &&& a2) then .iSkip else .iNormal

/-- A test that puts the accumulator back, changed by `mask`. -/
def testPutInsn (get1 get2 : Exec W36) (when : SkipWhen) (put : W36 → Exec Unit)
    (mask : W36 → W36 → W36) : Handler := do
  let a1 ← get1
  let a2 ← get2
  put (mask a1 a2)
  return if when.holds (a1 &&& a2) then .iSkip else .iNormal

/-- TDN and TSN read memory and go on, TDNA and TSNA read memory and skip. -/
def readInsn (result : IResult) : Handler := do
  let _ ← memGet
  return result

abbrev doTRN : Handler := pure .iNormal
abbrev doTLN : Handler := pure .iNormal
abbrev doTRNE : Handler := testInsn acGetRH eaMaskR .zero
abbrev doTLNE : Handler := testInsn acGetLH eaMaskR .zero
abbrev doTRNA : Handler := pure .iSkip
abbrev doTLNA : Handler := pure .iSkip
abbrev doTRNN : Handler := testInsn acGetRH eaMaskR .nonzero
abbrev doTLNN : Handler := testInsn acGetLH eaMaskR .nonzero
abbrev doTRZ : Handler := testPutInsn acGetRH eaMaskR .never acPutRH zeroMaskR
abbrev doTLZ : Handler := testPutInsn acGetLH eaMaskR .never acPutLH zeroMaskR
abbrev doTRZE : Handler := testPutInsn acGetRH eaMask .zero acPutRH zeroMaskR
abbrev doTLZE : Handler := testPutInsn acGetLH eaMask .zero acPutLH zeroMaskR
abbrev doTRZA : Handler := testPutInsn acGetRH eaMask .always acPutRH zeroMaskR
abbrev doTLZA : Handler := testPutInsn acGetLH eaMask .always acPutLH zeroMaskR
abbrev doTRZN : Handler := testPutInsn acGetRH eaMask .nonzero acPutRH zeroMaskR
abbrev doTLZN : Handler := testPutInsn acGetLH eaMask .nonzero acPutLH zeroMaskR
abbrev doTRC : Handler := testPutInsn acGetRH eaMask .never acPutRH compMaskR
abbrev doTLC : Handler := testPutInsn acGetLH eaMask .never acPutLH compMaskR
abbrev doTRCE : Handler := testPutInsn acGetRH eaMask .zero acPutRH compMaskR
abbrev doTLCE : Handler := testPutInsn acGetLH eaMask .zero acPutLH compMaskR
abbrev doTRCA : Handler := testPutInsn acGetRH eaMask .always acPutRH compMaskR
abbrev doTLCA : Handler := testPutInsn acGetLH eaMask .always acPutLH compMaskR
abbrev doTRCN : Handler := testPutInsn acGetRH eaMask .nonzero acPutRH compMaskR
abbrev doTLCN : Handler := testPutInsn acGetLH eaMask .nonzero acPutLH compMaskR
abbrev doTRO : Handler := testPutInsn acGetRH eaMask .never acPutRH onesMaskR
abbrev doTLO : Handler := testPutInsn acGetLH eaMask .never acPutLH onesMaskR
abbrev doTROE : Handler := testPutInsn acGetRH eaMask .zero acPutRH onesMaskR
abbrev doTLOE : Handler := testPutInsn acGetLH eaMask .zero acPutLH onesMaskR
abbrev doTROA : Handler := testPutInsn acGetRH eaMask .always acPutRH onesMaskR
abbrev doTLOA : Handler := testPutInsn acGetLH eaMask .always acPutLH onesMaskR
abbrev doTRON : Handler := testPutInsn acGetRH eaMask .nonzero acPutRH onesMaskR
abbrev doTLON : Handler := testPutInsn acGetLH eaMask .nonzero acPutLH onesMaskR
abbrev doTDN : Handler := readInsn .iNormal
abbrev doTSN : Handler := readInsn .iNormal
abbrev doTDNE : Handler := testInsn acGet memGet .zero
abbrev doTSNE : Handler := testInsn acGet memGetSwapped .zero
abbrev doTDNA : Handler := readInsn .iSkip
abbrev doTSNA : Handler := readInsn .iSkip
abbrev doTDNN : Handler := testInsn acGet memGet .nonzero
abbrev doTSNN : Handler := testInsn acGet memGetSwapped .nonzero
abbrev doTDZ : Handler := testPutInsn acGet memGet .never acPut zeroMask
abbrev doTSZ : Handler := testPutInsn acGet memGetSwapped .never acPut zeroMask
abbrev doTDZE : Handler := testPutInsn acGet memGet .zero acPut zeroMask
abbrev doTSZE : Handler := testPutInsn acGet memGetSwapped .zero acPut zeroMask
abbrev doTDZA : Handler := testPutInsn acGet memGet .always acPut zeroMask
abbrev doTSZA : Handler := testPutInsn acGet memGetSwapped .always acPut zeroMask
abbrev doTDZN : Handler := testPutInsn acGet memGet .nonzero acPut zeroMask
abbrev doTSZN : Handler := testPutInsn acGet memGetSwapped .nonzero acPut zeroMask
abbrev doTDC : Handler := testPutInsn acGet memGet .never acPut compMask
abbrev doTSC : Handler := testPutInsn acGet memGetSwapped .never acPut compMask
abbrev doTDCE : Handler := testPutInsn acGet memGet .zero acPut compMask
abbrev doTSCE : Handler := testPutInsn acGet memGetSwapped .zero acPut compMask
abbrev doTDCA : Handler := testPutInsn acGet memGet .always acPut compMask
abbrev doTSCA : Handler := testPutInsn acGet memGetSwapped .always acPut compMask
abbrev doTDCN : Handler := testPutInsn acGet memGet .nonzero acPut compMask
abbrev doTSCN : Handler := testPutInsn acGet memGetSwapped .nonzero acPut compMask
abbrev doTDO : Handler := testPutInsn acGet memGet .never acPut onesMask
abbrev doTSO : Handler := testPutInsn acGet memGetSwapped .never acPut onesMask
abbrev doTDOE : Handler := testPutInsn acGet memGet .zero acPut onesMask
abbrev doTSOE : Handler := testPutInsn acGet memGetSwapped .zero acPut onesMask
abbrev doTDOA : Handler := testPutInsn acGet memGet .always acPut onesMask
abbrev doTSOA : Handler := testPutInsn acGet memGetSwapped .always acPut onesMask
abbrev doTDON : Handler := testPutInsn acGet memGet .nonzero acPut onesMask
abbrev doTSON : Handler := testPutInsn acGet memGetSwapped .nonzero acPut onesMask

/-! ### Set -/

/-- Store a word that `src` makes. -/
def setInsn (src : Exec W36) (put : W36 → Exec Unit) : Handler := do
  let v ← src
  put v
  return .iNormal

/-- The constant `v`, after the source has read and dropped an operand. -/
def dropping (operand : Exec W36) (v : W36) : Exec W36 := do
  let _ ← operand
  return v

/-- The complement of an operand. -/
def complementOf (operand : Exec W36) : Exec W36 := do
  let a ← operand
  return ~~~ a

abbrev doSETZ : Handler := setInsn (dropping memGet 0) acPut
abbrev doSETZI : Handler := setInsn (pure 0) acPut
abbrev doSETZM : Handler := setInsn (dropping memGet 0) memPut
abbrev doSETZB : Handler := setInsn (dropping memGet 0) bothPut
abbrev doSETM : Handler := setInsn memGet acPut
abbrev doSETMI : Handler := setInsn immediate acPut
abbrev doSETMM : Handler := setInsn memGet memPut
abbrev doSETMB : Handler := setInsn memGet bothPut
abbrev doSETCM : Handler := setInsn (complementOf memGet) acPut
abbrev doSETCMI : Handler := setInsn (complementOf immediate) acPut
abbrev doSETCMM : Handler := setInsn (complementOf memGet) memPut
abbrev doSETCMB : Handler := setInsn (complementOf memGet) bothPut
abbrev doSETO : Handler := setInsn (dropping acGet W36.all1s) acPut
abbrev doSETOI : Handler := setInsn (pure W36.all1s) acPut
abbrev doSETOM : Handler := setInsn (pure W36.all1s) memPut
abbrev doSETOB : Handler := setInsn (pure W36.all1s) bothPut
abbrev doSETA : Handler := setInsn acGet acPut
abbrev doSETAI : Handler := setInsn acGet acPut
abbrev doSETAM : Handler := setInsn acGet memPut
abbrev doSETAB : Handler := setInsn acGet bothPut
abbrev doSETCA : Handler := setInsn (complementOf acGet) acPut
abbrev doSETCAI : Handler := setInsn (complementOf acGet) acPut
abbrev doSETCAM : Handler := setInsn (complementOf acGet) memPut
abbrev doSETCAB : Handler := setInsn (complementOf acGet) bothPut

/-- `InstallTstSetGroup`. -/
def installTstSetGroup : List (ℕ × Handler) :=
  [(0o400, doSETZ), (0o401, doSETZI), (0o402, doSETZM), (0o403, doSETZB), (0o414, doSETM),
    (0o415, doSETMI), (0o416, doSETMM), (0o417, doSETMB), (0o424, doSETA), (0o425, doSETAI),
    (0o426, doSETAM), (0o427, doSETAB), (0o450, doSETCA), (0o451, doSETCAI),
    (0o452, doSETCAM), (0o453, doSETCAB), (0o460, doSETCM), (0o461, doSETCMI),
    (0o462, doSETCMM), (0o463, doSETCMB), (0o474, doSETO), (0o475, doSETOI),
    (0o476, doSETOM), (0o477, doSETOB), (0o600, doTRN), (0o601, doTLN), (0o602, doTRNE),
    (0o603, doTLNE), (0o604, doTRNA), (0o605, doTLNA), (0o606, doTRNN), (0o607, doTLNN),
    (0o610, doTDN), (0o611, doTSN), (0o612, doTDNE), (0o613, doTSNE), (0o614, doTDNA),
    (0o615, doTSNA), (0o616, doTDNN), (0o617, doTSNN), (0o620, doTRZ), (0o621, doTLZ),
    (0o622, doTRZE), (0o623, doTLZE), (0o624, doTRZA), (0o625, doTLZA), (0o626, doTRZN),
    (0o627, doTLZN), (0o630, doTDZ), (0o631, doTSZ), (0o632, doTDZE), (0o633, doTSZE),
    (0o634, doTDZA), (0o635, doTSZA), (0o636, doTDZN), (0o637, doTSZN), (0o640, doTRC),
    (0o641, doTLC), (0o642, doTRCE), (0o643, doTLCE), (0o644, doTRCA), (0o645, doTLCA),
    (0o646, doTRCN), (0o647, doTLCN), (0o650, doTDC), (0o651, doTSC), (0o652, doTDCE),
    (0o653, doTSCE), (0o654, doTDCA), (0o655, doTSCA), (0o656, doTDCN), (0o657, doTSCN),
    (0o660, doTRO), (0o661, doTLO), (0o662, doTROE), (0o663, doTLOE), (0o664, doTROA),
    (0o665, doTLOA), (0o666, doTRON), (0o667, doTLON), (0o670, doTDO), (0o671, doTSO),
    (0o672, doTDOE), (0o673, doTSOE), (0o674, doTDOA), (0o675, doTSOA), (0o676, doTDON),
    (0o677, doTSON)]

end KM10
