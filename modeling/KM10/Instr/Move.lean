import KM10.Machine.Cpu

/-!
The move group (`i-move.cpp`) and the half-word group (`i-half.cpp`).

Each of the 16 moves is `moveInsn` with its source, its operation and its destination, and
each of the 64 half-word moves is `halfInsn` with its copy and its treatment of the other
half.  The operations `negate` and `magnitude` set flags, so that they are computations.
-/

namespace KM10

open W36 (halves)

/-! ### Full words -/

/-- `negate(src)`. -/
def negate (src : W36) : Exec W36 := do
  (if src = W36.ofNat W36.bit0 then modifyFlags .overflow1 else pure ())
  (if src = 0 then modifyFlags .carries else pure ())
  return -src

/-- `magnitude(src)`. -/
def magnitude (src : W36) : Exec W36 := do
  (if src = W36.ofNat W36.bit0 then modifyFlags .overflow1 else pure ())
  return if src.sign then -src else src

/-- `swap(src)`. -/
def swap (src : W36) : W36 := halves src.rhu src.lhu

/-- A move: from `src` through `op` to `put`. -/
def moveInsn (src : Exec W36) (op : W36 → Exec W36) (put : W36 → Exec Unit) : Handler := do
  let v ← src
  let r ← op v
  put r
  return .iNormal

abbrev doMOVE : Handler := moveInsn memGet pure acPut
abbrev doMOVEI : Handler := moveInsn immediate pure acPut
abbrev doMOVEM : Handler := moveInsn acGet pure memPut
abbrev doMOVES : Handler := moveInsn memGet pure selfPut
abbrev doMOVS : Handler := moveInsn memGet (fun v => pure (swap v)) acPut
abbrev doMOVSI : Handler := moveInsn immediate (fun v => pure (swap v)) acPut
abbrev doMOVSM : Handler := moveInsn acGet (fun v => pure (swap v)) memPut
abbrev doMOVSS : Handler := moveInsn memGet (fun v => pure (swap v)) selfPut
abbrev doMOVN : Handler := moveInsn memGet negate acPut
abbrev doMOVNI : Handler := moveInsn immediate negate acPut
abbrev doMOVNM : Handler := moveInsn acGet negate memPut
abbrev doMOVNS : Handler := moveInsn memGet negate selfPut
abbrev doMOVM : Handler := moveInsn memGet magnitude acPut
abbrev doMOVMI : Handler := moveInsn immediate magnitude acPut
abbrev doMOVMM : Handler := moveInsn acGet magnitude memPut
abbrev doMOVMS : Handler := moveInsn memGet magnitude selfPut

/-- `InstallMoveGroup`. -/
def installMoveGroup : List (ℕ × Handler) :=
  [(0o200, doMOVE), (0o201, doMOVEI), (0o202, doMOVEM), (0o203, doMOVES),
    (0o204, doMOVS), (0o205, doMOVSI), (0o206, doMOVSM), (0o207, doMOVSS),
    (0o210, doMOVN), (0o211, doMOVNI), (0o212, doMOVNM), (0o213, doMOVNS),
    (0o214, doMOVM), (0o215, doMOVMI), (0o216, doMOVMM), (0o217, doMOVMS)]

/-! ### Half words -/

/-- `copyHRR(src, dst)`. -/
def copyHRR (src dst : W36) : W36 := halves dst.lhu src.rhu

/-- `copyHRL(src, dst)`. -/
def copyHRL (src dst : W36) : W36 := halves src.rhu dst.rhu

/-- `copyHLL(src, dst)`. -/
def copyHLL (src dst : W36) : W36 := halves src.lhu dst.rhu

/-- `copyHLR(src, dst)`. -/
def copyHLR (src dst : W36) : W36 := halves dst.lhu src.lhu

/-- `extnOf(v)`: a half of copies of the sign bit. -/
def extnOf (v : BitVec 18) : BitVec 18 := if v.getLsbD 17 then W36.halfOnes else 0

/-- `zeroR(v)`. -/
def zeroR (v : W36) : W36 := halves v.lhu 0

/-- `onesR(v)`. -/
def onesR (v : W36) : W36 := halves v.lhu W36.halfOnes

/-- `extnR(v)`. -/
def extnR (v : W36) : W36 := halves (extnOf v.rhu) v.rhu

/-- `zeroL(v)`. -/
def zeroL (v : W36) : W36 := halves 0 v.rhu

/-- `onesL(v)`. -/
def onesL (v : W36) : W36 := halves W36.halfOnes v.rhu

/-- `extnL(v)`. -/
def extnL (v : W36) : W36 := halves v.lhu (extnOf v.lhu)

/-- A half-word move: `src` is copied over a half of `dst`, `ext` treats the other half, and
`put` stores the result. -/
def halfInsn (ext : W36 → W36) (copy : W36 → W36 → W36) (src dst : Exec W36)
    (put : W36 → Exec Unit) : Handler := do
  let s ← src
  let d ← dst
  put (ext (copy s d))
  return .iNormal

abbrev doHLL : Handler := halfInsn id copyHLL memGet acGet acPut
abbrev doHLLI : Handler := halfInsn id copyHLL immediate acGet acPut
abbrev doHLLM : Handler := halfInsn id copyHLL acGet memGet memPut
abbrev doHLLS : Handler := halfInsn id copyHLL memGet memGet selfPut
abbrev doHRL : Handler := halfInsn id copyHRL memGet acGet acPut
abbrev doHRLI : Handler := halfInsn id copyHRL immediate acGet acPut
abbrev doHRLM : Handler := halfInsn id copyHRL acGet memGet memPut
abbrev doHRLS : Handler := halfInsn id copyHRL memGet memGet selfPut
abbrev doHLLZ : Handler := halfInsn zeroR copyHLL memGet acGet acPut
abbrev doHLLZI : Handler := halfInsn zeroR copyHLL immediate acGet acPut
abbrev doHLLZM : Handler := halfInsn zeroR copyHLL acGet memGet memPut
abbrev doHLLZS : Handler := halfInsn zeroR copyHLL memGet memGet selfPut
abbrev doHRLZ : Handler := halfInsn zeroR copyHRL memGet acGet acPut
abbrev doHRLZI : Handler := halfInsn zeroR copyHRL immediate acGet acPut
abbrev doHRLZM : Handler := halfInsn zeroR copyHRL acGet memGet memPut
abbrev doHRLZS : Handler := halfInsn zeroR copyHRL memGet memGet selfPut
abbrev doHLLO : Handler := halfInsn onesR copyHLL memGet acGet acPut
abbrev doHLLOI : Handler := halfInsn onesR copyHLL immediate acGet acPut
abbrev doHLLOM : Handler := halfInsn onesR copyHLL acGet memGet memPut
abbrev doHLLOS : Handler := halfInsn onesR copyHLL memGet memGet selfPut
abbrev doHRLO : Handler := halfInsn onesR copyHRL memGet acGet acPut
abbrev doHRLOI : Handler := halfInsn onesR copyHRL immediate acGet acPut
abbrev doHRLOM : Handler := halfInsn onesR copyHRL acGet memGet memPut
abbrev doHRLOS : Handler := halfInsn onesR copyHRL memGet memGet selfPut
abbrev doHLLE : Handler := halfInsn extnL copyHLL memGet acGet acPut
abbrev doHLLEI : Handler := halfInsn extnL copyHLL immediate acGet acPut
abbrev doHLLEM : Handler := halfInsn extnL copyHLL acGet memGet memPut
abbrev doHLLES : Handler := halfInsn extnL copyHLL memGet memGet selfPut
abbrev doHRLE : Handler := halfInsn extnL copyHRL memGet acGet acPut
abbrev doHRLEI : Handler := halfInsn extnL copyHRL immediate acGet acPut
abbrev doHRLEM : Handler := halfInsn extnL copyHRL acGet memGet memPut
abbrev doHRLES : Handler := halfInsn extnL copyHRL memGet memGet selfPut
abbrev doHRR : Handler := halfInsn id copyHRR memGet acGet acPut
abbrev doHRRI : Handler := halfInsn id copyHRR immediate acGet acPut
abbrev doHRRM : Handler := halfInsn id copyHRR acGet memGet memPut
abbrev doHRRS : Handler := halfInsn id copyHRR memGet memGet selfPut
abbrev doHLR : Handler := halfInsn id copyHLR memGet acGet acPut
abbrev doHLRI : Handler := halfInsn id copyHLR immediate acGet acPut
abbrev doHLRM : Handler := halfInsn id copyHLR acGet memGet memPut
abbrev doHLRS : Handler := halfInsn id copyHLR memGet memGet selfPut
abbrev doHRRZ : Handler := halfInsn zeroL copyHRR memGet acGet acPut
abbrev doHRRZI : Handler := halfInsn zeroL copyHRR immediate acGet acPut
abbrev doHRRZM : Handler := halfInsn zeroL copyHRR acGet memGet memPut
abbrev doHRRZS : Handler := halfInsn zeroL copyHRR memGet memGet selfPut
abbrev doHLRZ : Handler := halfInsn zeroL copyHLR memGet acGet acPut
abbrev doHLRZI : Handler := halfInsn zeroL copyHLR immediate acGet acPut
abbrev doHLRZM : Handler := halfInsn zeroL copyHLR acGet memGet memPut
abbrev doHLRZS : Handler := halfInsn zeroL copyHLR memGet memGet selfPut
abbrev doHRRO : Handler := halfInsn onesL copyHRR memGet acGet acPut
abbrev doHRROI : Handler := halfInsn onesL copyHRR immediate acGet acPut
abbrev doHRROM : Handler := halfInsn onesL copyHRR acGet memGet memPut
abbrev doHRROS : Handler := halfInsn onesL copyHRR memGet memGet selfPut
abbrev doHLRO : Handler := halfInsn onesL copyHLR memGet acGet acPut
abbrev doHLROI : Handler := halfInsn onesL copyHLR immediate acGet acPut
abbrev doHLROM : Handler := halfInsn onesL copyHLR acGet memGet memPut
abbrev doHLROS : Handler := halfInsn onesL copyHLR memGet memGet selfPut
abbrev doHRRE : Handler := halfInsn extnR copyHRR memGet acGet acPut
abbrev doHRREI : Handler := halfInsn extnR copyHRR immediate acGet acPut
abbrev doHRREM : Handler := halfInsn extnR copyHRR acGet memGet memPut
abbrev doHRRES : Handler := halfInsn extnR copyHRR memGet memGet selfPut
abbrev doHLRE : Handler := halfInsn extnR copyHLR memGet acGet acPut
abbrev doHLREI : Handler := halfInsn extnR copyHLR immediate acGet acPut
abbrev doHLREM : Handler := halfInsn extnR copyHLR acGet memGet memPut
abbrev doHLRES : Handler := halfInsn extnR copyHLR memGet memGet selfPut

/-- `InstallHalfGroup`. -/
def installHalfGroup : List (ℕ × Handler) :=
  [(0o500, doHLL), (0o501, doHLLI), (0o502, doHLLM), (0o503, doHLLS),
    (0o504, doHRL), (0o505, doHRLI), (0o506, doHRLM), (0o507, doHRLS),
    (0o510, doHLLZ), (0o511, doHLLZI), (0o512, doHLLZM), (0o513, doHLLZS),
    (0o514, doHRLZ), (0o515, doHRLZI), (0o516, doHRLZM), (0o517, doHRLZS),
    (0o520, doHLLO), (0o521, doHLLOI), (0o522, doHLLOM), (0o523, doHLLOS),
    (0o524, doHRLO), (0o525, doHRLOI), (0o526, doHRLOM), (0o527, doHRLOS),
    (0o530, doHLLE), (0o531, doHLLEI), (0o532, doHLLEM), (0o533, doHLLES),
    (0o534, doHRLE), (0o535, doHRLEI), (0o536, doHRLEM), (0o537, doHRLES),
    (0o540, doHRR), (0o541, doHRRI), (0o542, doHRRM), (0o543, doHRRS),
    (0o544, doHLR), (0o545, doHLRI), (0o546, doHLRM), (0o547, doHLRS),
    (0o550, doHRRZ), (0o551, doHRRZI), (0o552, doHRRZM), (0o553, doHRRZS),
    (0o554, doHLRZ), (0o555, doHLRZI), (0o556, doHLRZM), (0o557, doHLRZS),
    (0o560, doHRRO), (0o561, doHRROI), (0o562, doHRROM), (0o563, doHRROS),
    (0o564, doHLRO), (0o565, doHLROI), (0o566, doHLROM), (0o567, doHLROS),
    (0o570, doHRRE), (0o571, doHRREI), (0o572, doHRREM), (0o573, doHRRES),
    (0o574, doHLRE), (0o575, doHLREI), (0o576, doHLREM), (0o577, doHLRES)]

end KM10
