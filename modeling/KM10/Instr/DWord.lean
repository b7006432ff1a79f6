import KM10.Machine.Cpu

/-!
The double word group (`i-dword.cpp`) and the byte group (`i-byte.cpp`, `bytepointer.cpp`).

* `doDADD` to `doDMOVEM`: the double word instructions; DMUL and DDIV use four accumulators;
* `BytePointer`: the three formats of a byte pointer with their fields, `makeFrom` to `adjust`
  the operations on them.  A byte pointer is a copy: `inc` steps the copy, and only `adjust`
  puts it back, to the accumulator.
-/

namespace KM10

open StateExcept (gets)

/-! ### Double words -/

/-- The operand pair at `ea.u+0` and `ea.u+1`. -/
def memGetPairU : Exec W72 := do
  let ea ← gets Cpu.ea
  let hi ← memGetN ea
  let lo ← memGetN (ea + 1)
  return ⟨hi, lo⟩

/-- The operand pair at `ea.vma+0` and `ea.vma+1`. -/
def memGetPairVma : Exec W72 := do
  let ea ← gets Cpu.ea
  let hi ← memGetN (W36.ofNat ea.vma.toNat)
  let lo ← memGetN (W36.ofNat (ea.vma.toNat + 1))
  return ⟨hi, lo⟩

/-- `doDADD`. -/
def doDADD : Handler := do
  let a ← acGet2
  let b ← memGetPairU
  let lo64 := a.lo35.toNat + b.lo35.toNat
  let hi64 := a.hi.toNat + b.hi.toNat + lo64 / 2 ^ 35
  let rHi := W36.ofNat hi64
  let rLo := W36.ofNat lo64
  let result ← setADDFlags a.hi b.hi rHi
  acPut2 ⟨rHi, rLo.setSign rHi.sign⟩
  return result

/-- `doDSUB`. -/
def doDSUB : Handler := do
  let a ← acGet2
  let b ← memGetPairU
  let lo64 : ℤ := a.lo35.toNat - b.lo35.toNat
  let hi64 : ℤ := a.hi.toNat - b.hi.toNat - (if lo64 < 0 then 1 else 0)
  let rHi := W36.ofInt hi64
  let rLo := W36.ofInt lo64
  let result ← setSUBFlags a.hi b.hi rHi
  acPut2 ⟨rHi, rLo.setSign rHi.sign⟩
  return result

/-- The store of four words to the accumulators. -/
def acPutQuad (q0 q1 q2 q3 : W36) : Exec Unit := do
  acPutPlus q0 0
  acPutPlus q1 1
  acPutPlus q2 2
  acPutPlus q3 3

/-- `doDMUL`. -/
def doDMUL : Handler := do
  let a ← acGet2
  let b ← memGetPairU
  let usr ← userMode
  if a.isMaxNeg ∧ b.isMaxNeg then do
    let big1 := W36.fromMag 0 true
    (if !usr then modifyFlags .overflow else pure ())
    acPutQuad big1 big1 big1 big1
    return if usr then .iTrap else .iNormal
  else if (!a.hiSign && a.hi35 == 0 && a.lo35 == 0) ∨ (!b.hiSign && b.hi35 == 0 && b.lo35 == 0)
  then do
    acPutQuad 0 0 0 0
    return .iNormal
  else do
    let prod := W144.product a b
    acPutQuad prod.u0 prod.u1 prod.u2 prod.u3
    return .iNormal

/-- The quotient and the remainder of `doDDIV`, the schoolbook division of three 64-bit
digits by a 128-bit divisor. -/
def ddivMags (den : W144) (div : BitVec 128) : BitVec 128 × BitVec 128 :=
  let lo70 := den.lowerU70
  let hi70 := den.upperU70
  let n0 : BitVec 64 := lo70.setWidth 64
  let n1 : BitVec 64 := (hi70 ||| (lo70 >>> 64)).setWidth 64
  let n2 : BitVec 64 := (hi70 >>> 6).setWidth 64
  let remainder := n2.setWidth 128 % div
  let part1 := (remainder <<< 64) ||| n1.setWidth 128
  let n1 : BitVec 64 := (part1 / div).setWidth 64
  let remainder := part1 % div
  let part0 := (remainder <<< 64) ||| n0.setWidth 128
  let n0 : BitVec 64 := (part0 / div).setWidth 64
  ((n1.setWidth 128 <<< 64) ||| n0.setWidth 128, remainder)

/-- `doDDIV`.  The sign of the dividend is read from the field `sign`, which nothing sets. -/
def doDDIV : Handler := do
  let a0 ← acGetPlus 0
  let a1 ← acGetPlus 1
  let a2 ← acGetPlus 2
  let a3 ← acGetPlus 3
  let indeterminate ← gets Cpu.indeterminate
  let den := W144.ofWords a0 a1 a2 a3 indeterminate
  let div72 ← memGetPairU
  let div := div72.toMag
  if den.ge div then flagging .noDivide .iTrap
  else do
    let quo72 := W72.fromMag (ddivMags den div).1 (den.sign ^^ div72.hiSign)
    let rem72 := W72.fromMag (ddivMags den div).2 den.sign
    acPutQuad quo72.hi quo72.lo rem72.hi rem72.lo
    return .iNormal

/-- `doDMOVE`. -/
def doDMOVE : Handler := do
  let ea ← gets Cpu.ea
  let hi ← memGetN (W36.ofNat ea.vma.toNat)
  acPutPlus hi 0
  let lo ← memGetN (W36.ofNat (ea.vma.toNat + 1))
  acPutPlus lo 1
  return .iNormal

/-- `doDMOVN`.  The words are stored exchanged and not negated. -/
def doDMOVN : Handler := do
  let v ← memGetPairVma
  let v := v.setLoSign false
  acPutPlus v.lo 0
  acPutPlus v.hi 1
  if v.toMag = W72.bit0 then flagging .overflow1 .iTrap
  else if v.toMag = 0 then flagging .carries .iNormal
  else return .iNormal

/-- `doDMOVNM`. -/
def doDMOVNM : Handler := do
  let v ← acGet2
  let v := v.setLoSign false
  let ea ← gets Cpu.ea
  memPutN v.lo (W36.ofNat ea.vma.toNat)
  memPutN v.hi (W36.ofNat (ea.vma.toNat + 1))
  if v.toMag = W72.bit0 then flagging .overflow1 .iTrap
  else if v.u = 0 then flagging .carries .iNormal
  else return .iNormal

/-- `doDMOVEM`. -/
def doDMOVEM : Handler := do
  let ea ← gets Cpu.ea
  let hi ← acGetPlus 0
  memPutN hi (W36.ofNat ea.vma.toNat)
  let lo ← acGetPlus 1
  memPutN lo (W36.ofNat (ea.vma.toNat + 1))
  return .iNormal

/-- `InstallDWordGroup`. -/
def installDWordGroup : List (ℕ × Handler) :=
  [(0o114, doDADD), (0o115, doDSUB), (0o116, doDMUL), (0o117, doDDIV), (0o120, doDMOVE),
    (0o121, doDMOVN), (0o124, doDMOVEM), (0o125, doDMOVNM)]

/-! ### Byte pointers -/

/-- A byte pointer in one of its formats: one word local, one word global, two words. -/
inductive BytePointer where
  | L1 (u : W36)
  | G1 (u : W36)
  | G2 (u : BitVec 72)
deriving DecidableEq

/-- `PSA`: position and size of a byte, and its address as an `unsigned` of 32 bits. -/
structure PSA where
  p : ℕ
  s : ℕ
  a : BitVec 32
deriving DecidableEq

/-- The byte position and size of a one word global byte pointer, by its `ps` field from 37
on. -/
def toPS : List (ℕ × ℕ) :=
  [(36, 6), (30, 6), (24, 6), (28, 6), (12, 6), (6, 6), (0, 6),
    (36, 8), (28, 8), (20, 8), (12, 8), (4, 8),
    (36, 7), (29, 7), (22, 7), (15, 7), (8, 7), (1, 7),
    (36, 9), (27, 9), (18, 9), (9, 9), (0, 9),
    (36, 18), (18, 18), (0, 18)]

namespace BytePointer

/-- The field `p` of a word. -/
def p (u : W36) : BitVec 6 := u.extractLsb' 30 6

/-- The field `s` of a word. -/
def s (u : W36) : BitVec 6 := u.extractLsb' 24 6

/-- `BytePointer::makeFrom`. -/
def makeFrom (bpa : W36) : Exec BytePointer := do
  let w1 ← memGetN bpa
  if 36 < (p w1).toNat then return .G1 w1
  else if w1.getLsbD 23 then do
    let w2 ← memGetN (bpa + 1)
    return .G2 (w1 ++ w2)
  else return .L1 w1

/-- `getPSA`.  A global pointer with `ps` beyond the table is undefined. -/
def getPSA : BytePointer → Exec PSA
  | .L1 u => do
      let a ← getEA u.i u.x u.y.toNat
      return ⟨(p u).toNat, (s u).toNat, BitVec.ofNat 32 a⟩
  | .G1 u => do
      let a ← getEA false 0 (u.extractLsb' 0 30).toNat
      match toPS[(p u).toNat - 37]? with
      | some ps => return ⟨ps.1, ps.2, BitVec.ofNat 32 a⟩
      | none => throw .undefined
  | .G2 u => do
      let a ← getEA (u.getLsbD 70) (u.extractLsb' 66 4) (u.extractLsb' 36 30).toNat
      return ⟨(p (u.setWidth 36)).toNat, (s (u.setWidth 36)).toNat, BitVec.ofNat 32 a⟩

/-- `getByte`, which returns an `unsigned` of 32 bits. -/
def getByte (bp : BytePointer) : Exec (BitVec 32) := do
  let psa ← bp.getPSA
  let w ← memGetN (psa.a.setWidth 36)
  return ((w.setWidth 64 >>> psa.p) &&& W36.rMask psa.s).setWidth 32

/-- `putByte`.  The byte is masked to `p` bits, not to `s`. -/
def putByte (bp : BytePointer) (v : W36) : Exec Unit := do
  let psa ← bp.getPSA
  let w ← memGetN (psa.a.setWidth 36)
  let kept := w.setWidth 64 &&& ~~~ W36.bMask psa.p psa.s
  let byte := (v.setWidth 64 &&& W36.rMask psa.p) <<< psa.p
  memPutN ((kept ||| byte).setWidth 36) (psa.a.setWidth 36)

/-- A one word local pointer with new fields `p` and `y`. -/
def withPY (u : W36) (p : BitVec 6) (y : BitVec 18) : W36 :=
  p ++ u.extractLsb' 18 12 ++ y

/-- `inc`: only a one word local pointer steps. -/
def inc : BytePointer → BytePointer
  | .L1 u =>
      if p u < s u then .L1 (withPY u (BitVec.ofInt 6 (36 - (s u).toNat)) (u.y + 1))
      else .L1 (withPY u (p u - s u) u.y)
  | bp => bp

/-- The bytes that fit to the left of position `p`, the current one included. -/
def bpwL (p s : ℕ) : ℕ := (p + s - 1) / s

/-- The bytes that fit to the right of position `p`. -/
def bpwR (p s : ℕ) : ℕ := (36 - p + s - 1) / s

/-- The bytes that fit in a word at the alignment of the pointer. -/
def bpw (u : W36) : ℕ := bpwL (p u).toNat (s u).toNat + bpwR (p u).toNat (s u).toNat

/-- The words by which `BytePointerL1::adjust` moves the pointer for `delta` bytes. -/
def deltaW (u : W36) (delta : ℤ) : ℤ := (delta - bpwL (p u).toNat (s u).toNat).tdiv (bpw u)

/-- The pointer that `BytePointerL1::adjust` makes for an adjustment by `delta` bytes. -/
def adjusted (u : W36) (delta : ℤ) : W36 :=
  withPY u (p u + BitVec.ofInt 6 ((s u).toNat * delta.tmod (bpw u)))
    (u.y + BitVec.ofInt 18 (deltaW u delta))

/-- The arithmetic of `BytePointerL1::adjust` leaves the range of an `int`. -/
def adjustOverflows (u : W36) (delta : ℤ) : Bool :=
  delta - bpwL (p u).toNat (s u).toNat < -2 ^ 31 ∨ 2 ^ 31 ≤ u.y.toNat + deltaW u delta

/-- `adjust`.  Its result is dropped by the caller, so that a pointer whose byte does not fit
is left alone. -/
def adjust : BytePointer → Exec Unit
  | .L1 u =>
      if s u = 0 then acPut u
      else if 36 - (p u).toNat < (s u).toNat then pure ()
      else do
        let a ← acGet
        let delta := (a.setWidth 32).toInt
        if adjustOverflows u delta then throw .undefined else acPut (adjusted u delta)
  | _ => pure ()

end BytePointer

/-! ### Byte instructions -/

/-- The byte pointer at the effective address. -/
def bytePointer : Exec BytePointer := do
  let ea ← gets Cpu.ea
  BytePointer.makeFrom ea

/-- `doIBP_ADJBP`: IBP steps a copy of the pointer, which is dropped. -/
def doIBP_ADJBP : Handler := do
  let bp ← bytePointer
  let iw ← gets Cpu.iw
  (if iw.ac = 0 then pure () else bp.adjust)
  return .iNormal

/-- The load instructions: fetch the byte of the pointer after `step`. -/
def loadByteInsn (step : BytePointer → BytePointer) : Handler := do
  let bp ← bytePointer
  let b ← (step bp).getByte
  acPut (b.setWidth 36)
  return .iNormal

/-- The deposit instructions: store to the byte of the pointer after `step`. -/
def putByteInsn (step : BytePointer → BytePointer) : Handler := do
  let bp ← bytePointer
  let v ← acGet
  (step bp).putByte v
  return .iNormal

abbrev doILDB : Handler := loadByteInsn BytePointer.inc
abbrev doLDB : Handler := loadByteInsn id
abbrev doIDPB : Handler := putByteInsn BytePointer.inc
abbrev doDPB : Handler := putByteInsn id

/-- `InstallByteGroup`. -/
def installByteGroup : List (ℕ × Handler) :=
  [(0o133, doIBP_ADJBP), (0o134, doILDB), (0o135, doLDB), (0o136, doIDPB), (0o137, doDPB)]

end KM10
