import KM10.Machine.Word
import Mathlib.Tactic.IntervalCases

/-!
The program flags (`KM10::ProgramFlags`).

The source keeps the thirteen flags in a union of named one-bit fields and the raw field
`u: 13`.  Here the named fields are the structure, `u` packs them in the order of the bit
fields, `NDV` lowest and `OV` highest, and `ofU` is the store through the raw view.

* `ofU_u`, `u_ofU`: the two views determine each other;
* `KeepsModes`: an update that leaves the mode flags `USR`, `PUB` and `UIO` alone, with the
  updates of the arithmetic handlers as its instances.
-/

namespace KM10

/-- The program flags, in the order of the bit fields. -/
structure ProgramFlags where
  ndv : Bool
  fuf : Bool
  tr1 : Bool
  tr2 : Bool
  afi : Bool
  pub : Bool
  uio : Bool
  usr : Bool
  fpd : Bool
  fov : Bool
  cy1 : Bool
  cy0 : Bool
  ov : Bool
deriving DecidableEq

namespace ProgramFlags

/-- The raw view `unsigned u: 13`. -/
def u (f : ProgramFlags) : BitVec 13 :=
  BitVec.ofBoolListLE [f.ndv, f.fuf, f.tr1, f.tr2, f.afi, f.pub, f.uio, f.usr, f.fpd, f.fov,
    f.cy1, f.cy0, f.ov]

/-- `ProgramFlags(unsigned newFlags)` and the store `flags.u = b`. -/
def ofU (b : BitVec 13) : ProgramFlags where
  ndv := b.getLsbD 0
  fuf := b.getLsbD 1
  tr1 := b.getLsbD 2
  tr2 := b.getLsbD 3
  afi := b.getLsbD 4
  pub := b.getLsbD 5
  uio := b.getLsbD 6
  usr := b.getLsbD 7
  fpd := b.getLsbD 8
  fov := b.getLsbD 9
  cy1 := b.getLsbD 10
  cy0 := b.getLsbD 11
  ov := b.getLsbD 12

/-- No flag set. -/
def none : ProgramFlags := ofU 0

/-- The bit `k` of the raw view, in the order of the fields. -/
lemma getLsbD_u (f : ProgramFlags) (k : ℕ) :
    f.u.getLsbD k = [f.ndv, f.fuf, f.tr1, f.tr2, f.afi, f.pub, f.uio, f.usr, f.fpd, f.fov,
      f.cy1, f.cy0, f.ov].getD k false :=
  BitVec.getLsbD_ofBoolListLE

/-- Storing the raw view back changes nothing. -/
@[simp] lemma ofU_u (f : ProgramFlags) : ofU f.u = f := by
  simp only [ofU, getLsbD_u]
  rfl

/-- The raw view reads back what was stored through it. -/
@[simp] lemma u_ofU (b : BitVec 13) : (ofU b).u = b := by
  refine BitVec.eq_of_getLsbD_eq fun k hk => ?_
  rw [getLsbD_u]
  interval_cases k <;> rfl

/-- Two settings with the same raw view are the same. -/
lemma u_injective : Function.Injective u := fun f g h => by
  rw [← ofU_u f, ← ofU_u g, h]

/-! ### The updates of the arithmetic handlers -/

/-- `flags.tr1 = flags.ov = 1`. -/
def overflow (f : ProgramFlags) : ProgramFlags := { f with tr1 := true, ov := true }

/-- `flags.tr1 = flags.ov = flags.cy0 = 1`. -/
def overflow0 (f : ProgramFlags) : ProgramFlags := { f with tr1 := true, ov := true, cy0 := true }

/-- `flags.tr1 = flags.ov = flags.cy1 = 1`. -/
def overflow1 (f : ProgramFlags) : ProgramFlags := { f with tr1 := true, ov := true, cy1 := true }

/-- `flags.ndv = flags.tr1 = flags.ov = 1`. -/
def noDivide (f : ProgramFlags) : ProgramFlags := { f with ndv := true, tr1 := true, ov := true }

/-- `flags.cy0 = flags.cy1 = 1`. -/
def carries (f : ProgramFlags) : ProgramFlags := { f with cy0 := true, cy1 := true }

/-- `flags.cy0 = 1`. -/
def carry0 (f : ProgramFlags) : ProgramFlags := { f with cy0 := true }

/-- `flags.cy1 = 1`. -/
def carry1 (f : ProgramFlags) : ProgramFlags := { f with cy1 := true }

/-- `flags.tr2 = 1`. -/
def trap2 (f : ProgramFlags) : ProgramFlags := { f with tr2 := true }

/-- `flags.fpd = flags.afi = flags.tr1 = flags.tr2 = 0`. -/
def clearForCall (f : ProgramFlags) : ProgramFlags :=
  { f with fpd := false, afi := false, tr1 := false, tr2 := false }

/-- `flags.u &= ~((unsigned) ac << 9)`: JFCL clears OV, CY0, CY1 and FOV as its AC field
asks. -/
def clearTested (ac : BitVec 4) (f : ProgramFlags) : ProgramFlags :=
  ofU (f.u &&& ~~~ (ac.setWidth 13 <<< 9))

/-- An update of the flags that leaves USR, PUB and UIO as they are. -/
class KeepsModes (g : ProgramFlags → ProgramFlags) : Prop where
  usr : ∀ f, (g f).usr = f.usr
  pub : ∀ f, (g f).pub = f.pub
  uio : ∀ f, (g f).uio = f.uio

instance : KeepsModes id := ⟨fun _ => rfl, fun _ => rfl, fun _ => rfl⟩
instance : KeepsModes overflow := ⟨fun _ => rfl, fun _ => rfl, fun _ => rfl⟩
instance : KeepsModes overflow0 := ⟨fun _ => rfl, fun _ => rfl, fun _ => rfl⟩
instance : KeepsModes overflow1 := ⟨fun _ => rfl, fun _ => rfl, fun _ => rfl⟩
instance : KeepsModes noDivide := ⟨fun _ => rfl, fun _ => rfl, fun _ => rfl⟩
instance : KeepsModes carries := ⟨fun _ => rfl, fun _ => rfl, fun _ => rfl⟩
instance : KeepsModes carry0 := ⟨fun _ => rfl, fun _ => rfl, fun _ => rfl⟩
instance : KeepsModes carry1 := ⟨fun _ => rfl, fun _ => rfl, fun _ => rfl⟩
instance : KeepsModes trap2 := ⟨fun _ => rfl, fun _ => rfl, fun _ => rfl⟩
instance : KeepsModes clearForCall := ⟨fun _ => rfl, fun _ => rfl, fun _ => rfl⟩

/-- The tested bits start above the mode flags. -/
instance (ac : BitVec 4) : KeepsModes (clearTested ac) := by
  constructor <;> intro f <;>
    simp [clearTested, ofU, BitVec.getLsbD_and, getLsbD_u, -BitVec.getLsbD_eq_getElem]

/-- A choice between two updates that keep the modes keeps them. -/
instance KeepsModes.ite (c : Prop) [Decidable c] (g h : ProgramFlags → ProgramFlags)
    [hg : KeepsModes g] [hh : KeepsModes h] : KeepsModes (if c then g else h) := by
  split
  · exact hg
  · exact hh

end ProgramFlags

end KM10
