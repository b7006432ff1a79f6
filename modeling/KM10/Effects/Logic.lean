import KM10.Emulate

/-!
What every handler of the dispatch table is made of.

A `Logic` is a property of computations that sequencing preserves and that the elementary
operations of the handlers have.  Whatever holds in every logic is proved of a handler once,
by walking its text (`Holds`, whose instances are the walk), and is then instantiated at
frame conditions, at the independence of hidden registers and at the absence of faults.

* `Logic`: the property, the number `span` of accumulators that a handler may reach from its
  AC field on, and whether the operations on the devices, on `ea` and on the mode flags
  (`full`), leaving the interrupt state (`leaves`) and stopping the machine (`stops`) are among
  the elementary ones;
* `Holds L m`: the computation `m` has the property of `L`;
* the accessors, `getEA` and the flag helpers have it (the instances below).
-/

namespace KM10

open StateExcept (gets)

/-- What the debugger keeps in the machine: whether it runs, the step counter and the
breakpoint tables. -/
structure Debugging where
  running : Bool
  nSteps : ℤ
  opBPs : List ℕ
  addressGBPs : List ℕ
  addressPBPs : List ℕ
  executeBPs : List ℕ

/-- The machine with other such values. -/
def Cpu.debugged (d : Debugging) (s : Cpu) : Cpu :=
  { s with running := d.running, nSteps := d.nSteps, opBPs := d.opBPs,
           addressGBPs := d.addressGBPs, addressPBPs := d.addressPBPs,
           executeBPs := d.executeBPs }

/-- The machine with other words in the memory behind the accumulators. -/
def Cpu.shadowed (w : BitVec 18 → W36) (s : Cpu) : Cpu :=
  { s with memP := fun a => if a < 0o20 then w a else s.memP a }

/-- A reading of the machine that sees neither the fetch address nor what the debugger keeps nor
the memory behind the accumulators. -/
class Visible {α : Type} (f : Cpu → α) : Prop where
  out : ∀ s fetchPC nSteps, f { s with fetchPC := fetchPC, nSteps := nSteps } = f s
  debugged : ∀ s d, f (s.debugged d) = f s
  shadowed : ∀ s w, f (s.shadowed w) = f s

instance : Visible Cpu.iw := ⟨fun _ _ _ => rfl, fun _ _ => rfl, fun _ _ => rfl⟩
instance : Visible Cpu.ea := ⟨fun _ _ _ => rfl, fun _ _ => rfl, fun _ _ => rfl⟩
instance : Visible Cpu.pc := ⟨fun _ _ _ => rfl, fun _ _ => rfl, fun _ _ => rfl⟩
instance : Visible Cpu.flags := ⟨fun _ _ _ => rfl, fun _ _ => rfl, fun _ _ => rfl⟩
instance : Visible Cpu.toDevices := ⟨fun _ _ _ => rfl, fun _ _ => rfl, fun _ _ => rfl⟩
instance : Visible Cpu.inInterrupt := ⟨fun _ _ _ => rfl, fun _ _ => rfl, fun _ _ => rfl⟩
instance : Visible Cpu.switches := ⟨fun _ _ _ => rfl, fun _ _ => rfl, fun _ _ => rfl⟩
instance : Visible Cpu.indeterminate := ⟨fun _ _ _ => rfl, fun _ _ => rfl, fun _ _ => rfl⟩

/-- The fault is a failed assertion on an accumulator index. -/
def Fault.IsAcIndex : Fault → Prop
  | .acIndex _ => True
  | _ => False

/-- A property of computations that the handlers inherit from their elementary operations. -/
structure Logic where
  /-- The property. -/
  Φ : ∀ {α : Type}, Exec α → Prop
  /-- The accumulators that a handler may reach from its AC field on. -/
  span : ℕ
  /-- The operations beyond accumulators, memory and arithmetic flags are elementary. -/
  full : Prop
  /-- Leaving the interrupt state is elementary. -/
  leaves : Prop
  /-- Stopping the machine is elementary, other than at a breakpoint. -/
  stops : Prop
  span_pos : 0 < span
  pure : ∀ {α : Type} (a : α), Φ (Pure.pure a : Exec α)
  bind : ∀ {α β : Type} {m : Exec α} {f : α → Exec β}, Φ m → (∀ a, Φ (f a)) → Φ (m >>= f)
  gets : ∀ {α : Type} (f : Cpu → α) [Visible f], Φ (gets f)
  throw : ∀ {α : Type} {e : Fault}, ¬ e.IsAcIndex → Φ (throw e : Exec α)
  stop : stops → Φ stop
  checkGBPs : ∀ a, Φ (checkBreakpoint Cpu.addressGBPs a)
  checkPBPs : ∀ a, Φ (checkBreakpoint Cpu.addressPBPs a)
  modifyFlags : ∀ (g : ProgramFlags → ProgramFlags) [ProgramFlags.KeepsModes g], Φ (modifyFlags g)
  acGetN : ∀ {n : ℕ}, n < 16 → Φ (acGetN n)
  acGetEA : ∀ {n : ℕ}, n < 16 → Φ (acGetEA n)
  acPutN : ∀ (v : W36) {n : ℕ}, n < 16 → Φ (acPutN v n)
  acGetPlus : ∀ {k : ℕ}, k < span → Φ (acGetPlus k)
  acPutPlus : ∀ (v : W36) {k : ℕ}, k < span → Φ (acPutPlus v k)
  peekMem : ∀ {a : BitVec 18}, ¬ a < 0o20 → Φ (peekMem a)
  pokeMem : ∀ (v : W36) {a : BitVec 18}, ¬ a < 0o20 → Φ (pokeMem v a)
  putEaRH : full → ∀ r, Φ (putEaRH r)
  stepEa : full → Φ stepEa
  restoreFlags : full → ∀ v, Φ (restoreFlags v)
  enterExecInInterrupt : full → Φ enterExecInInterrupt
  clearUsrInInterrupt : full → Φ clearUsrInInterrupt
  leaveInterrupt : leaves → Φ (setInInterrupt false)
  modifyDevices : full → ∀ g, Φ (modifyDevices g)
  updateACBlock : full → ∀ b, Φ (updateACBlock b)

/-- Four accumulators are some. -/
lemma span_four_pos : 0 < 4 := by decide

/-- The computation `m` has the property of `L`. -/
class Holds (L : Logic) {α : Type} (m : Exec α) : Prop where
  out : L.Φ m

namespace Holds

variable {α β : Type} (L : Logic)

/-! ### The shape of a program -/

instance pure (a : α) : Holds L (Pure.pure a : Exec α) := ⟨L.pure a⟩

instance gets (f : Cpu → α) [Visible f] : Holds L (StateExcept.gets f : Exec α) := ⟨L.gets f⟩

instance bind (m : Exec α) (f : α → Exec β) [hm : Holds L m] [hf : ∀ a, Holds L (f a)] :
    Holds L (m >>= f) := ⟨L.bind hm.out fun a => (hf a).out⟩

instance ite (c : Prop) [Decidable c] (m n : Exec α) [hm : Holds L m] [hn : Holds L n] :
    Holds L (if c then m else n) := by
  split
  · exact hm
  · exact hn

instance hang : Holds L (throw .hang : Exec α) := ⟨L.throw id⟩

instance undefined : Holds L (throw .undefined : Exec α) := ⟨L.throw id⟩

/-! ### Elementary operations -/

instance checkGBPs (a : ℕ) : Holds L (checkBreakpoint Cpu.addressGBPs a) := ⟨L.checkGBPs a⟩

instance checkPBPs (a : ℕ) : Holds L (checkBreakpoint Cpu.addressPBPs a) := ⟨L.checkPBPs a⟩

instance modifyFlags (g : ProgramFlags → ProgramFlags) [ProgramFlags.KeepsModes g] :
    Holds L (KM10.modifyFlags g) := ⟨L.modifyFlags g⟩

/-- The words of the EPT and the UPT that are accessed directly lie behind the accumulators. -/
instance luuoAddr : Fact (¬ (0o420 : BitVec 18) < 0o20) := ⟨by decide⟩
instance opComplete : Fact (¬ (0o444 : BitVec 18) < 0o20) := ⟨by decide⟩
instance to10Arg : Fact (¬ (0o450 : BitVec 18) < 0o20) := ⟨by decide⟩
instance to11Arg : Fact (¬ (0o451 : BitVec 18) < 0o20) := ⟨by decide⟩

instance peekMem (a : BitVec 18) [h : Fact (¬ a < 0o20)] : Holds L (KM10.peekMem a) :=
  ⟨L.peekMem h.out⟩

instance pokeMem (v : W36) (a : BitVec 18) [h : Fact (¬ a < 0o20)] :
    Holds L (KM10.pokeMem v a) := ⟨L.pokeMem v h.out⟩

instance acGetN (x : BitVec 4) : Holds L (KM10.acGetN x.toNat) := ⟨L.acGetN x.isLt⟩

instance acGetPlus (k : ℕ) [h : Fact (k < L.span)] : Holds L (KM10.acGetPlus k) :=
  ⟨L.acGetPlus h.out⟩

instance acPutPlus (v : W36) (k : ℕ) [h : Fact (k < L.span)] : Holds L (KM10.acPutPlus v k) :=
  ⟨L.acPutPlus v h.out⟩

instance span_pos : Fact (0 < L.span) := ⟨L.span_pos⟩

instance span_one [h : Fact (2 ≤ L.span)] : Fact (1 < L.span) := h

instance span_two [h : Fact (4 ≤ L.span)] : Fact (2 ≤ L.span) := ⟨by have := h.out; omega⟩

instance span_two' [h : Fact (4 ≤ L.span)] : Fact (2 < L.span) := ⟨by have := h.out; omega⟩

instance span_three [h : Fact (4 ≤ L.span)] : Fact (3 < L.span) := h

section Full

variable [h : Fact L.full]

instance putEaRH (r : BitVec 18) : Holds L (KM10.putEaRH r) := ⟨L.putEaRH h.out r⟩
instance stepEa : Holds L KM10.stepEa := ⟨L.stepEa h.out⟩
instance restoreFlags (v : W36) : Holds L (KM10.restoreFlags v) := ⟨L.restoreFlags h.out v⟩
instance enterExecInInterrupt : Holds L KM10.enterExecInInterrupt :=
  ⟨L.enterExecInInterrupt h.out⟩
instance clearUsrInInterrupt : Holds L KM10.clearUsrInInterrupt :=
  ⟨L.clearUsrInInterrupt h.out⟩
instance modifyDevices (g : Devices → Devices) : Holds L (KM10.modifyDevices g) :=
  ⟨L.modifyDevices h.out g⟩
instance updateACBlock (b : BitVec 3) : Holds L (KM10.updateACBlock b) :=
  ⟨L.updateACBlock h.out b⟩

end Full

instance leaveInterrupt [h : Fact L.leaves] : Holds L (setInInterrupt false) :=
  ⟨L.leaveInterrupt h.out⟩

instance stop [h : Fact L.stops] : Holds L KM10.stop := ⟨L.stop h.out⟩

/-! ### Accessors -/

/-- The accumulator that an address below 020 names exists. -/
lemma acGetEA {a : BitVec 18} (h : a < 0o20) : Holds L (KM10.acGetEA a.toNat) :=
  ⟨L.acGetEA (BitVec.lt_def.mp h)⟩

/-- A store to an address below 020 goes to an accumulator that exists. -/
lemma acPutN (v : W36) {a : BitVec 18} (h : a < 0o20) : Holds L (KM10.acPutN v a.toNat) :=
  ⟨L.acPutN v (BitVec.lt_def.mp h)⟩

instance memGetN (a : W36) : Holds L (KM10.memGetN a) := by
  have hread : Holds L (if a.rhu < 0o20 then KM10.acGetEA a.rhu.toNat
      else KM10.peekMem a.rhu) := by
    split
    case isTrue h => exact acGetEA L h
    case isFalse h => exact ⟨L.peekMem h⟩
  rw [KM10.memGetN]
  infer_instance

instance memPutN (v a : W36) : Holds L (KM10.memPutN v a) := by
  have hwrite : Holds L (if a.rhu < 0o20 then KM10.acPutN v a.rhu.toNat
      else KM10.pokeMem v a.rhu) := by
    split
    case isTrue h => exact acPutN L v h
    case isFalse h => exact ⟨L.pokeMem v h⟩
  rw [KM10.memPutN]
  infer_instance

instance acGet : Holds L KM10.acGet := acGetPlus L 0

instance acPut (v : W36) : Holds L (KM10.acPut v) := acPutPlus L v 0

instance acGetRH : Holds L KM10.acGetRH := by rw [KM10.acGetRH]; infer_instance
instance acGetLH : Holds L KM10.acGetLH := by rw [KM10.acGetLH]; infer_instance
instance acPutRH (v : W36) : Holds L (KM10.acPutRH v) := by rw [KM10.acPutRH]; infer_instance
instance acPutLH (v : W36) : Holds L (KM10.acPutLH v) := by rw [KM10.acPutLH]; infer_instance
instance memGet : Holds L KM10.memGet := by rw [KM10.memGet]; infer_instance
instance memPut (v : W36) : Holds L (KM10.memPut v) := by rw [KM10.memPut]; infer_instance
instance memPutHi (v : W72) : Holds L (KM10.memPutHi v) := memPut L v.hi
instance immediate : Holds L KM10.immediate := by rw [KM10.immediate]; infer_instance
instance uptGetN (n : ℕ) : Holds L (KM10.uptGetN n) := memGetN L _
instance uptPutN (v : W36) (n : ℕ) : Holds L (KM10.uptPutN v n) := memPutN L v _
instance selfPut (v : W36) : Holds L (KM10.selfPut v) := by rw [KM10.selfPut]; infer_instance
instance bothPut (v : W36) : Holds L (KM10.bothPut v) := by rw [KM10.bothPut]; infer_instance

instance acGet2 [Fact (2 ≤ L.span)] : Holds L KM10.acGet2 := by
  rw [KM10.acGet2]
  infer_instance

instance acPut2 (v : W72) [Fact (2 ≤ L.span)] : Holds L (KM10.acPut2 v) := by
  rw [KM10.acPut2]
  infer_instance

instance bothPut2 (v : W72) [Fact (2 ≤ L.span)] : Holds L (KM10.bothPut2 v) := by
  rw [KM10.bothPut2]
  infer_instance

/-! ### The effective address and the flags -/

instance indexed (x : BitVec 4) (y : ℕ) : Holds L (KM10.indexed x y) := by
  rw [KM10.indexed]
  infer_instance

/-- By induction on the rounds of the loop. -/
instance getEALoop (fuel : ℕ) (i : Bool) (x : BitVec 4) (y : ℕ) :
    Holds L (KM10.getEALoop fuel i x y) := by
  induction fuel generalizing i x y with
  | zero => exact hang L
  | succ fuel ih =>
      rw [KM10.getEALoop]
      infer_instance

instance getEA (i : Bool) (x : BitVec 4) (y : ℕ) : Holds L (KM10.getEA i x y) :=
  getEALoop L eaRounds i x y

instance userMode : Holds L KM10.userMode := by rw [KM10.userMode]; infer_instance

instance flagging (g : ProgramFlags → ProgramFlags) [ProgramFlags.KeepsModes g]
    (result : IResult) : Holds L (KM10.flagging g result) := by
  rw [KM10.flagging]
  infer_instance

instance setADDFlags (a b sum : W36) : Holds L (KM10.setADDFlags a b sum) := by
  rw [KM10.setADDFlags]
  infer_instance

instance setSUBFlags (a b diff : W36) : Holds L (KM10.setSUBFlags a b diff) := by
  rw [KM10.setSUBFlags]
  infer_instance

instance flagsWord (pc : ℕ) : Holds L (KM10.flagsWord pc) := by
  rw [KM10.flagsWord]
  infer_instance

end Holds

end KM10
