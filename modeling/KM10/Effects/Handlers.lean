import KM10.Effects.Logic

/-!
The handlers of every group have the property of every logic.

* the instances: one for each family of handlers, and one for each handler that is not a
  member of a family;
* `acSpan`: the accumulators that the handler of an opcode reaches from its AC field on;
* `isUUO`: the opcodes whose handlers replace the fetch address or the PC themselves;
* `ops_holds`: the handler of every other opcode has the property of every logic with
  enough accumulators.
-/

namespace KM10

open StateExcept (gets)

namespace Holds

variable {α β : Type} (L : Logic)

/-! ### Moves, half words, tests and counts -/

instance negate (src : W36) : Holds L (KM10.negate src) := by rw [KM10.negate]; infer_instance

instance magnitude (src : W36) : Holds L (KM10.magnitude src) := by
  rw [KM10.magnitude]
  infer_instance

instance moveInsn (src : Exec W36) (op : W36 → Exec W36) (put : W36 → Exec Unit)
    [Holds L src] [∀ v, Holds L (op v)] [∀ v, Holds L (put v)] :
    Holds L (KM10.moveInsn src op put) := by
  rw [KM10.moveInsn]
  infer_instance

instance halfInsn (ext : W36 → W36) (copy : W36 → W36 → W36) (src dst : Exec W36)
    (put : W36 → Exec Unit) [Holds L src] [Holds L dst] [∀ v, Holds L (put v)] :
    Holds L (KM10.halfInsn ext copy src dst put) := by
  rw [KM10.halfInsn]
  infer_instance

instance compareInsn (src : Exec W36) (skips : ℤ → ℤ → Bool) [Holds L src] :
    Holds L (KM10.compareInsn src skips) := by
  rw [KM10.compareInsn]
  infer_instance

instance doCAI : Holds L KM10.doCAI := by rw [KM10.doCAI]; infer_instance
instance doCAIA : Holds L KM10.doCAIA := by rw [KM10.doCAIA]; infer_instance
instance doCAM : Holds L KM10.doCAM := by rw [KM10.doCAM]; infer_instance
instance doCAMA : Holds L KM10.doCAMA := by rw [KM10.doCAMA]; infer_instance

instance checkAOTraps (a : W36) : Holds L (KM10.checkAOTraps a) := by
  rw [KM10.checkAOTraps]
  infer_instance

instance checkSOTraps (a : W36) : Holds L (KM10.checkSOTraps a) := by
  rw [KM10.checkSOTraps]
  infer_instance

instance countInsn (get : Exec W36) (check : W36 → Exec IResult) (delta : W36)
    (put : W36 → Exec Unit) (condF : ℤ → Bool) (action : IResult)
    [Holds L get] [∀ a, Holds L (check a)] [∀ a, Holds L (put a)] :
    Holds L (KM10.countInsn get check delta put condF action) := by
  rw [KM10.countInsn]
  infer_instance

instance memGetSwapped : Holds L KM10.memGetSwapped := by
  rw [KM10.memGetSwapped]
  infer_instance

instance eaMask : Holds L KM10.eaMask := by rw [KM10.eaMask]; infer_instance
instance eaMaskR : Holds L KM10.eaMaskR := by rw [KM10.eaMaskR]; infer_instance

instance testInsn (get1 get2 : Exec W36) (when : SkipWhen) [Holds L get1] [Holds L get2] :
    Holds L (KM10.testInsn get1 get2 when) := by
  rw [KM10.testInsn]
  infer_instance

instance testPutInsn (get1 get2 : Exec W36) (when : SkipWhen) (put : W36 → Exec Unit)
    (mask : W36 → W36 → W36) [Holds L get1] [Holds L get2] [∀ v, Holds L (put v)] :
    Holds L (KM10.testPutInsn get1 get2 when put mask) := by
  rw [KM10.testPutInsn]
  infer_instance

instance readInsn (result : IResult) : Holds L (KM10.readInsn result) := by
  rw [KM10.readInsn]
  infer_instance

instance dropping (operand : Exec W36) (v : W36) [Holds L operand] :
    Holds L (KM10.dropping operand v) := by
  rw [KM10.dropping]
  infer_instance

instance complementOf (operand : Exec W36) [Holds L operand] :
    Holds L (KM10.complementOf operand) := by
  rw [KM10.complementOf]
  infer_instance

instance setInsn (src : Exec W36) (put : W36 → Exec Unit) [Holds L src]
    [∀ v, Holds L (put v)] : Holds L (KM10.setInsn src put) := by
  rw [KM10.setInsn]
  infer_instance

/-! ### Integer arithmetic -/

instance addWord (s1 s2 : W36) : Holds L (KM10.addWord s1 s2) := by
  rw [KM10.addWord]
  infer_instance

instance subWord (s1 s2 : W36) : Holds L (KM10.subWord s1 s2) := by
  rw [KM10.subWord]
  infer_instance

instance mulWord (s1 s2 : W36) : Holds L (KM10.mulWord s1 s2) := by
  rw [KM10.mulWord]
  infer_instance

instance imulWord (s1 s2 : W36) : Holds L (KM10.imulWord s1 s2) := by
  rw [KM10.imulWord]
  infer_instance

instance idivWord (s1 s2 : W36) : Holds L (KM10.idivWord s1 s2) := by
  rw [KM10.idivWord]
  infer_instance

instance divWord (s1 : W72) (s2 : W36) : Holds L (KM10.divWord s1 s2) := by
  rw [KM10.divWord]
  infer_instance

instance binInsn (get1 : Exec α) (get2 : Exec W36) (op : α → W36 → Exec β) (put : β → Exec Unit)
    [Holds L get1] [Holds L get2] [∀ a b, Holds L (op a b)] [∀ v, Holds L (put v)] :
    Holds L (KM10.binInsn get1 get2 op put) := by
  rw [KM10.binInsn]
  infer_instance

instance shiftCount (n : ℤ) : Holds L (KM10.shiftCount n) := by
  rw [KM10.shiftCount]
  infer_instance

instance doASH : Holds L KM10.doASH := by rw [KM10.doASH]; infer_instance
instance doROT : Holds L KM10.doROT := by rw [KM10.doROT]; infer_instance
instance doLSH : Holds L KM10.doLSH := by rw [KM10.doLSH]; infer_instance

instance lshcWord (a : BitVec 72) (rhs : ℤ) (count : ℕ) :
    Holds L (KM10.lshcWord a rhs count) := by
  rw [KM10.lshcWord]
  infer_instance

section Pairs

variable [Fact (2 ≤ L.span)]

instance doASHC : Holds L KM10.doASHC := by rw [KM10.doASHC]; infer_instance
instance doJFFO : Holds L KM10.doJFFO := by rw [KM10.doJFFO]; infer_instance
instance doROTC : Holds L KM10.doROTC := by rw [KM10.doROTC]; infer_instance
instance doLSHC : Holds L KM10.doLSHC := by rw [KM10.doLSHC]; infer_instance

end Pairs

instance doEXCH : Holds L KM10.doEXCH := by rw [KM10.doEXCH]; infer_instance

/-- By induction on the rounds of the loop. -/
instance bltLoop (ea : W36) (fuel : ℕ) (a : W36) : Holds L (KM10.bltLoop ea fuel a) := by
  induction fuel generalizing a with
  | zero => exact hang L
  | succ fuel ih =>
      rw [KM10.bltLoop]
      infer_instance

instance doBLT : Holds L KM10.doBLT := by rw [KM10.doBLT]; infer_instance

/-! ### Double words and bytes -/

instance memGetPairU : Holds L KM10.memGetPairU := by
  rw [KM10.memGetPairU]
  infer_instance

instance memGetPairVma : Holds L KM10.memGetPairVma := by
  rw [KM10.memGetPairVma]
  infer_instance

section Pairs

variable [Fact (2 ≤ L.span)]

instance doDADD : Holds L KM10.doDADD := by rw [KM10.doDADD]; infer_instance
instance doDSUB : Holds L KM10.doDSUB := by rw [KM10.doDSUB]; infer_instance
instance doDMOVE : Holds L KM10.doDMOVE := by rw [KM10.doDMOVE]; infer_instance
instance doDMOVN : Holds L KM10.doDMOVN := by rw [KM10.doDMOVN]; infer_instance
instance doDMOVNM : Holds L KM10.doDMOVNM := by rw [KM10.doDMOVNM]; infer_instance
instance doDMOVEM : Holds L KM10.doDMOVEM := by rw [KM10.doDMOVEM]; infer_instance

end Pairs

section Quads

variable [Fact (4 ≤ L.span)]

instance acPutQuad (q0 q1 q2 q3 : W36) : Holds L (KM10.acPutQuad q0 q1 q2 q3) := by
  rw [KM10.acPutQuad]
  infer_instance

instance doDMUL : Holds L KM10.doDMUL := by rw [KM10.doDMUL]; infer_instance
instance doDDIV : Holds L KM10.doDDIV := by rw [KM10.doDDIV]; infer_instance

end Quads

instance makeFrom (bpa : W36) : Holds L (BytePointer.makeFrom bpa) := by
  rw [BytePointer.makeFrom]
  infer_instance

/-- One case for each format. -/
instance getPSA (bp : BytePointer) : Holds L bp.getPSA := by
  cases bp with
  | L1 u => rw [BytePointer.getPSA]; infer_instance
  | G1 u =>
      rw [BytePointer.getPSA]
      refine @bind _ _ L _ _ _ fun a => ?_
      split <;> infer_instance
  | G2 u => rw [BytePointer.getPSA]; infer_instance

instance getByte (bp : BytePointer) : Holds L bp.getByte := by
  rw [BytePointer.getByte]
  infer_instance

instance putByte (bp : BytePointer) (v : W36) : Holds L (bp.putByte v) := by
  rw [BytePointer.putByte]
  infer_instance

/-- Only a one word local pointer is adjusted. -/
instance adjust (bp : BytePointer) : Holds L bp.adjust := by
  cases bp <;> unfold BytePointer.adjust <;> infer_instance

instance bytePointer : Holds L KM10.bytePointer := by rw [KM10.bytePointer]; infer_instance

instance doIBP_ADJBP : Holds L KM10.doIBP_ADJBP := by rw [KM10.doIBP_ADJBP]; infer_instance

instance loadByteInsn (step : BytePointer → BytePointer) : Holds L (KM10.loadByteInsn step) := by
  rw [KM10.loadByteInsn]
  infer_instance

instance putByteInsn (step : BytePointer → BytePointer) : Holds L (KM10.putByteInsn step) := by
  rw [KM10.putByteInsn]
  infer_instance

/-! ### Jumps, skips and the stack -/

instance jumpInsn (cond : ℤ → Bool) : Holds L (KM10.jumpInsn cond) := by
  rw [KM10.jumpInsn]
  infer_instance

instance loadIfAC : Holds L KM10.loadIfAC := by rw [KM10.loadIfAC]; infer_instance

instance skipInsn (cond : ℤ → Bool) : Holds L (KM10.skipInsn cond) := by
  rw [KM10.skipInsn]
  infer_instance

instance doSKIP : Holds L KM10.doSKIP := by rw [KM10.doSKIP]; infer_instance
instance doSKIPA : Holds L KM10.doSKIPA := by rw [KM10.doSKIPA]; infer_instance

instance stepBothHalves : Holds L KM10.stepBothHalves := by
  rw [KM10.stepBothHalves]
  infer_instance

instance doAOBJP : Holds L KM10.doAOBJP := by rw [KM10.doAOBJP]; infer_instance
instance doAOBJN : Holds L KM10.doAOBJN := by rw [KM10.doAOBJN]; infer_instance
instance doJFCL : Holds L KM10.doJFCL := by rw [KM10.doJFCL]; infer_instance

instance localStack (ac : W36) : Holds L (KM10.localStack ac) := by
  rw [KM10.localStack]
  infer_instance

instance push (v : W36) : Holds L (KM10.push v) := by rw [KM10.push]; infer_instance
instance pop : Holds L KM10.pop := by rw [KM10.pop]; infer_instance
instance doPUSH : Holds L KM10.doPUSH := by rw [KM10.doPUSH]; infer_instance
instance doPOP : Holds L KM10.doPOP := by rw [KM10.doPOP]; infer_instance
instance doADJSP : Holds L KM10.doADJSP := by rw [KM10.doADJSP]; infer_instance
instance savedDelta : Holds L KM10.savedDelta := by rw [KM10.savedDelta]; infer_instance

instance savedPC (inSection0 : Bool) : Holds L (KM10.savedPC inSection0) := by
  rw [KM10.savedPC]
  infer_instance

instance doJRA : Holds L KM10.doJRA := by rw [KM10.doJRA]; infer_instance
instance doXCT : Holds L KM10.doXCT := by rw [KM10.doXCT]; infer_instance
instance doMAP : Holds L KM10.doMAP := by rw [KM10.doMAP]; infer_instance

section Full

variable [Fact L.full]

instance doPOPJ : Holds L KM10.doPOPJ := by rw [KM10.doPOPJ]; infer_instance
instance doPUSHJ : Holds L KM10.doPUSHJ := by rw [KM10.doPUSHJ]; infer_instance
instance doJSR : Holds L KM10.doJSR := by rw [KM10.doJSR]; infer_instance
instance doJSP : Holds L KM10.doJSP := by rw [KM10.doJSP]; infer_instance
instance doJSA : Holds L KM10.doJSA := by rw [KM10.doJSA]; infer_instance

/-! ### I/O -/

section Leaves

variable [Fact L.leaves]

instance dismissInterrupt : Holds L KM10.dismissInterrupt := by
  rw [KM10.dismissInterrupt]
  infer_instance

/-- One case for each form of JRST. -/
instance doJRST [Fact L.stops] : Holds L KM10.doJRST := by
  rw [KM10.doJRST]
  refine @bind _ _ L _ _ _ fun iw => @bind _ _ L _ _ _ fun ea => ?_
  split <;> infer_instance

instance putPIConditions (v : BitVec 18) : Holds L (KM10.putPIConditions v) := by
  rw [KM10.putPIConditions]
  refine @bind _ _ L _ _ _ fun d => ?_
  split <;> infer_instance

instance putConditions (dev : DeviceName) (v : BitVec 18) :
    Holds L (KM10.putConditions dev v) := by
  rw [KM10.putConditions]
  infer_instance

end Leaves

/-- The conditions of the other devices do not concern the interrupt state. -/
lemma putConditions_of_ne {dev : DeviceName} (h : dev ≠ .pi) (v : BitVec 18) :
    Holds L (KM10.putConditions dev v) := by
  rw [KM10.putConditions, if_neg h]
  infer_instance

instance getConditions (dev : DeviceName) : Holds L (KM10.getConditions dev) := by
  rw [KM10.getConditions]
  infer_instance

instance sweepFirst (dev : DeviceName) : Holds L (KM10.sweepFirst dev) := by
  rw [KM10.sweepFirst]
  infer_instance

instance monitorOpComplete : Holds L KM10.monitorOpComplete := by
  rw [KM10.monitorOpComplete]
  infer_instance

instance putTo10ArgRH (v : BitVec 18) : Holds L (KM10.putTo10ArgRH v) := by
  rw [KM10.putTo10ArgRH]
  infer_instance

instance ctyInput : Holds L KM10.ctyInput := by
  rw [KM10.ctyInput]
  refine @bind _ _ L _ _ _ fun d => ?_
  split <;> infer_instance

/-- One case for each function of the monitor protocol. -/
instance monitorCommand [Fact L.stops] (fn data : BitVec 8) :
    Holds L (KM10.monitorCommand fn data) := by
  rw [KM10.monitorCommand]
  split <;> infer_instance

instance doDTECONO [Fact L.stops] (ea : W36) : Holds L (KM10.doDTECONO ea) := by
  have : Holds L (KM10.putConditions .dte ea.rhu) := putConditions_of_ne L (by decide) _
  rw [KM10.doDTECONO]
  infer_instance

instance doDATAI (dev : DeviceName) : Holds L (KM10.doDATAI dev) := by
  rw [KM10.doDATAI]
  infer_instance

instance doPAGDATAO : Holds L KM10.doPAGDATAO := by rw [KM10.doPAGDATAO]; infer_instance
instance doAPRDATAO : Holds L KM10.doAPRDATAO := by rw [KM10.doAPRDATAO]; infer_instance

instance doDATAO (dev : DeviceName) : Holds L (KM10.doDATAO dev) := by
  rw [KM10.doDATAO]
  infer_instance

instance stepPointer : Holds L KM10.stepPointer := by rw [KM10.stepPointer]; infer_instance

instance doBLKI (dev : DeviceName) : Holds L (KM10.doBLKI dev) := by
  rw [KM10.doBLKI]
  infer_instance

instance doBLKO (dev : DeviceName) : Holds L (KM10.doBLKO dev) := by
  rw [KM10.doBLKO]
  infer_instance

instance doCONO [Fact L.leaves] [Fact L.stops] (dev : DeviceName) (ea : W36) :
    Holds L (KM10.doCONO dev ea) := by
  rw [KM10.doCONO]
  infer_instance

/-- Only the front end stops the machine. -/
lemma doCONO_of_ne_dte [Fact L.leaves] {dev : DeviceName} (h : dev ≠ .dte) (ea : W36) :
    Holds L (KM10.doCONO dev ea) := by
  rw [KM10.doCONO, if_neg h]
  infer_instance

/-- Only CONO PI concerns the interrupt state. -/
lemma doCONO_of_ne [Fact L.stops] {dev : DeviceName} (h : dev ≠ .pi) (ea : W36) :
    Holds L (KM10.doCONO dev ea) := by
  have : Holds L (KM10.putConditions dev ea.rhu) := putConditions_of_ne L h _
  rw [KM10.doCONO]
  infer_instance

instance doCONI (dev : DeviceName) : Holds L (KM10.doCONI dev) := by
  rw [KM10.doCONI]
  infer_instance

instance testConditions (dev : DeviceName) (ea : W36) :
    Holds L (KM10.testConditions dev ea) := by
  rw [KM10.testConditions]
  infer_instance

instance doCONSZ (dev : DeviceName) (ea : W36) : Holds L (KM10.doCONSZ dev ea) := by
  rw [KM10.doCONSZ]
  infer_instance

instance doCONSO (dev : DeviceName) (ea : W36) : Holds L (KM10.doCONSO dev ea) := by
  rw [KM10.doCONSO]
  infer_instance

/-- One case for each operation. -/
instance handleIO [Fact L.leaves] [Fact L.stops] (dev : DeviceName) (ioOp : IOOp) (ea : W36) :
    Holds L <| KM10.handleIO dev ioOp ea := by
  cases ioOp <;> unfold KM10.handleIO <;> infer_instance

/-- Everything but CONO DTE leaves the machine running. -/
lemma handleIO_of_ne_dte [Fact L.leaves] {dev : DeviceName} {ioOp : IOOp}
    (h : ¬ (dev = .dte ∧ ioOp = .CONO)) (ea : W36) : Holds L <| KM10.handleIO dev ioOp ea := by
  cases ioOp with
  | CONO => exact doCONO_of_ne_dte L (fun hdev => h ⟨hdev, rfl⟩) ea
  | _ => rw [KM10.handleIO]; infer_instance

/-- Everything but CONO PI leaves the interrupt state alone. -/
lemma handleIO_of_ne [Fact L.stops] {dev : DeviceName} {ioOp : IOOp}
    (h : ¬ (dev = .pi ∧ ioOp = .CONO)) (ea : W36) : Holds L <| KM10.handleIO dev ioOp ea := by
  cases ioOp with
  | CONO => exact doCONO_of_ne L (fun hdev => h ⟨hdev, rfl⟩) ea
  | _ => rw [KM10.handleIO]; infer_instance

instance doIO [Fact L.leaves] [Fact L.stops] : Holds L KM10.doIO := by
  rw [KM10.doIO]; infer_instance

end Full

end Holds

/-! ### The dispatch table -/

/-- The accumulators that the handler of an opcode reaches from its AC field on: one, but a
pair for the products, quotients and double words and four for DMUL and DDIV. -/
def acSpan (op : ℕ) : ℕ :=
  if op ∈ [0o116, 0o117] then 4
  else if op ∈ [0o114, 0o115, 0o120, 0o121, 0o124, 0o125, 0o224, 0o225, 0o227, 0o230, 0o231,
    0o233, 0o234, 0o235, 0o236, 0o237, 0o243, 0o244, 0o245, 0o246] then 2
  else 1

/-- The opcodes whose handlers replace the fetch address or the PC themselves: the MUUOs, the
LUUOs and JSYS. -/
def isUUO (op : ℕ) : Bool := isMUUO op || decide (0 < op ∧ op < 0o40) || op == 0o104

section Table

variable (L : Logic)

/-- A handler with its opcode keeps the property of `L` if `L` has accumulators enough. -/
def Entry (e : ℕ × Handler) : Prop := acSpan e.1 ≤ L.span → Holds L e.2

/-- What an entry says of its handler. -/
lemma Entry.holds {op : ℕ} {h : Handler} (he : Entry L (op, h)) (hspan : acSpan op ≤ L.span) :
    Holds L h := he hspan

/-- An entry whose handler reaches one accumulator. -/
lemma Entry.one (op : ℕ) (h : Handler) [hh : Holds L h] : Entry L (op, h) := fun _ => hh

/-- An entry whose handler reaches two accumulators. -/
lemma Entry.two {op : ℕ} {h : Handler} (hop : acSpan op = 2)
    (hh : [Fact (2 ≤ L.span)] → Holds L h) : Entry L (op, h) := fun hspan =>
  @hh ⟨hop ▸ hspan⟩

/-- An entry whose handler reaches four accumulators. -/
lemma Entry.four {op : ℕ} {h : Handler} (hop : acSpan op = 4)
    (hh : [Fact (4 ≤ L.span)] → Holds L h) : Entry L (op, h) := fun hspan =>
  @hh ⟨hop ▸ hspan⟩

lemma entry_AOxSOx : ∀ e ∈ installAOxSOxGroup, Entry L e := by
  simp only [installAOxSOxGroup, List.forall_mem_cons, List.not_mem_nil, false_imp_iff,
    implies_true, and_true]
  and_intros <;> exact Entry.one L _ _

lemma entry_Byte : ∀ e ∈ installByteGroup, Entry L e := by
  simp only [installByteGroup, List.forall_mem_cons, List.not_mem_nil, false_imp_iff,
    implies_true, and_true]
  and_intros <;> exact Entry.one L _ _

lemma entry_CmpAnd : ∀ e ∈ installCmpAndGroup, Entry L e := by
  simp only [installCmpAndGroup, List.forall_mem_cons, List.not_mem_nil, false_imp_iff,
    implies_true, and_true]
  and_intros <;> exact Entry.one L _ _

lemma entry_Half : ∀ e ∈ installHalfGroup, Entry L e := by
  simp only [installHalfGroup, List.forall_mem_cons, List.not_mem_nil, false_imp_iff,
    implies_true, and_true]
  and_intros <;> exact Entry.one L _ _

lemma entry_Move : ∀ e ∈ installMoveGroup, Entry L e := by
  simp only [installMoveGroup, List.forall_mem_cons, List.not_mem_nil, false_imp_iff,
    implies_true, and_true]
  and_intros <;> exact Entry.one L _ _

lemma entry_TstSet : ∀ e ∈ installTstSetGroup, Entry L e := by
  simp only [installTstSetGroup, List.forall_mem_cons, List.not_mem_nil, false_imp_iff,
    implies_true, and_true]
  and_intros <;> exact Entry.one L _ _

lemma entry_DWord : ∀ e ∈ installDWordGroup, Entry L e := by
  simp only [installDWordGroup, List.forall_mem_cons, List.not_mem_nil, false_imp_iff,
    implies_true, and_true]
  and_intros <;>
    first
    | exact Entry.two L rfl inferInstance
    | exact Entry.four L rfl inferInstance

lemma entry_IntBin : ∀ e ∈ installIntBinGroup, Entry L e := by
  simp only [installIntBinGroup, List.forall_mem_cons, List.not_mem_nil, false_imp_iff,
    implies_true, and_true]
  and_intros <;>
    first
    | exact Entry.one L _ _
    | exact Entry.two L rfl inferInstance

/-- JRST is the one jump that may leave the interrupt state or halt. -/
lemma entry_Jump [Fact L.full] :
    ∀ e ∈ installJumpGroup, (e.1 = 0o254 → Holds L doJRST) → Entry L e := by
  simp only [installJumpGroup, List.forall_mem_cons, List.not_mem_nil, false_imp_iff,
    implies_true, and_true]
  and_intros <;> intro hJRST <;>
    first
    | exact Entry.one L _ _
    | exact fun _ => hJRST trivial

lemma entry_IO : ∀ e ∈ installIOGroup, (0o700 ≤ e.1 → Holds L doIO) → Entry L e := by
  intro e he hio
  obtain ⟨op, hop, rfl⟩ := List.mem_map.mp he
  exact fun _ => hio (List.mem_range'_1.mp hop).1

/-- The handler of an opcode that is not a UUO comes from one of the other groups. -/
lemma mem_groups_of_not_isUUO {op : ℕ} (h : isUUO op = false) :
    (op, ops op) ∈ installAOxSOxGroup ++ installByteGroup ++ installCmpAndGroup ++
      installDWordGroup ++ installHalfGroup ++ installIntBinGroup ++ installIOGroup ++
      installJumpGroup ++ installMoveGroup ++ installTstSetGroup := by
  simp only [isUUO, Bool.or_eq_false_iff, decide_eq_false_iff_not, beq_eq_false_iff_ne] at h
  obtain ⟨⟨hinstalled, hLUUO⟩, hJSYS⟩ := h
  have hmem := ops_mem_installs hinstalled
  rw [installs] at hmem
  simp only [List.append_assoc] at hmem ⊢
  refine (List.mem_append.mp hmem).resolve_left fun hUUO => ?_
  rcases List.mem_append.mp hUUO with hmap | hsingle
  · obtain ⟨op', hrange, heq⟩ := List.mem_map.mp hmap
    have hop : op' = op := congrArg Prod.fst heq
    rw [List.mem_range'_1] at hrange
    omega
  · exact hJSYS (congrArg Prod.fst (List.mem_singleton.mp hsingle))

/-- The handler of an opcode that is not a UUO, given what holds of JRST and of the I/O
instructions. -/
lemma ops_holds_of [Fact L.full] {op : ℕ} (hop : isUUO op = false)
    (hspan : acSpan op ≤ L.span) (hJRST : op = 0o254 → Holds L doJRST)
    (hio : 0o700 ≤ op → Holds L doIO) : Holds L (ops op) := by
  have hmem := mem_groups_of_not_isUUO hop
  simp only [List.mem_append] at hmem
  have hentry : Entry L (op, ops op) := by
    rcases hmem with ((((((((h | h) | h) | h) | h) | h) | h) | h) | h) | h
    · exact entry_AOxSOx L _ h
    · exact entry_Byte L _ h
    · exact entry_CmpAnd L _ h
    · exact entry_DWord L _ h
    · exact entry_Half L _ h
    · exact entry_IntBin L _ h
    · exact entry_IO L _ h hio
    · exact entry_Jump L _ h hJRST
    · exact entry_Move L _ h
    · exact entry_TstSet L _ h
  exact hentry.holds L hspan

/-- **The handlers other than the UUOs.**  The handler of every such opcode has the property
of every logic with the accumulators it needs; JRST and the I/O instructions may leave the
interrupt state. -/
theorem ops_holds [Fact L.full] [Fact L.stops] {op : ℕ} (hop : isUUO op = false)
    (hspan : acSpan op ≤ L.span) (hleaves : op = 0o254 ∨ 0o700 ≤ op → L.leaves) :
    Holds L (ops op) := by
  refine ops_holds_of L hop hspan (fun hJRST => ?_) fun hio => ?_
  · have : Fact L.leaves := ⟨hleaves (.inl hJRST)⟩
    infer_instance
  · have : Fact L.leaves := ⟨hleaves (.inr hio)⟩
    infer_instance

end Table

end KM10
