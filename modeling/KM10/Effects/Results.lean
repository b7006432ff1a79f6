import KM10.Effects.Handlers

/-!
The results that the handlers report.

* `IResult.Plain`: the results of the instructions that are neither UUOs, nor XCT, nor I/O;
* `W36.noSuchDevice`: the I/O instructions that report that there is no such device;
* `returns_of_not_noSuchDevice`: the others complete, with or without a skip;
* `returns_ops`: the handlers below the I/O instructions report a plain result.
-/

namespace KM10

open StateExcept (Returns run_bind_of_ok run_gets)

/-- The results of the instructions that do their own work and touch no device. -/
def IResult.Plain (r : IResult) : Prop :=
  r = .iNormal ∨ r = .iSkip ∨ r = .iJump ∨ r = .iTrap ∨ r = .iHALT

instance : Fact IResult.iNormal.Plain := ⟨by simp [IResult.Plain]⟩
instance : Fact IResult.iSkip.Plain := ⟨by simp [IResult.Plain]⟩
instance : Fact IResult.iJump.Plain := ⟨by simp [IResult.Plain]⟩
instance : Fact IResult.iTrap.Plain := ⟨by simp [IResult.Plain]⟩
instance : Fact IResult.iHALT.Plain := ⟨by simp [IResult.Plain]⟩

/-! ### The families -/

section Families

variable {α β : Type}

instance (src : Exec W36) (op : W36 → Exec W36) (put : W36 → Exec Unit) :
    Returns IResult.Plain (moveInsn src op put) := by
  rw [moveInsn]
  infer_instance

instance (ext : W36 → W36) (copy : W36 → W36 → W36) (src dst : Exec W36)
    (put : W36 → Exec Unit) : Returns IResult.Plain (halfInsn ext copy src dst put) := by
  rw [halfInsn]
  infer_instance

instance (src : Exec W36) (skips : ℤ → ℤ → Bool) :
    Returns IResult.Plain (compareInsn src skips) := by
  rw [compareInsn]
  infer_instance

instance (g : ProgramFlags → ProgramFlags) (r : IResult) [Fact r.Plain] :
    Returns IResult.Plain (flagging g r) := by
  rw [flagging]
  infer_instance

instance (a : W36) : Returns IResult.Plain (checkAOTraps a) := by
  rw [checkAOTraps]
  infer_instance

instance (a : W36) : Returns IResult.Plain (checkSOTraps a) := by
  rw [checkSOTraps]
  infer_instance

/-- A count reports its action or what the check for traps says. -/
instance (get : Exec W36) (check : W36 → Exec IResult) (delta : W36) (put : W36 → Exec Unit)
    (condF : ℤ → Bool) (action : IResult) [hcheck : ∀ a, Returns IResult.Plain (check a)]
    [Fact action.Plain] :
    Returns IResult.Plain (countInsn get check delta put condF action) := by
  rw [countInsn]
  refine @Returns.bind _ _ _ _ _ _ _ fun a => Returns.bind_of (hcheck a) fun result hresult => ?_
  have : Fact result.Plain := ⟨hresult⟩
  infer_instance

instance (get1 get2 : Exec W36) (when : SkipWhen) :
    Returns IResult.Plain (testInsn get1 get2 when) := by
  rw [testInsn]
  infer_instance

instance (get1 get2 : Exec W36) (when : SkipWhen) (put : W36 → Exec Unit)
    (mask : W36 → W36 → W36) : Returns IResult.Plain (testPutInsn get1 get2 when put mask) := by
  rw [testPutInsn]
  infer_instance

instance (r : IResult) [Fact r.Plain] : Returns IResult.Plain (readInsn r) := by
  rw [readInsn]
  infer_instance

instance (src : Exec W36) (put : W36 → Exec Unit) : Returns IResult.Plain (setInsn src put) := by
  rw [setInsn]
  infer_instance

instance (get1 : Exec α) (get2 : Exec W36) (op : α → W36 → Exec β) (put : β → Exec Unit) :
    Returns IResult.Plain (binInsn get1 get2 op put) := by
  rw [binInsn]
  infer_instance

instance (cond : ℤ → Bool) : Returns IResult.Plain (jumpInsn cond) := by
  rw [jumpInsn]
  infer_instance

instance (cond : ℤ → Bool) : Returns IResult.Plain (skipInsn cond) := by
  rw [skipInsn]
  infer_instance

instance (step : BytePointer → BytePointer) : Returns IResult.Plain (loadByteInsn step) := by
  rw [loadByteInsn]
  infer_instance

instance (step : BytePointer → BytePointer) : Returns IResult.Plain (putByteInsn step) := by
  rw [putByteInsn]
  infer_instance

end Families

/-! ### The other handlers -/

instance : Returns IResult.Plain doCAI := by rw [doCAI]; infer_instance
instance : Returns IResult.Plain doCAIA := by rw [doCAIA]; infer_instance
instance : Returns IResult.Plain doCAM := by rw [doCAM]; infer_instance
instance : Returns IResult.Plain doCAMA := by rw [doCAMA]; infer_instance
instance : Returns IResult.Plain doASH := by rw [doASH]; infer_instance
instance : Returns IResult.Plain doASHC := by rw [doASHC]; infer_instance
instance : Returns IResult.Plain doROT := by rw [doROT]; infer_instance
instance : Returns IResult.Plain doROTC := by rw [doROTC]; infer_instance
instance : Returns IResult.Plain doLSH := by rw [doLSH]; infer_instance
instance : Returns IResult.Plain doLSHC := by rw [doLSHC]; infer_instance
instance : Returns IResult.Plain doJFFO := by rw [doJFFO]; infer_instance
instance : Returns IResult.Plain doEXCH := by rw [doEXCH]; infer_instance
instance : Returns IResult.Plain doBLT := by rw [doBLT]; infer_instance

instance (a b sum : W36) : Returns IResult.Plain (setADDFlags a b sum) := by
  rw [setADDFlags]
  infer_instance

instance (a b diff : W36) : Returns IResult.Plain (setSUBFlags a b diff) := by
  rw [setSUBFlags]
  infer_instance

/-- DADD reports what the flags say. -/
instance : Returns IResult.Plain doDADD := by
  rw [doDADD]
  refine @Returns.bind _ _ _ _ _ _ _ fun a => @Returns.bind _ _ _ _ _ _ _ fun b =>
    Returns.bind_of (P := IResult.Plain) inferInstance fun result hresult => ?_
  have : Fact result.Plain := ⟨hresult⟩
  infer_instance

/-- DSUB reports what the flags say. -/
instance : Returns IResult.Plain doDSUB := by
  rw [doDSUB]
  refine @Returns.bind _ _ _ _ _ _ _ fun a => @Returns.bind _ _ _ _ _ _ _ fun b =>
    Returns.bind_of (P := IResult.Plain) inferInstance fun result hresult => ?_
  have : Fact result.Plain := ⟨hresult⟩
  infer_instance

instance : Returns IResult.Plain doDMUL := by rw [doDMUL]; infer_instance
instance : Returns IResult.Plain doDDIV := by rw [doDDIV]; infer_instance
instance : Returns IResult.Plain doDMOVE := by rw [doDMOVE]; infer_instance
instance : Returns IResult.Plain doDMOVN := by rw [doDMOVN]; infer_instance
instance : Returns IResult.Plain doDMOVEM := by rw [doDMOVEM]; infer_instance
instance : Returns IResult.Plain doDMOVNM := by rw [doDMOVNM]; infer_instance
instance : Returns IResult.Plain doIBP_ADJBP := by rw [doIBP_ADJBP]; infer_instance
instance : Returns IResult.Plain doSKIP := by rw [doSKIP]; infer_instance
instance : Returns IResult.Plain doSKIPA := by rw [doSKIPA]; infer_instance
instance : Returns IResult.Plain doAOBJP := by rw [doAOBJP]; infer_instance
instance : Returns IResult.Plain doAOBJN := by rw [doAOBJN]; infer_instance
instance : Returns IResult.Plain doJFCL := by rw [doJFCL]; infer_instance
instance : Returns IResult.Plain doPUSH := by rw [doPUSH]; infer_instance
instance : Returns IResult.Plain doPOP := by rw [doPOP]; infer_instance
instance : Returns IResult.Plain doPOPJ := by rw [doPOPJ]; infer_instance
instance : Returns IResult.Plain doADJSP := by rw [doADJSP]; infer_instance
instance : Returns IResult.Plain doPUSHJ := by rw [doPUSHJ]; infer_instance
instance : Returns IResult.Plain doJSR := by rw [doJSR]; infer_instance
instance : Returns IResult.Plain doJSP := by rw [doJSP]; infer_instance
instance : Returns IResult.Plain doJSA := by rw [doJSA]; infer_instance
instance : Returns IResult.Plain doJRA := by rw [doJRA]; infer_instance
instance : Returns IResult.Plain doMAP := by rw [doMAP]; infer_instance

/-- One case for each form of JRST. -/
instance : Returns IResult.Plain doJRST := by
  rw [doJRST]
  refine @Returns.bind _ _ _ _ _ _ _ fun iw => @Returns.bind _ _ _ _ _ _ _ fun ea => ?_
  split <;> infer_instance


/-! ### I/O -/

/-- The result says that the instruction completed, with or without a skip. -/
def IResult.Completes (r : IResult) : Prop := r = .iNormal ∨ r = .iSkip

instance : Fact IResult.iNormal.Completes := ⟨.inl rfl⟩
instance : Fact IResult.iSkip.Completes := ⟨.inr rfl⟩
instance : Fact (¬ IResult.iJump.Completes) := ⟨by simp [IResult.Completes]⟩
instance : Fact (¬ IResult.iHALT.Completes) := ⟨by simp [IResult.Completes]⟩

/-- JRST jumps or halts, one case for each form. -/
lemma returns_doJRST : Returns (fun r => ¬ r.Completes) doJRST := by
  rw [doJRST]
  refine @Returns.bind _ _ _ _ _ _ _ fun iw => @Returns.bind _ _ _ _ _ _ _ fun ea => ?_
  split <;> infer_instance

/-- The operations that `Device` answers with `iNoSuchDevice` and the device does not
override. -/
def IOOp.noSuchDevice (dev : DeviceName) : IOOp → Bool
  | .DATAO => dev ≠ .pag ∧ dev ≠ .apr
  | .CONO => dev ≠ .apr ∧ dev ≠ .dte
  | _ => false

/-- The instruction word is an I/O instruction that `Device` answers with
`iNoSuchDevice`. -/
def W36.noSuchDevice (w : W36) : Bool :=
  0o700 ≤ w.op.toNat ∧ (IOOp.ofBits w.ioOp).noSuchDevice (.ofIODev w.ioDev)

/-- The operations of `Device` that answer so. -/
lemma returns_of_noSuchDevice {dev : DeviceName} {ioOp : IOOp}
    (h : ioOp.noSuchDevice dev = true) (ea : W36) :
    Returns (· = .iNoSuchDevice) <| handleIO dev ioOp ea := by
  have : Fact (IResult.iNoSuchDevice = .iNoSuchDevice) := ⟨rfl⟩
  cases ioOp with
  | DATAO =>
      obtain ⟨hpag, hapr⟩ := of_decide_eq_true h
      change Returns _ (doDATAO dev)
      rw [doDATAO, if_neg hpag, if_neg hapr]
      infer_instance
  | CONO =>
      obtain ⟨hapr, hdte⟩ := of_decide_eq_true h
      change Returns _ (doCONO dev ea)
      rw [doCONO, if_neg hdte]
      simp only [if_neg hapr]
      infer_instance
  | _ => cases h

/-- All the others complete, one case for each operation. -/
lemma returns_of_not_noSuchDevice {dev : DeviceName} {ioOp : IOOp}
    (h : ioOp.noSuchDevice dev = false) (ea : W36) :
    Returns IResult.Completes <| handleIO dev ioOp ea := by
  cases ioOp with
  | DATAO =>
      change Returns _ (doDATAO dev)
      rw [doDATAO]
      split
      · rw [doPAGDATAO]
        infer_instance
      · split
        · rw [doAPRDATAO]
          infer_instance
        · exact absurd h (by simp [IOOp.noSuchDevice, *])
  | CONO =>
      change Returns _ (doCONO dev ea)
      rw [doCONO]
      split
      · rw [doDTECONO]
        infer_instance
      · have hapr : dev = .apr := by
          by_contra hapr
          exact absurd h (by simp [IOOp.noSuchDevice, *])
        simp only [if_pos hapr]
        infer_instance
  | BLKI =>
      change Returns _ (doBLKI dev)
      rw [doBLKI]
      infer_instance
  | BLKO =>
      change Returns _ (doBLKO dev)
      rw [doBLKO]
      infer_instance
  | DATAI =>
      change Returns _ (doDATAI dev)
      rw [doDATAI]
      infer_instance
  | CONI =>
      change Returns _ (doCONI dev)
      rw [doCONI]
      infer_instance
  | CONSZ =>
      change Returns _ (doCONSZ dev ea)
      rw [doCONSZ]
      infer_instance
  | CONSO =>
      change Returns _ (doCONSO dev ea)
      rw [doCONSO]
      infer_instance

/-! ### The dispatch table -/

/-- The handler of an entry reports a plain result. -/
def PlainEntry (e : ℕ × Handler) : Prop := Returns IResult.Plain e.2

/-- What an entry says of its handler. -/
lemma PlainEntry.returns {op : ℕ} {h : Handler} (he : PlainEntry (op, h)) :
    Returns IResult.Plain h := he

/-- The entry of a handler with a plain result. -/
lemma PlainEntry.of_returns (op : ℕ) (h : Handler) [hh : Returns IResult.Plain h] :
    PlainEntry (op, h) := hh

lemma returns_AOxSOx : ∀ e ∈ installAOxSOxGroup, PlainEntry e := by
  simp only [installAOxSOxGroup, List.forall_mem_cons, List.not_mem_nil, false_imp_iff,
    implies_true, and_true]
  and_intros <;> exact .of_returns _ _

lemma returns_Byte : ∀ e ∈ installByteGroup, PlainEntry e := by
  simp only [installByteGroup, List.forall_mem_cons, List.not_mem_nil, false_imp_iff,
    implies_true, and_true]
  and_intros <;> exact .of_returns _ _

lemma returns_CmpAnd : ∀ e ∈ installCmpAndGroup, PlainEntry e := by
  simp only [installCmpAndGroup, List.forall_mem_cons, List.not_mem_nil, false_imp_iff,
    implies_true, and_true]
  and_intros <;> exact .of_returns _ _

lemma returns_DWord : ∀ e ∈ installDWordGroup, PlainEntry e := by
  simp only [installDWordGroup, List.forall_mem_cons, List.not_mem_nil, false_imp_iff,
    implies_true, and_true]
  and_intros <;> exact .of_returns _ _

lemma returns_Half : ∀ e ∈ installHalfGroup, PlainEntry e := by
  simp only [installHalfGroup, List.forall_mem_cons, List.not_mem_nil, false_imp_iff,
    implies_true, and_true]
  and_intros <;> exact .of_returns _ _

lemma returns_IntBin : ∀ e ∈ installIntBinGroup, PlainEntry e := by
  simp only [installIntBinGroup, List.forall_mem_cons, List.not_mem_nil, false_imp_iff,
    implies_true, and_true]
  and_intros <;> exact .of_returns _ _

lemma returns_Move : ∀ e ∈ installMoveGroup, PlainEntry e := by
  simp only [installMoveGroup, List.forall_mem_cons, List.not_mem_nil, false_imp_iff,
    implies_true, and_true]
  and_intros <;> exact .of_returns _ _

lemma returns_TstSet : ∀ e ∈ installTstSetGroup, PlainEntry e := by
  simp only [installTstSetGroup, List.forall_mem_cons, List.not_mem_nil, false_imp_iff,
    implies_true, and_true]
  and_intros <;> exact .of_returns _ _

/-- XCT is the one jump that reports something else. -/
lemma returns_Jump : ∀ e ∈ installJumpGroup, e.1 ≠ 0o256 → PlainEntry e := by
  simp only [installJumpGroup, List.forall_mem_cons, List.not_mem_nil, false_imp_iff,
    implies_true, and_true]
  and_intros <;> intro h <;> first | exact .of_returns _ _ | exact absurd rfl h

/-- **The results below the I/O instructions**: the handlers that are neither UUOs nor XCT
report a plain one. -/
theorem returns_ops {op : ℕ} (hUUO : isUUO op = false) (hXCT : op ≠ 0o256) (hdevice : op < 0o700) :
    Returns IResult.Plain (ops op) := by
  have hmem := mem_groups_of_not_isUUO hUUO
  simp only [List.mem_append] at hmem
  have hentry : PlainEntry (op, ops op) := by
    rcases hmem with ((((((((h | h) | h) | h) | h) | h) | h) | h) | h) | h
    · exact returns_AOxSOx _ h
    · exact returns_Byte _ h
    · exact returns_CmpAnd _ h
    · exact returns_DWord _ h
    · exact returns_Half _ h
    · exact returns_IntBin _ h
    · obtain ⟨op', hop', heq⟩ := List.mem_map.mp h
      have hge := (List.mem_range'_1.mp hop').1
      have hop : op' = op := congrArg Prod.fst heq
      omega
    · exact returns_Jump _ h hXCT
    · exact returns_Move _ h
    · exact returns_TstSet _ h
  exact hentry.returns

lemma ops_io {op : ℕ} (h : 0o700 ≤ op) (hop : op < 0o1000) : ops op = doIO := by
  have hmem : (op, doIO) ∈ installIOGroup :=
    List.mem_map_of_mem (List.mem_range'_1.mpr ⟨h, by omega⟩)
  refine ops_of_mem ?_
  simp only [installs, List.mem_append, hmem, true_or, or_true]

/-- An I/O instruction runs the handler of its device and operation. -/
lemma run_doIO_eq (s : Cpu) :
    doIO.run s = handleIO (.ofIODev s.iw.ioDev) (.ofBits s.iw.ioOp) s.ea s := by
  unfold doIO
  rw [run_bind_of_ok (run_gets Cpu.iw s), run_bind_of_ok (run_gets Cpu.ea s)]
  rfl

end KM10
