import KM10.Effects.Steps

/-!
The fetch address and the step counter are hidden from the instructions.

* `Cpu.relocate`: the machine with another fetch address and step counter;
* `carries_ops`: the handlers other than the UUOs carry such a change along;
* `carries_doMUUO`, `carries_doLUUO`: the UUOs choose the fetch address themselves;
* `CpuView`: what a program sees of the machine;
* `retiredView_relocate`: dispatching an instruction gives the same view after such a change.
-/

namespace KM10

open StateExcept

/-! ### Handlers -/

/-- The machine with another fetch address and another step counter. -/
def Cpu.relocate (f : W36 → W36) (nSteps : ℤ) (s : Cpu) : Cpu :=
  { s with fetchPC := f s.fetchPC, nSteps := nSteps }

/-- The logic of the handlers that neither read nor write the two. -/
def relocateLogic (f : W36 → W36) (nSteps : ℤ) : Logic where
  Φ m := Carries (Cpu.relocate f nSteps) (Cpu.relocate f nSteps) m
  span := 4
  full := True
  leaves := True
  stops := True
  span_pos := span_four_pos
  pure a := .pure a
  bind hm hf := hm.bind hf
  gets f hf := .gets fun s => hf.out s _ _
  throw _ := .throw _
  stop _ := .modify fun _ => rfl
  checkGBPs _ := .bind (.gets fun _ => rfl) fun _ => .ite (.modify fun _ => rfl) (.pure _)
  checkPBPs _ := .bind (.gets fun _ => rfl) fun _ => .ite (.modify fun _ => rfl) (.pure _)
  modifyFlags _ _ := .modify fun _ => rfl
  acGetN h := by
    rw [acGetN, if_pos h]
    exact .gets fun _ => rfl
  acGetEA h := by
    rw [acGetEA, if_pos h]
    exact .gets fun _ => rfl
  acPutN v n h := by
    rw [acPutN, if_pos h]
    exact .modify fun _ => rfl
  acGetPlus _ := by
    simp only [acGetPlus, acGetN]
    exact .bind (.gets fun _ => rfl) fun _ => .ite (.gets fun _ => rfl) (.throw _)
  acPutPlus v k _ := by
    simp only [acPutPlus, acPutN]
    exact .bind (.gets fun _ => rfl) fun _ => .ite (.modify fun _ => rfl) (.throw _)
  peekMem _ := .gets fun _ => rfl
  pokeMem _ _ _ := .modify fun _ => rfl
  putEaRH _ _ := .modify fun _ => rfl
  stepEa _ := .modify fun _ => rfl
  restoreFlags _ _ := .modify fun _ => rfl
  enterExecInInterrupt _ := by
    rw [enterExecInInterrupt]
    exact .bind (.gets fun _ => rfl) fun _ => .ite (.modify fun _ => rfl) (.pure _)
  clearUsrInInterrupt _ := by
    rw [clearUsrInInterrupt]
    exact .bind (.gets fun _ => rfl) fun _ => .ite (.modify fun _ => rfl) (.pure _)
  leaveInterrupt _ := .modify fun _ => rfl
  modifyDevices _ _ := .modify fun _ => rfl
  updateACBlock _ _ := .modify fun _ => rfl

section Handlers

variable (f : W36 → W36) (nSteps : ℤ)

instance : Fact (relocateLogic f nSteps).full := ⟨trivial⟩
instance : Fact (relocateLogic f nSteps).stops := ⟨trivial⟩

/-- **The handlers other than the UUOs** carry the change along. -/
theorem carries_ops {op : ℕ} (hUUO : isUUO op = false) :
    Carries (Cpu.relocate f nSteps) (Cpu.relocate f nSteps) (ops op) :=
  (ops_holds (relocateLogic f nSteps) hUUO (acSpan_le op) fun _ => trivial).out

/-- An accessor carries the change along. -/
lemma carries_of_holds {α : Type} (m : Exec α) [h : Holds (relocateLogic f nSteps) m] :
    Carries (Cpu.relocate f nSteps) (Cpu.relocate f nSteps) m := h.out

/-- A new fetch address makes the change one of the step counter alone. -/
lemma carries_setFetchPC (v : W36) :
    Carries (Cpu.relocate f nSteps) (Cpu.relocate id nSteps) (setFetchPC v) :=
  .modify fun _ => rfl

/-- An MUUO. -/
lemma carries_doMUUO : Carries (Cpu.relocate f nSteps) (Cpu.relocate id nSteps) doMUUO := by
  rw [doMUUO]
  refine .bind (carries_of_holds f nSteps _) fun flags => .bind (carries_of_holds f nSteps _)
    fun d => .bind (carries_of_holds f nSteps _) fun newPC =>
      .bind (carries_setFetchPC f nSteps newPC) fun _ => ?_
  refine .bind (carries_of_holds id nSteps _) fun iw => .bind (carries_of_holds id nSteps _)
    fun _ => .bind (carries_of_holds id nSteps _) fun pc => .bind (carries_of_holds id nSteps _)
    fun _ => .bind (carries_of_holds id nSteps _) fun ea => .bind (carries_of_holds id nSteps _)
    fun _ => .bind (carries_of_holds id nSteps _) fun _ => ?_
  have hflags : Carries (Cpu.relocate id nSteps) (Cpu.relocate id nSteps)
      (modifyFlags fun _ => .none) := .modify fun _ => rfl
  have hpc : Carries (Cpu.relocate id nSteps) (Cpu.relocate id nSteps) (setPc newPC) :=
    .modify fun _ => rfl
  exact .bind hflags fun _ => .bind hpc fun _ => .pure _

/-- A LUUO, one case for each way to execute it. -/
lemma carries_doLUUO : Carries (Cpu.relocate f nSteps) (Cpu.relocate id nSteps) doLUUO := by
  have hoffset : Carries (Cpu.relocate f nSteps) (Cpu.relocate f nSteps) (setPcOffset 0) :=
    .modify fun _ => rfl
  rw [doLUUO]
  refine .bind (carries_of_holds f nSteps _) fun pc => .bind (carries_of_holds f nSteps _)
    fun usr => .ite ?_ (.ite ?_ (carries_doMUUO f nSteps))
  · exact .bind (carries_of_holds f nSteps _) fun iw => .bind (carries_of_holds f nSteps _)
      fun _ => .bind hoffset fun _ => .bind (carries_setFetchPC f nSteps _)
      fun _ => .pure _
  · refine .bind (carries_of_holds f nSteps _) fun uuoA => .bind (carries_of_holds f nSteps _)
      fun flags => .bind (carries_of_holds f nSteps _) fun iw =>
      .bind (carries_of_holds f nSteps _) fun _ => .bind (carries_of_holds f nSteps _)
      fun _ => .bind (carries_of_holds f nSteps _) fun ea => ?_
    exact .bind (carries_of_holds f nSteps _) fun _ => .bind hoffset fun _ =>
      .bind (carries_of_holds f nSteps _) fun newPC => .bind (carries_setFetchPC f nSteps newPC)
      fun _ => .pure _

/-- **The UUOs** but JSYS leave the change of the step counter. -/
theorem carries_of_isUUO {op : ℕ} (hUUO : isUUO op = true) (hJSYS : op ≠ 0o104) :
    Carries (Cpu.relocate f nSteps) (Cpu.relocate id nSteps) (ops op) := by
  rcases cases_of_isUUO hUUO with hop | hop | hop
  · rw [ops_of_isMUUO hop]
    exact carries_doMUUO f nSteps
  · rw [ops_LUUO hop]
    exact carries_doLUUO f nSteps
  · exact absurd hop hJSYS

end Handlers

/-! ### What a program sees -/

/-- The parts of the machine that a program can tell apart. -/
structure CpuView where
  ACBlocks : BitVec 3 → BitVec 4 → W36
  AC : BitVec 3
  memP : BitVec 18 → W36
  flags : ProgramFlags
  pc : W36
  running : Bool
  fetchVma : BitVec 23
  inInterrupt : Bool
  toDevices : Devices

/-- The view of a machine. -/
def Cpu.view (s : Cpu) : CpuView :=
  ⟨s.ACBlocks, s.AC, s.memP, s.flags, s.pc, s.running, s.fetchPC.vma, s.inInterrupt, s.toDevices⟩

/-- After a UUO the step counter is not seen. -/
lemma view_retire_of_UUO (v : Cpu) (nSteps : ℤ) {r : IResult} (hr : r.OfUUO) :
    ((v.relocate id nSteps).retire r).view = (v.retire r).view := by
  rcases hr with rfl | rfl <;> rfl

/-- Outside of interrupts, a result after which the fetch address follows the PC hides it. -/
lemma view_retire_relocate {v : Cpu} (hin : v.inInterrupt = false) {r : IResult}
    (hXCT : r ≠ .iXCT) (hUUO : ¬ r.OfUUO) (f : W36 → W36) (nSteps : ℤ) :
    ((v.relocate f nSteps).retire r).view = (v.retire r).view := by
  have hadvance (w : Cpu) (n : ℕ) :
      ((w.relocate f nSteps).advance n).view = (w.advance n).view := by
    simp only [Cpu.view, Cpu.advance, Cpu.relocate, W36.vma_setVma]
  have hin' : ¬ (v.relocate f nSteps).inInterrupt = true := by
    change ¬ v.inInterrupt = true
    rw [hin]
    exact Bool.false_ne_true
  have hin'' : ¬ v.inInterrupt = true := hin'
  cases r with
  | iNormal =>
      rw [Cpu.retire, Cpu.retire, if_neg hin', if_neg hin'']
      exact hadvance v 1
  | iSkip =>
      rw [Cpu.retire, Cpu.retire, if_neg hin', if_neg hin'']
      exact hadvance v 2
  | iJump => exact hadvance { v with inInterrupt := false, pc := v.ea } 0
  | iTrap => exact hadvance v 1
  | iHALT => exact hadvance { v with running := false } 0
  | iNoSuchDevice => exact hadvance v 1
  | iNYI => exact hadvance v 1
  | iXCT => exact absurd rfl hXCT
  | iMUUO => exact absurd (.inl rfl) hUUO
  | iLUUO => exact absurd (.inr rfl) hUUO

/-- The result of a handler and the view after it is retired. -/
def retiredView (p : IResult × Cpu) : IResult × CpuView := (p.1, (p.2.retire p.1).view)

/-- An instruction that is neither XCT nor JSYS. -/
structure W36.Ordinary (w : W36) : Prop where
  not_XCT : w.op.toNat ≠ 0o256
  not_JSYS : w.op.toNat ≠ 0o104

/-- **A handler outside of interrupts** gives the same view whatever the fetch address and the
step counter were. -/
theorem retiredView_relocate {u : Cpu} (hin : u.inInterrupt = false) (hw : u.iw.Ordinary)
    (f : W36 → W36) (nSteps : ℤ) :
    ((ops u.iw.op.toNat).run (u.relocate f nSteps)).map retiredView =
      ((ops u.iw.op.toNat).run u).map retiredView := by
  cases hUUO : isUUO u.iw.op.toNat with
  | true =>
      rw [(carries_of_isUUO f nSteps hUUO hw.not_JSYS).out u]
      cases hrun : (ops u.iw.op.toNat).run u with
      | error e => rfl
      | ok p =>
          have hr : p.1.OfUUO := (reports_of_ops hrun).ofUUO_iff.mpr hUUO
          exact congrArg (fun w => Except.ok (p.1, w)) (view_retire_of_UUO p.2 nSteps hr)
  | false =>
      rw [(carries_ops f nSteps hUUO).out u]
      cases hrun : (ops u.iw.op.toNat).run u with
      | error e => rfl
      | ok p =>
          have hreports := reports_of_ops hrun
          have hXCT : p.1 ≠ .iXCT := fun hr => hw.not_XCT (hreports.eq_iXCT_iff.mp hr)
          have hr : ¬ p.1.OfUUO := by
            rw [hreports.ofUUO_iff, hUUO]
            exact Bool.false_ne_true
          have hin' := (ops_tame hUUO hrun).inInterrupt_false hin
          exact congrArg (fun w => Except.ok (p.1, w)) (view_retire_relocate hin' hXCT hr f nSteps)

end KM10
