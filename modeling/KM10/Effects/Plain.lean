import KM10.Effects.UUOs

/-!
What the instructions other than the I/O ones do to accumulators and devices.

* `Plain`: a relation of machine states that allows every change but those of the devices, of the
  current AC block and of the other blocks;
* `plainLogic`: the logic of such a relation;
* `frames_ops_of_not_io`: every handler below opcode 0700 moves the machine along such a relation,
  if it also allows the PI to change.
-/

namespace KM10

open StateExcept

/-- A relation that allows every change of the machine except to the devices and to the AC blocks,
where it allows the accumulators of the current block to change. -/
class Plain (R : Cpu → Cpu → Prop) : Prop where
  trans : ∀ {s t u : Cpu}, R s t → R t u → R s u
  core : ∀ {s t : Cpu}, t.toDevices = s.toDevices → t.AC = s.AC → t.ACBlocks = s.ACBlocks → R s t
  ac : ∀ (s : Cpu) (v : W36) (n : BitVec 4), R s (s.setAC v n)

section Logic

variable (R : Cpu → Cpu → Prop) [hR : Plain R]

instance : Std.Refl R := ⟨fun _ => hR.core rfl rfl rfl⟩

instance : IsTrans Cpu R := ⟨fun _ _ _ => hR.trans⟩

/-- An update that concerns neither the devices nor the AC blocks. -/
lemma frames_core {u : Cpu → Cpu} (h : ∀ s, (u s).toDevices = s.toDevices ∧ (u s).AC = s.AC ∧
    (u s).ACBlocks = s.ACBlocks) : Frames R (modify u : Exec Unit) :=
  Frames.modify _ fun s => hR.core (h s).1 (h s).2.1 (h s).2.2

lemma frames_acPutN (v : W36) (n : ℕ) : Frames R (acPutN v n) := by
  rw [acPutN]
  split
  · exact Frames.modify _ fun s => hR.ac s v _
  · infer_instance

lemma frames_checkBreakpoint (table : Cpu → List ℕ) (a : ℕ) :
    Frames R (checkBreakpoint table a) := by
  have : Frames R stop := frames_core R fun _ => ⟨rfl, rfl, rfl⟩
  rw [checkBreakpoint]
  infer_instance

/-- The logic of what a handler does along such a relation. -/
def plainLogic : Logic where
  Φ m := Frames R m
  span := 4
  full := False
  leaves := True
  stops := True
  span_pos := span_four_pos
  pure a := inferInstance
  bind hm hf := @Frames.bind _ _ _ _ _ _ _ _ hm hf
  gets f := inferInstance
  throw _ := inferInstance
  stop _ := frames_core R fun _ => ⟨rfl, rfl, rfl⟩
  checkGBPs _ := frames_checkBreakpoint R _ _
  checkPBPs _ := frames_checkBreakpoint R _ _
  modifyFlags g hg := frames_core R fun _ => ⟨rfl, rfl, rfl⟩
  acGetN h := by rw [acGetN]; infer_instance
  acGetEA h := by rw [acGetEA]; infer_instance
  acPutN v n h := frames_acPutN R v n
  acGetPlus _ := by simp only [acGetPlus, acGetN]; infer_instance
  acPutPlus v k _ := by
    have := frames_acPutN R v
    rw [acPutPlus]
    infer_instance
  peekMem _ := by rw [peekMem]; infer_instance
  pokeMem v _ _ := frames_core R fun _ => ⟨rfl, rfl, rfl⟩
  putEaRH h := h.elim
  stepEa h := h.elim
  restoreFlags h := h.elim
  enterExecInInterrupt h := h.elim
  clearUsrInInterrupt h := h.elim
  leaveInterrupt _ := frames_core R fun _ => ⟨rfl, rfl, rfl⟩
  modifyDevices h := h.elim
  updateACBlock h := h.elim

/-- What the logic says of a computation. -/
lemma Holds.frames {α : Type} {m : Exec α} (h : Holds (plainLogic R) m) : Frames R m := h.out

instance : Fact (plainLogic R).leaves := ⟨trivial⟩
instance : Fact (plainLogic R).stops := ⟨trivial⟩
instance : Fact (2 ≤ (plainLogic R).span) := ⟨show 2 ≤ 4 by decide⟩
instance : Fact (4 ≤ (plainLogic R).span) := ⟨show 4 ≤ 4 by decide⟩

/-- An update that concerns neither the devices nor the AC blocks. -/
lemma holds_core {u : Cpu → Cpu} (h : ∀ s, (u s).toDevices = s.toDevices ∧ (u s).AC = s.AC ∧
    (u s).ACBlocks = s.ACBlocks) : Holds (plainLogic R) (modify u : Exec Unit) :=
  ⟨frames_core R h⟩

instance holds_modifyFlags (g : ProgramFlags → ProgramFlags) :
    Holds (plainLogic R) (modifyFlags g) := holds_core R fun _ => ⟨rfl, rfl, rfl⟩

instance (r : BitVec 18) : Holds (plainLogic R) (putEaRH r) :=
  holds_core R fun _ => ⟨rfl, rfl, rfl⟩

instance : Holds (plainLogic R) stepEa := holds_core R fun _ => ⟨rfl, rfl, rfl⟩

instance (v : W36) : Holds (plainLogic R) (restoreFlags v) := holds_modifyFlags R _

instance (v : W36) : Holds (plainLogic R) (setFetchPC v) := holds_core R fun _ => ⟨rfl, rfl, rfl⟩

instance (v : W36) : Holds (plainLogic R) (setPc v) := holds_core R fun _ => ⟨rfl, rfl, rfl⟩

instance (n : ℕ) : Holds (plainLogic R) (setPcOffset n) := holds_core R fun _ => ⟨rfl, rfl, rfl⟩

instance (b : Bool) : Holds (plainLogic R) (setInInterrupt b) :=
  holds_core R fun _ => ⟨rfl, rfl, rfl⟩

/-! ### Jumps and calls -/

instance : Holds (plainLogic R) enterExecInInterrupt := by
  rw [enterExecInInterrupt]
  infer_instance

instance : Holds (plainLogic R) clearUsrInInterrupt := by
  rw [clearUsrInInterrupt]
  infer_instance

instance : Holds (plainLogic R) doPOPJ := by rw [doPOPJ]; infer_instance
instance : Holds (plainLogic R) doPUSHJ := by rw [doPUSHJ]; infer_instance
instance : Holds (plainLogic R) doJSR := by rw [doJSR]; infer_instance
instance : Holds (plainLogic R) doJSP := by rw [doJSP]; infer_instance
instance : Holds (plainLogic R) doJSA := by rw [doJSA]; infer_instance

/-! ### UUOs -/

instance : Holds (plainLogic R) doJSYS := by rw [doJSYS]; infer_instance

set_option synthInstance.maxSize 1000 in
set_option synthInstance.maxHeartbeats 60000 in
instance : Holds (plainLogic R) doMUUO := by rw [doMUUO]; infer_instance

set_option synthInstance.maxSize 1000 in
set_option synthInstance.maxHeartbeats 60000 in
instance : Holds (plainLogic R) doLUUO := by rw [doLUUO]; infer_instance

end Logic

/-! ### The dispatch table -/

/-- A relation that also allows every change of the PI. -/
class PlainPI (R : Cpu → Cpu → Prop) : Prop extends Plain R where
  pi : ∀ (s : Cpu) (d : PIDevice), R s { s with toDevices := { s.toDevices with pi := d } }

section Table

variable (R : Cpu → Cpu → Prop) [hR : PlainPI R]

instance : Holds (plainLogic R) dismissInterrupt := by
  have hpi : Holds (plainLogic R) (modifyDevices fun d =>
      { d with pi := { d.pi with piState := d.pi.piState.dismissInterrupt } }) :=
    ⟨Frames.modify _ fun s => hR.pi s _⟩
  rw [dismissInterrupt]
  infer_instance

/-- One case for each form of JRST. -/
instance : Holds (plainLogic R) doJRST := by
  rw [doJRST]
  refine @Holds.bind _ _ _ _ _ _ fun iw => @Holds.bind _ _ _ _ _ _ fun ea => ?_
  split <;> infer_instance

lemma entry_Jump_plain : ∀ e ∈ installJumpGroup, Entry (plainLogic R) e := by
  simp only [installJumpGroup, List.forall_mem_cons, List.not_mem_nil, false_imp_iff,
    implies_true, and_true]
  and_intros <;> exact Entry.one _ _ _

/-- **Every handler below the I/O instructions** moves the machine along a relation that allows
changes beside the devices and the other AC blocks. -/
theorem frames_ops_of_not_io {op : ℕ} (hop : op < 0o700) : Frames R (ops op) := by
  cases hUUO : isUUO op with
  | true =>
      rcases ops_of_isUUO hUUO with h | h | h
      all_goals
        rw [h]
        exact Holds.frames R inferInstance
  | false =>
      have hmem := mem_groups_of_not_isUUO hUUO
      simp only [List.mem_append] at hmem
      have hentry : Entry (plainLogic R) (op, ops op) := by
        rcases hmem with ((((((((h | h) | h) | h) | h) | h) | h) | h) | h) | h
        · exact entry_AOxSOx _ _ h
        · exact entry_Byte _ _ h
        · exact entry_CmpAnd _ _ h
        · exact entry_DWord _ _ h
        · exact entry_Half _ _ h
        · exact entry_IntBin _ _ h
        · obtain ⟨op', hrange, heq⟩ := List.mem_map.mp h
          have heq : op' = op := congrArg Prod.fst heq
          rw [List.mem_range'_1] at hrange
          omega
        · exact entry_Jump_plain R _ h
        · exact entry_Move _ _ h
        · exact entry_TstSet _ _ h
      exact Holds.frames R (hentry.holds _ (acSpan_le op))

end Table

end KM10
