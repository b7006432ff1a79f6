import KM10.Effects.Results
import Mathlib.Logic.Relation

/-!
What the handlers other than the UUOs do to the machine.

* `Touch`: the elementary changes of the state; `Touches` is any number of them;
* `ops_touches`: such a handler moves the state by elementary changes;
* `Tame`: what every elementary change keeps, and so every such handler (`ops_tame`): the PC,
  the fetch address, the left half of `ea`, and the mode flags of a user program;
* `ops_keeps_inInterrupt`: only JRST and CONO PI leave the interrupt state.
-/

namespace KM10

open StateExcept (Frames)

/-! ### Elementary changes -/

/-- An elementary change of the state by a handler; leaving the interrupt state is one only
under `leaves`. -/
inductive Touch (leaves : Prop) : Cpu → Cpu → Prop where
  | stop (s : Cpu) : Touch leaves s { s with running := false }
  | flags (s : Cpu) (g : ProgramFlags → ProgramFlags) (hg : ProgramFlags.KeepsModes g) :
      Touch leaves s { s with flags := g s.flags }
  | ac (s : Cpu) (v : W36) (n : BitVec 4) : Touch leaves s (s.setAC v n)
  | mem (s : Cpu) (v : W36) (a : BitVec 18) : Touch leaves s (s.setMem v a)
  | ea (s : Cpu) (r : BitVec 18) : Touch leaves s { s with ea := s.ea.setRhu r }
  | restore (s : Cpu) (f : ProgramFlags) : Touch leaves s { s with flags := s.flags.restore f }
  | enterExec (s : Cpu) (h : s.inInterrupt = true) :
      Touch leaves s { s with flags := { s.flags with usr := false, pub := false } }
  | clearUsr (s : Cpu) (h : s.inInterrupt = true) :
      Touch leaves s { s with flags := { s.flags with usr := false } }
  | leave (s : Cpu) (h : leaves) : Touch leaves s { s with inInterrupt := false }
  | devices (s : Cpu) (g : Devices → Devices) :
      Touch leaves s { s with toDevices := g s.toDevices }
  | acBlock (s : Cpu) (b : BitVec 3) : Touch leaves s { s with AC := b }

/-- Any number of elementary changes. -/
abbrev Touches (leaves : Prop) : Cpu → Cpu → Prop := Relation.ReflTransGen (Touch leaves)

/-- An update that is an elementary change in every state. -/
lemma frames_modify {leaves : Prop} {u : Cpu → Cpu} (h : ∀ s, Touch leaves s (u s)) :
    Frames (Touches leaves) (modify u : Exec Unit) :=
  Frames.modify _ fun s => .single (h s)

/-- The interrupt-guarded update of the flags. -/
lemma frames_in_interrupt {leaves : Prop} {g : ProgramFlags → ProgramFlags}
    (h : ∀ s : Cpu, s.inInterrupt = true → Touch leaves s { s with flags := g s.flags }) :
    Frames (Touches leaves) (do
      let inInterrupt ← StateExcept.gets Cpu.inInterrupt
      if inInterrupt then modifyFlags g else pure () : Exec Unit) where
  out := by
    intro s a t hst
    rw [StateExcept.run_bind_of_ok (StateExcept.run_gets Cpu.inInterrupt s)] at hst
    cases hin : s.inInterrupt with
    | true =>
        rw [hin] at hst
        cases hst
        exact .single (h s hin)
    | false =>
        rw [hin] at hst
        cases hst
        exact .refl

/-- A breakpoint test stops the machine or does nothing. -/
lemma touches_checkBreakpoint {leaves : Prop} (table : Cpu → List ℕ) (a : ℕ) :
    Frames (Touches leaves) (checkBreakpoint table a) := by
  have : Frames (Touches leaves) stop := frames_modify .stop
  rw [checkBreakpoint]
  infer_instance

/-- The logic of what a handler may change. -/
def touchesLogic (leaves : Prop) : Logic where
  Φ m := Frames (Touches leaves) m
  span := 4
  full := True
  leaves := leaves
  stops := True
  span_pos := span_four_pos
  pure a := inferInstance
  bind hm hf := @Frames.bind _ _ _ _ _ _ _ _ hm hf
  gets f := inferInstance
  throw _ := inferInstance
  stop _ := frames_modify .stop
  checkGBPs _ := touches_checkBreakpoint _ _
  checkPBPs _ := touches_checkBreakpoint _ _
  modifyFlags g hg := frames_modify fun s => .flags s g hg
  acGetN h := by rw [acGetN]; infer_instance
  acGetEA h := by rw [acGetEA]; infer_instance
  acPutN v n h := by
    rw [acPutN, if_pos h]
    exact frames_modify fun s => .ac s v _
  acGetPlus _ := by simp only [acGetPlus, acGetN]; infer_instance
  acPutPlus v k _ := by
    have hput (n : ℕ) : Frames (Touches leaves) (acPutN v n) := by
      rw [acPutN]
      split
      · exact frames_modify fun s => .ac s v _
      · infer_instance
    rw [acPutPlus]
    infer_instance
  peekMem _ := by rw [peekMem]; infer_instance
  pokeMem v a _ := frames_modify fun s => .mem s v a
  putEaRH _ r := frames_modify fun s => .ea s r
  stepEa _ := frames_modify fun s => .ea s _
  restoreFlags _ v := frames_modify fun s => .restore s _
  enterExecInInterrupt _ := frames_in_interrupt .enterExec
  clearUsrInInterrupt _ := frames_in_interrupt .clearUsr
  leaveInterrupt h := frames_modify fun s => .leave s h
  modifyDevices _ g := frames_modify fun s => .devices s g
  updateACBlock _ b := frames_modify fun s => .acBlock s b

instance (leaves : Prop) : Fact (touchesLogic leaves).full := ⟨trivial⟩
instance (leaves : Prop) : Fact (touchesLogic leaves).stops := ⟨trivial⟩

/-- No handler reaches more than four accumulators. -/
lemma acSpan_le (op : ℕ) : acSpan op ≤ 4 := by
  rw [acSpan]
  split
  · exact le_rfl
  · split <;> decide

/-- The handlers other than the UUOs move the state by elementary changes. -/
lemma ops_touches {op : ℕ} (hop : isUUO op = false) {s t : Cpu} {r : IResult}
    (h : (ops op).run s = .ok (r, t)) : Touches True s t :=
  (ops_holds (touchesLogic True) hop (acSpan_le op) fun _ => trivial).out.out h

/-! ### What the changes keep -/

/-- What every elementary change keeps. -/
structure Tame (s t : Cpu) : Prop where
  pc : t.pc = s.pc
  iw : t.iw = s.iw
  fetchPC : t.fetchPC = s.fetchPC
  nSteps : t.nSteps = s.nSteps
  eaLeft : t.ea.lhu = s.ea.lhu
  inInterrupt : t.inInterrupt = true → s.inInterrupt = true
  usr : s.flags.usr = true → s.inInterrupt = false → t.flags.usr = true
  pub : s.flags.pub = true → s.inInterrupt = false → t.flags.pub = true
  uio : s.flags.usr = true → s.inInterrupt = false → s.flags.uio = false → t.flags.uio = false

/-- A handler that leaves a user program out of interrupts leaves it there. -/
lemma Tame.inInterrupt_false {s t : Cpu} (h : Tame s t) (hs : s.inInterrupt = false) :
    t.inInterrupt = false := by
  cases ht : t.inInterrupt with
  | false => rfl
  | true => rw [h.inInterrupt ht] at hs; cases hs

/-- A change that keeps all of these parts is tame. -/
lemma Tame.of_eq {s t : Cpu} (pc : t.pc = s.pc) (iw : t.iw = s.iw)
    (fetchPC : t.fetchPC = s.fetchPC) (nSteps : t.nSteps = s.nSteps)
    (eaLeft : t.ea.lhu = s.ea.lhu) (inInterrupt : t.inInterrupt = s.inInterrupt)
    (usr : t.flags.usr = s.flags.usr) (pub : t.flags.pub = s.flags.pub)
    (uio : t.flags.uio = s.flags.uio) : Tame s t where
  pc := pc
  iw := iw
  fetchPC := fetchPC
  nSteps := nSteps
  eaLeft := eaLeft
  inInterrupt h := inInterrupt ▸ h
  usr h _ := usr ▸ h
  pub h _ := pub ▸ h
  uio _ _ h := uio ▸ h

/-- Tame changes one after the other are tame. -/
lemma Tame.trans {s t u : Cpu} (hst : Tame s t) (htu : Tame t u) : Tame s u where
  pc := htu.pc.trans hst.pc
  iw := htu.iw.trans hst.iw
  fetchPC := htu.fetchPC.trans hst.fetchPC
  nSteps := htu.nSteps.trans hst.nSteps
  eaLeft := htu.eaLeft.trans hst.eaLeft
  inInterrupt h := hst.inInterrupt (htu.inInterrupt h)
  usr h hin := htu.usr (hst.usr h hin) (hst.inInterrupt_false hin)
  pub h hin := htu.pub (hst.pub h hin) (hst.inInterrupt_false hin)
  uio h hin huio := htu.uio (hst.usr h hin) (hst.inInterrupt_false hin) (hst.uio h hin huio)

/-- `restoreFlags` keeps PUB, and in user mode USR and a clear UIO. -/
lemma ProgramFlags.restore_modes (f newFlags : ProgramFlags) :
    (f.usr = true → (f.restore newFlags).usr = true ∧ (f.restore newFlags).uio = false) ∧
      (f.pub = true → (f.restore newFlags).pub = true) := by
  constructor
  · intro h
    simp only [restore, h, if_true]
    split <;> exact ⟨rfl, rfl⟩
  · intro h
    simp only [restore, h, if_true]

/-- Every elementary change is tame. -/
lemma Touch.tame {leaves : Prop} {s t : Cpu} (h : Touch leaves s t) : Tame s t := by
  cases h with
  | flags g hg => exact .of_eq rfl rfl rfl rfl rfl rfl (hg.usr _) (hg.pub _) (hg.uio _)
  | ea r => exact .of_eq rfl rfl rfl rfl (W36.lhu_setRhu _ _) rfl rfl rfl rfl
  | restore f =>
      obtain ⟨husr, hpub⟩ := s.flags.restore_modes f
      exact
        { pc := rfl, iw := rfl, fetchPC := rfl, nSteps := rfl, eaLeft := rfl,
          inInterrupt := id,
          usr := fun h _ => (husr h).1,
          pub := fun h _ => hpub h,
          uio := fun h _ _ => (husr h).2 }
  | enterExec hin =>
      exact
        { pc := rfl, iw := rfl, fetchPC := rfl, nSteps := rfl, eaLeft := rfl,
          inInterrupt := id,
          usr := fun _ h => absurd hin (by simp [h]),
          pub := fun _ h => absurd hin (by simp [h]),
          uio := fun _ _ h => h }
  | clearUsr hin =>
      exact
        { pc := rfl, iw := rfl, fetchPC := rfl, nSteps := rfl, eaLeft := rfl,
          inInterrupt := id,
          usr := fun _ h => absurd hin (by simp [h]),
          pub := fun h _ => h,
          uio := fun _ _ h => h }
  | leave _ =>
      exact
        { pc := rfl, iw := rfl, fetchPC := rfl, nSteps := rfl, eaLeft := rfl,
          inInterrupt := Bool.noConfusion,
          usr := fun h _ => h,
          pub := fun h _ => h,
          uio := fun _ _ h => h }
  | _ => exact .of_eq rfl rfl rfl rfl rfl rfl rfl rfl rfl

/-- Any number of elementary changes are tame. -/
lemma Touches.tame {leaves : Prop} {s t : Cpu} (h : Touches leaves s t) : Tame s t := by
  induction h with
  | refl => exact .of_eq rfl rfl rfl rfl rfl rfl rfl rfl rfl
  | tail _ htu ih => exact ih.trans htu.tame

/-- Only `leave` ends the interrupt state. -/
lemma Touches.inInterrupt {s t : Cpu} (h : Touches False s t) :
    t.inInterrupt = s.inInterrupt := by
  induction h with
  | refl => rfl
  | tail _ htu ih =>
      rw [← ih]
      cases htu with
      | leave h => exact h.elim
      | _ => rfl

/-- **Every handler other than those of the UUOs is tame.** -/
theorem ops_tame {op : ℕ} (hop : isUUO op = false) {s t : Cpu} {r : IResult}
    (h : (ops op).run s = .ok (r, t)) : Tame s t :=
  (ops_touches hop h).tame

/-! ### The interrupt state -/

lemma ops_JRST : ops 0o254 = doJRST := ops_of_mem <| by
  simp [installs, installJumpGroup]

/-- Without leaving the interrupt state, elementary changes keep it. -/
lemma keeps_of_holds {m : Handler} (hm : Holds (touchesLogic False) m) {s t : Cpu} {r : IResult}
    (h : m.run s = .ok (r, t)) : t.inInterrupt = s.inInterrupt :=
  Touches.inInterrupt (hm.out.out h)

/-- Every I/O instruction that completes keeps the interrupt state. -/
lemma doIO_keeps_inInterrupt {s t : Cpu} {r : IResult} (h : doIO.run s = .ok (r, t))
    (hr : r.Completes) : t.inInterrupt = s.inInterrupt := by
  unfold doIO at h
  rw [StateExcept.run_bind_of_ok (StateExcept.run_gets Cpu.iw s),
    StateExcept.run_bind_of_ok (StateExcept.run_gets Cpu.ea s)] at h
  by_cases hPI : DeviceName.ofIODev s.iw.ioDev = .pi ∧ IOOp.ofBits s.iw.ioOp = .CONO
  · rw [hPI.1, hPI.2] at h
    -- CONO PI says that there is no such device
    rw [(returns_of_noSuchDevice (by decide) s.ea).out h] at hr
    exact absurd hr (by simp [IResult.Completes])
  · exact keeps_of_holds (Holds.handleIO_of_ne (touchesLogic False) hPI s.ea) h

/-- **Only JRST and CONO PI leave the interrupt state**, and neither completes. -/
theorem ops_keeps_inInterrupt {op : ℕ} (hUUO : isUUO op = false) (hop : op < 0o1000) {s t : Cpu}
    {r : IResult} (h : (ops op).run s = .ok (r, t)) (hr : r.Completes) :
    t.inInterrupt = s.inInterrupt := by
  by_cases hJRST : op = 0o254
  · rw [hJRST, ops_JRST] at h
    exact absurd hr (returns_doJRST.out h)
  · by_cases hdevice : 0o700 ≤ op
    · rw [ops_io hdevice hop] at h
      exact doIO_keeps_inInterrupt h hr
    · exact keeps_of_holds (ops_holds (touchesLogic False) hUUO (acSpan_le op) fun hleaves =>
        hleaves.elim hJRST hdevice) h

end KM10
