import KM10.Effects.Address
import KM10.Effects.UUOs

/-!
One instruction of a run, by the kind of its word.

* `W36.Reports`: the results that the handler of a word may report;
* `reports_of_step`: every instruction of a run reports one of these;
* `exists_of_ordinary_step`: an instruction other than a UUO runs a tame handler and retires;
* `xct_step`: what an XCT leaves for the pass that executes its operand.
-/

namespace KM10

open StateExcept (Returns)

/-! ### The result of an instruction -/

/-- The results of the UUOs. -/
def IResult.OfUUO (r : IResult) : Prop := r = .iMUUO ∨ r = .iLUUO

instance : Fact IResult.iMUUO.OfUUO := ⟨.inl rfl⟩
instance : Fact IResult.iLUUO.OfUUO := ⟨.inr rfl⟩

/-- The results that the handler of an instruction word may report. -/
def W36.Reports (w : W36) (r : IResult) : Prop :=
  if isUUO w.op.toNat then r.OfUUO
  else if w.op.toNat = 0o256 then r = .iXCT
  else if w.op.toNat < 0o700 then r.Plain
  else if w.noSuchDevice then r = .iNoSuchDevice
  else r.Completes

lemma ops_XCT : ops 0o256 = doXCT := ops_of_mem <| by
  simp [installs, installJumpGroup]

set_option synthInstance.maxSize 400 in
instance : Returns IResult.OfUUO doMUUO := by rw [doMUUO]; infer_instance

set_option synthInstance.maxSize 400 in
instance : Returns IResult.OfUUO doLUUO := by rw [doLUUO]; infer_instance

instance : Returns IResult.OfUUO doJSYS := by rw [doJSYS]; infer_instance

/-- A UUO reports that it is one. -/
lemma returns_of_isUUO {op : ℕ} (h : isUUO op = true) : Returns IResult.OfUUO (ops op) := by
  rcases ops_of_isUUO h with hop | hop | hop <;> rw [hop] <;> infer_instance

/-- Every other I/O instruction completes, and those of `Device` say that there is none. -/
lemma result_of_doIO {s t : Cpu} {r : IResult} (h : doIO.run s = .ok (r, t))
    (hop : 0o700 ≤ s.iw.op.toNat) :
    if s.iw.noSuchDevice then r = .iNoSuchDevice else r.Completes := by
  unfold doIO at h
  rw [StateExcept.run_bind_of_ok (StateExcept.run_gets Cpu.iw s),
    StateExcept.run_bind_of_ok (StateExcept.run_gets Cpu.ea s)] at h
  have hword : s.iw.noSuchDevice =
      (IOOp.ofBits s.iw.ioOp).noSuchDevice (.ofIODev s.iw.ioDev) := by
    rw [W36.noSuchDevice, Bool.decide_and, decide_eq_true hop, Bool.true_and,
      Bool.decide_eq_true]
  rw [hword]
  split
  case isTrue hnone => exact (returns_of_noSuchDevice hnone s.ea).out h
  case isFalse hsome =>
    exact (returns_of_not_noSuchDevice (Bool.eq_false_iff.mpr hsome) s.ea).out h

/-- The handler of a word reports one of the results for it. -/
lemma reports_of_ops {s t : Cpu} {r : IResult}
    (h : (ops s.iw.op.toNat).run s = .ok (r, t)) : s.iw.Reports r := by
  rw [W36.Reports]
  split
  case isTrue hUUO => exact (returns_of_isUUO hUUO).out h
  case isFalse hUUO =>
    split
    case isTrue hXCT =>
      rw [hXCT, ops_XCT] at h
      cases h
      rfl
    case isFalse hXCT =>
      split
      case isTrue hdevice => exact (returns_ops (Bool.eq_false_iff.mpr hUUO) hXCT hdevice).out h
      case isFalse hdevice =>
        rw [ops_io (not_lt.mp hdevice) s.iw.op.isLt] at h
        exact result_of_doIO h (not_lt.mp hdevice)

/-- Only a UUO reports that it is one. -/
lemma W36.Reports.ofUUO_iff {w : W36} {r : IResult} (h : w.Reports r) :
    r.OfUUO ↔ isUUO w.op.toNat = true := by
  rw [W36.Reports] at h
  split at h
  case isTrue hUUO => exact iff_of_true h hUUO
  case isFalse hUUO =>
    refine iff_of_false (fun hr => ?_) hUUO
    split at h
    · rw [h] at hr
      rcases hr with hr | hr <;> cases hr
    · split at h
      · rcases hr with rfl | rfl <;> rcases h with h | h | h | h | h <;> cases h
      · split at h
        · rw [h] at hr
          rcases hr with hr | hr <;> cases hr
        · rcases hr with rfl | rfl <;> rcases h with h | h <;> cases h

lemma isUUO_XCT : isUUO 0o256 = false := by decide +kernel

/-- Only XCT reports that there is an operand to execute. -/
lemma W36.Reports.eq_iXCT_iff {w : W36} {r : IResult} (h : w.Reports r) :
    r = .iXCT ↔ w.op.toNat = 0o256 := by
  rw [W36.Reports] at h
  split at h
  case isTrue hUUO =>
    refine iff_of_false (fun hr => ?_) fun hop => ?_
    · rw [hr] at h
      rcases h with h | h <;> cases h
    · rw [hop, isUUO_XCT] at hUUO
      cases hUUO
  case isFalse =>
    split at h
    case isTrue hXCT => exact iff_of_true h hXCT
    case isFalse hXCT =>
      refine iff_of_false (fun hr => ?_) hXCT
      rw [hr] at h
      split at h
      · rcases h with h | h | h | h | h <;> cases h
      · split at h
        · cases h
        · rcases h with h | h <;> cases h

/-- **The result of an instruction** of a run is one that its word may report. -/
theorem reports_of_step {s t : Cpu} {label : Cycle × IResult} (h : Step s label t) :
    s.fetchWord.Reports label.2 := by
  obtain ⟨-, last, running, nSteps, v, -, hop, -⟩ := exists_of_step h
  exact reports_of_ops (s := s.dispatched last running nSteps) hop

/-! ### Instructions other than UUOs -/

/-- An instruction other than a UUO runs a tame handler, which keeps the interrupt state if it
completes, and retires its result. -/
lemma exists_of_ordinary_step {s t : Cpu} {label : Cycle × IResult} (h : Step s label t)
    (hUUO : isUUO s.fetchWord.op.toNat = false) :
    ∃ last running nSteps v, LastLink s.fetched s.fetchWord last ∧
      Tame (s.dispatched last running nSteps) v ∧
      (label.2.Completes → v.inInterrupt = s.fetched.inInterrupt) ∧ t = v.retire label.2 := by
  obtain ⟨-, last, running, nSteps, v, hlast, hop, ht⟩ := exists_of_step h
  refine ⟨last, running, nSteps, v, hlast, ops_tame hUUO hop, fun hr => ?_, ht⟩
  rw [← dispatched_inInterrupt s last running nSteps]
  exact ops_keeps_inInterrupt hUUO s.fetchWord.op.isLt hop hr

/-- An XCT leaves the fetched machine with the address of its last link to fetch from. -/
lemma xct_step {s t : Cpu} {label : Cycle × IResult} (h : Step s label t)
    (hXCT : s.fetchWord.op.toNat = 0o256) :
    ∃ last running nSteps, LastLink s.fetched s.fetchWord last ∧
      t = { s.dispatched last running nSteps with
        fetchPC := W36.ofNat (s.fetched.linkAddress last) } := by
  obtain ⟨-, last, running, nSteps, v, hlast, hop, ht⟩ := exists_of_step h
  refine ⟨last, running, nSteps, hlast, ?_⟩
  rw [hXCT, ops_XCT, doXCT] at hop
  obtain ⟨r, hr⟩ : ∃ r, label.2 = r := ⟨_, rfl⟩
  rw [hr] at hop ht
  cases hop
  exact ht

end KM10
