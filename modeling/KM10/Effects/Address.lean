import KM10.Effects.Pass
import KM10.Library.Chase

/-!
The effective address calculation on a state.

An address word is a link: it names an address by its Y and X fields, and its I bit says
whether the word there is the next link.  `getEA` follows the links.

* `LastLink s w w'`: the links from the word `w` on lead to `w'`, the first one without I;
* `run_getEA_of_lastLink`: `getEA` then returns the address of `w'`;
* `run_getEA_of_no_lastLink`: without a last link it never ends;
* `run_dispatch_of_lastLink`, `exists_of_dispatch`: an instruction is dispatched with the
  address of its last link;
* `exists_of_step`: so is every instruction of a run;
* `exists_step`: and every instruction is executed whose handler then returns.
-/

namespace KM10

open StateExcept

/-! ### Links -/

/-- The address that a link names: the whole index register is added to its Y field. -/
def Cpu.linkAddress (s : Cpu) (w : W36) : ℕ :=
  if w.x ≠ 0 then w.y.toNat + (s.acs w.x).toNat else w.y.toNat

/-- The word at the address that a link names. -/
def Cpu.nextLink (s : Cpu) (w : W36) : W36 := s.word (W36.ofNat (s.linkAddress w)).rhu

/-- The links from a word on lead to the last one, which has no I bit. -/
abbrev LastLink (s : Cpu) : W36 → W36 → Prop := Chase.Ends s.nextLink fun w => !w.i

/-- Two words lead to the same last link only if it is one and the same. -/
lemma LastLink.unique {s : Cpu} {w a b : W36} (ha : LastLink s w a) (hb : LastLink s w b) :
    a = b := by
  induction ha with
  | here h =>
      cases hb with
      | here _ => rfl
      | there h' _ => rw [h] at h'; cases h'
  | there h _ ih =>
      cases hb with
      | here h' => rw [h] at h'; cases h'
      | there _ rest => exact ih rest

/-! ### The loop -/

/-- The indexing step adds up the address of a link. -/
lemma run_indexed (w : W36) (s : Cpu) :
    (indexed w.x w.y.toNat).run s = .ok (s.linkAddress w, s) := by
  rw [indexed, Cpu.linkAddress]
  split
  case isTrue =>
    have hac : (acGetN w.x.toNat).run s = .ok (s.acs w.x, s) := by
      rw [acGetN, if_pos w.x.isLt, run_gets, BitVec.ofNat_toNat, BitVec.setWidth_eq]
    rw [run_bind_of_ok hac]
    rfl
  case isFalse => rfl

/-- The loop follows the links, by induction on its rounds; on the way it at most stops the
machine. -/
lemma run_getEALoop (fuel : ℕ) (w : W36) (s : Cpu) :
    ((getEALoop fuel w.i w.x w.y.toNat).run s = .error .hang ∧
        Chase.follow s.nextLink (fun w => !w.i) fuel w = none) ∨
      ∃ last running, Chase.follow s.nextLink (fun w => !w.i) fuel w = some last ∧
        (s.addressGBPs = [] → running = s.running) ∧
        (getEALoop fuel w.i w.x w.y.toNat).run s =
          .ok (s.linkAddress last, { s with running := running }) := by
  induction fuel generalizing w s with
  | zero => exact .inl ⟨rfl, rfl⟩
  | succ fuel ih =>
      rw [getEALoop, run_bind_of_ok (run_indexed w s), Chase.follow]
      cases hi : w.i with
      | false => exact .inr ⟨w, s.running, rfl, fun _ => rfl, rfl⟩
      | true =>
          simp only [if_true, Bool.not_true, Bool.false_eq_true, if_false]
          rw [run_bind_of_ok (run_memGetN _ s)]
          let t := s.hit s.addressGBPs (W36.ofNat (s.linkAddress w)).vma.toNat
          -- the machine after the fetch of the link has the same links
          rcases ih (s.nextLink w) t with h | ⟨last, running, hfollow, hrunning, hrun⟩
          · exact .inl h
          · refine .inr ⟨last, running, hfollow, fun hnone => ?_, hrun⟩
            rw [hrunning hnone]
            change (s.running && !s.addressGBPs.contains _) = s.running
            rw [hnone]
            exact Bool.and_true _

/-- The word that a link names depends only on the right half of its address, so that
`eaRounds` rounds find the last link if there is one. -/
lemma follow_of_lastLink {s : Cpu} {w last : W36} (h : LastLink s w last) :
    Chase.follow s.nextLink (fun w => !w.i) eaRounds w = some last := by
  refine Chase.follow_of_ends (fun w => (W36.ofNat (s.linkAddress w)).rhu.isLt) ?_ h
  intro a b hab
  rw [Cpu.nextLink, Cpu.nextLink, BitVec.eq_of_toNat_eq hab]

/-- **The effective address** is that of the last link. -/
theorem run_getEA_of_lastLink {s : Cpu} {w last : W36} (h : LastLink s w last) :
    ∃ running, (s.addressGBPs = [] → running = s.running) ∧
      (getEA w.i w.x w.y.toNat).run s =
        .ok (s.linkAddress last, { s with running := running }) := by
  rcases run_getEALoop eaRounds w s with ⟨-, hnone⟩ | ⟨last', running, hsome, hrunning, hrun⟩
  · rw [follow_of_lastLink h] at hnone
    cases hnone
  · rw [follow_of_lastLink h] at hsome
    cases hsome
    exact ⟨running, hrunning, hrun⟩

/-- **Links without an end** are followed for ever. -/
theorem run_getEA_of_no_lastLink {s : Cpu} {w : W36} (h : ¬ ∃ last, LastLink s w last) :
    (getEA w.i w.x w.y.toNat).run s = .error .hang := by
  rcases run_getEALoop eaRounds w s with ⟨hrun, -⟩ | ⟨last, running, hsome, -, -⟩
  · exact hrun
  · exact absurd ⟨last, Chase.ends_of_follow hsome⟩ h

/-! ### The dispatch -/

lemma run_setEa (v : W36) (s : Cpu) : (setEa v).run s = .ok ((), { s with ea := v }) := rfl

/-- An instruction with a last link is dispatched with its address. -/
lemma run_dispatch_of_lastLink {u : Cpu} {last : W36} (h : LastLink u u.iw last) :
    ∃ running, (u.addressGBPs = [] → running = u.running) ∧
      dispatch.run u = (ops u.iw.op.toNat).run
        { u with running := running, ea := W36.ofNat (u.linkAddress last) } := by
  obtain ⟨running, hrunning, hrun⟩ := run_getEA_of_lastLink h
  refine ⟨running, hrunning, ?_⟩
  rw [dispatch, run_bind_of_ok (run_gets Cpu.iw u), run_bind_of_ok hrun,
    run_bind_of_ok (run_setEa _ _)]

/-- An instruction that returns was dispatched with the address of its last link. -/
lemma exists_of_dispatch {u v : Cpu} {r : IResult} (h : dispatch.run u = .ok (r, v)) :
    ∃ last running, LastLink u u.iw last ∧ (ops u.iw.op.toNat).run
      { u with running := running, ea := W36.ofNat (u.linkAddress last) } = .ok (r, v) := by
  by_cases hlink : ∃ last, LastLink u u.iw last
  · obtain ⟨last, hlast⟩ := hlink
    obtain ⟨running, -, hrun⟩ := run_dispatch_of_lastLink hlast
    exact ⟨last, running, hlast, hrun ▸ h⟩
  · rw [dispatch, run_bind_of_ok (run_gets Cpu.iw u),
      run_bind_of_error (run_getEA_of_no_lastLink hlink)] at h
    cases h

/-! ### One instruction of a run -/

/-- The machine on which a pass runs the handler: the instruction is fetched, its effective
address is that of the last link, and the run flag and the step counter are any. -/
def Cpu.dispatched (s : Cpu) (last : W36) (running : Bool) (nSteps : ℤ) : Cpu :=
  { s.fetched with
    running := running, nSteps := nSteps, ea := W36.ofNat (s.fetched.linkAddress last) }

section Dispatched

variable (s : Cpu) (last : W36) (running : Bool) (nSteps : ℤ)

@[simp] lemma dispatched_flags : (s.dispatched last running nSteps).flags = s.flags :=
  fetched_flags s

@[simp] lemma dispatched_pc : (s.dispatched last running nSteps).pc = s.pc := fetched_pc s

@[simp] lemma dispatched_iw : (s.dispatched last running nSteps).iw = s.fetchWord := rfl

@[simp] lemma dispatched_ea :
    (s.dispatched last running nSteps).ea = W36.ofNat (s.fetched.linkAddress last) := rfl

lemma dispatched_inInterrupt :
    (s.dispatched last running nSteps).inInterrupt = s.fetched.inInterrupt := rfl

end Dispatched

/-- **One instruction of a run** is dispatched with the address of its last link, and its
result is retired. -/
theorem exists_of_step {s t : Cpu} {label : Cycle × IResult} (h : Step s label t) :
    label.1 = s.cycle ∧ ∃ last running nSteps v, LastLink s.fetched s.fetchWord last ∧
      (ops s.fetchWord.op.toNat).run (s.dispatched last running nSteps) = .ok (label.2, v) ∧
      t = v.retire label.2 := by
  obtain ⟨command, h⟩ := h
  obtain ⟨hcycle, running, nSteps, v, hd, ht⟩ := executed_of_pass h
  obtain ⟨last, running', hlast, hop⟩ := exists_of_dispatch hd
  exact ⟨hcycle, last, running', nSteps, v, hlast, hop, ht⟩

/-- An execution whose handler returns goes on to the end of the pass. -/
lemma exists_of_execute {s : Cpu} {last : W36} (hlast : LastLink s.fetched s.fetchWord last)
    (h : ∀ running nSteps, ∃ r v,
      (ops s.fetchWord.op.toNat).run (s.dispatched last running nSteps) = .ok (r, v))
    (cycle : Cycle) (running : Bool) (nSteps : ℤ) :
    ∃ r t, (execute cycle).run (s.fetched.ticked running nSteps) =
      .ok (.executed cycle r, t) := by
  obtain ⟨running1, nSteps1, hcount⟩ := countStep_ticked (s.fetched.ticked running nSteps)
  let u := (s.fetched.ticked running nSteps).ticked running1 nSteps1
  obtain ⟨running2, -, hdispatch⟩ := run_dispatch_of_lastLink (u := u) hlast
  obtain ⟨r, v, hrun⟩ := h running2 nSteps1
  refine ⟨r, v.retire r, ?_⟩
  rw [execute, run_bind_of_ok hcount, run_bind_of_ok (hdispatch.trans hrun)]
  rfl

/-- **An instruction with a last link whose handler returns is executed**, also when the debugger
is entered, if the user then continues. -/
theorem exists_step {s : Cpu} {last : W36} (hlast : LastLink s.fetched s.fetchWord last)
    (h : ∀ running nSteps, ∃ r v,
      (ops s.fetchWord.op.toNat).run (s.dispatched last running nSteps) = .ok (r, v)) :
    ∃ label t, Step s label t := by
  have hexec := exists_of_execute hlast h s.cycle
  cases hrunning : s.fetched.running with
  | true =>
      obtain ⟨r, t, hrun⟩ := hexec s.fetched.running s.fetched.nSteps
      refine ⟨(s.cycle, r), t, .continue, ?_⟩
      rw [run_pass, hrunning, if_pos rfl]
      exact hrun
  | false =>
      obtain ⟨r, t, hrun⟩ := hexec true 0
      have hresume : (resume 0).run s.fetched = .ok ((), s.fetched.ticked true 0) := rfl
      refine ⟨(s.cycle, r), t, .continue, ?_⟩
      rw [run_pass, hrunning, if_neg Bool.false_ne_true, debug, run_bind_of_ok hresume]
      exact hrun

end KM10
