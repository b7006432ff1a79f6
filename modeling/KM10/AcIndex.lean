import KM10.Effects.Address
import KM10.Effects.UUOs

/-!
The assertions on accumulator indices.

A handler that uses the accumulators AC+1 to AC+3 adds to the AC field without reducing modulo
16, so that with a high AC field the assertion in `acGetN` or `acPutN` fails.

* `withinLogic`: with AC fields low enough for its span, no handler fails the assertion;
* `faults_ops`: with a higher one, each handler with a span above one does;
* `dispatch_never_acIndex_iff`: when an instruction word is safe;
* `acIndex_MUL17`: one that is not.
-/

namespace KM10

open StateExcept

/-! ### AC fields that are low enough -/

/-- The accumulators from the AC field on, `span` of them, exist. -/
def Within (span : ℕ) (s : Cpu) : Prop := s.iw.ac.toNat + span ≤ 16

/-- An update of the state that keeps the instruction word is safe. -/
lemma safe_modify {span : ℕ} {u : Cpu → Cpu} (h : ∀ s, (u s).iw = s.iw) :
    Safe (Within span) Fault.IsAcIndex (modify u : Exec Unit) :=
  Safe.modify _ _ fun s hs => by
    rw [Within, h s]
    exact hs

/-- A reading of an accumulator that exists is safe. -/
lemma safe_acGetN {P : Cpu → Prop} {n : ℕ} (h : n < 16) :
    Safe P Fault.IsAcIndex (acGetN n) := by
  rw [acGetN, if_pos h]
  infer_instance

/-- A store to an accumulator that exists is safe. -/
lemma safe_acPutN {span : ℕ} (v : W36) {n : ℕ} (h : n < 16) :
    Safe (Within span) Fault.IsAcIndex (acPutN v n) := by
  rw [acPutN, if_pos h]
  exact safe_modify fun s => rfl

/-- A breakpoint test is safe. -/
lemma safe_checkBreakpoint {span : ℕ} (table : Cpu → List ℕ) (a : ℕ) :
    Safe (Within span) Fault.IsAcIndex (checkBreakpoint table a) := by
  have : Safe (Within span) Fault.IsAcIndex stop := safe_modify fun _ => rfl
  rw [checkBreakpoint]
  infer_instance

/-- The logic of not failing the assertion. -/
def withinLogic (span : ℕ) (hspan : 0 < span) : Logic where
  Φ m := Safe (Within span) Fault.IsAcIndex m
  span := span
  full := True
  leaves := True
  stops := True
  span_pos := hspan
  pure a := inferInstance
  bind hm hf := @Safe.bind _ _ _ _ _ _ _ _ hm hf
  gets f := inferInstance
  throw he := Safe.throw _ _ he
  stop _ := safe_modify fun _ => rfl
  checkGBPs _ := safe_checkBreakpoint _ _
  checkPBPs _ := safe_checkBreakpoint _ _
  modifyFlags _ _ := safe_modify fun _ => rfl
  acGetN h := safe_acGetN h
  acGetEA h := safe_acGetN h
  acPutN v _ h := safe_acPutN v h
  acGetPlus {k} hk :=
    { error := fun {s e} hs h => by
        rw [run_acGetPlus (by rw [Within] at hs; omega)] at h
        cases h
      ok := fun {s a t} hs h => by
        rw [run_acGetPlus (by rw [Within] at hs; omega)] at h
        cases h
        exact hs }
  acPutPlus v {k} hk :=
    { error := fun {s e} hs h => by
        rw [run_acPutPlus v (by rw [Within] at hs; omega)] at h
        cases h
      ok := fun {s a t} hs h => by
        rw [run_acPutPlus v (by rw [Within] at hs; omega)] at h
        cases h
        exact hs }
  peekMem _ := by rw [peekMem]; infer_instance
  pokeMem v _ _ := safe_modify fun _ => rfl
  putEaRH _ r := safe_modify fun _ => rfl
  stepEa _ := safe_modify fun _ => rfl
  restoreFlags _ v := safe_modify fun _ => rfl
  enterExecInInterrupt _ := by
    have : Safe (Within span) Fault.IsAcIndex
        (modifyFlags fun f => { f with usr := false, pub := false }) := safe_modify fun _ => rfl
    rw [enterExecInInterrupt]
    infer_instance
  clearUsrInInterrupt _ := by
    have : Safe (Within span) Fault.IsAcIndex
        (modifyFlags fun f => { f with usr := false }) := safe_modify fun _ => rfl
    rw [clearUsrInInterrupt]
    infer_instance
  leaveInterrupt _ := safe_modify fun _ => rfl
  modifyDevices _ g := safe_modify fun _ => rfl
  updateACBlock _ b := safe_modify fun _ => rfl

section UUOs

variable {span : ℕ} [hspan : Fact (0 < span)]

/-- What holds in the logic is safe. -/
lemma safe_of_holds {α : Type} (m : Exec α) [h : Holds (withinLogic span hspan.out) m] :
    Safe (Within span) Fault.IsAcIndex m := h.out

instance (a : W36) : Safe (Within span) Fault.IsAcIndex (memGetN a) := safe_of_holds _
instance (v a : W36) : Safe (Within span) Fault.IsAcIndex (memPutN v a) := safe_of_holds _
instance (n : ℕ) : Safe (Within span) Fault.IsAcIndex (uptGetN n) := safe_of_holds _
instance (v : W36) (n : ℕ) : Safe (Within span) Fault.IsAcIndex (uptPutN v n) := safe_of_holds _
instance (a : BitVec 18) : Safe (Within span) Fault.IsAcIndex (peekMem a) := by
  rw [peekMem]
  infer_instance
instance : Safe (Within span) Fault.IsAcIndex userMode := safe_of_holds _
instance (v : W36) : Safe (Within span) Fault.IsAcIndex (setFetchPC v) := safe_modify fun _ => rfl
instance (v : W36) : Safe (Within span) Fault.IsAcIndex (setPc v) := safe_modify fun _ => rfl
instance (n : ℕ) : Safe (Within span) Fault.IsAcIndex (setPcOffset n) := safe_modify fun _ => rfl
instance (b : Bool) : Safe (Within span) Fault.IsAcIndex (setInInterrupt b) :=
  safe_modify fun _ => rfl
instance (g : ProgramFlags → ProgramFlags) :
    Safe (Within span) Fault.IsAcIndex (modifyFlags g) := safe_modify fun _ => rfl

set_option synthInstance.maxSize 800 in
instance : Safe (Within span) Fault.IsAcIndex doMUUO := by
  rw [doMUUO]
  infer_instance

set_option synthInstance.maxSize 800 in
instance : Safe (Within span) Fault.IsAcIndex doLUUO := by
  rw [doLUUO]
  infer_instance

instance : Safe (Within span) Fault.IsAcIndex doJSYS := by
  rw [doJSYS]
  infer_instance

end UUOs

/-- Every handler reaches an accumulator. -/
lemma acSpan_pos (op : ℕ) : 0 < acSpan op := by
  rw [acSpan]
  split
  · decide
  · split <;> decide

/-- With an AC field that is low enough no handler fails the assertion. -/
lemma safe_ops (op : ℕ) : Safe (Within (acSpan op)) Fault.IsAcIndex (ops op) := by
  have : Fact (0 < acSpan op) := ⟨acSpan_pos op⟩
  cases hUUO : isUUO op with
  | false =>
      have : Fact (withinLogic (acSpan op) (acSpan_pos op)).full := ⟨trivial⟩
      have : Fact (withinLogic (acSpan op) (acSpan_pos op)).stops := ⟨trivial⟩
      exact (ops_holds (withinLogic (acSpan op) (acSpan_pos op)) hUUO le_rfl fun _ => trivial).out
  | true =>
      rcases ops_of_isUUO hUUO with h | h | h <;> rw [h] <;> infer_instance

/-! ### AC fields that are too high -/

/-- The accumulator `n` beyond the AC field does not exist. -/
def Beyond (n : ℕ) (s : Cpu) : Prop := 16 ≤ s.iw.ac.toNat + n

section Faults

variable {n : ℕ}

/-- A computation that returns in every state, and keeps the instruction word. -/
lemma safe_of_returns {α : Type} {m : Exec α} {f : Cpu → α} {u : Cpu → Cpu}
    (hrun : ∀ s, m.run s = .ok (f s, u s)) (hiw : ∀ s, (u s).iw = s.iw) :
    Safe (Beyond n) (fun e => ¬ e.IsAcIndex) m where
  error := by
    intro s e _ h
    rw [hrun] at h
    cases h
  ok := by
    intro s a t hs h
    rw [hrun] at h
    cases h
    rw [Beyond, hiw s]
    exact hs

instance (a : W36) : Safe (Beyond n) (fun e => ¬ e.IsAcIndex) (memGetN a) :=
  safe_of_returns (run_memGetN a) fun _ => rfl

instance (v a : W36) : Safe (Beyond n) (fun e => ¬ e.IsAcIndex) (memPutN v a) :=
  safe_of_returns (run_memPutN v a) fun s => setWord_iw s v a.rhu

instance (g : ProgramFlags → ProgramFlags) :
    Safe (Beyond n) (fun e => ¬ e.IsAcIndex) (modifyFlags g) :=
  safe_of_returns (fun _ => rfl) fun _ => rfl

/-- The assertion may fail, but nothing else. -/
instance (k : ℕ) : Safe (Beyond n) (fun e => ¬ e.IsAcIndex) (acGetPlus k) where
  error := by
    intro s e hs h
    by_cases hk : s.iw.ac.toNat + k < 16
    · rw [run_acGetPlus hk] at h
      cases h
    · rw [acGetPlus, run_bind_of_ok (run_gets Cpu.iw s), acGetN, if_neg hk] at h
      cases h
      exact not_not.mpr trivial
  ok := by
    intro s a t hs h
    by_cases hk : s.iw.ac.toNat + k < 16
    · rw [run_acGetPlus hk] at h
      cases h
      exact hs
    · rw [acGetPlus, run_bind_of_ok (run_gets Cpu.iw s), acGetN, if_neg hk] at h
      cases h

/-- The assertion may fail, but nothing else. -/
instance (v : W36) (k : ℕ) : Safe (Beyond n) (fun e => ¬ e.IsAcIndex) (acPutPlus v k) where
  error := by
    intro s e hs h
    by_cases hk : s.iw.ac.toNat + k < 16
    · rw [run_acPutPlus v hk] at h
      cases h
    · rw [acPutPlus, run_bind_of_ok (run_gets Cpu.iw s), acPutN, if_neg hk] at h
      cases h
      exact not_not.mpr trivial
  ok := by
    intro s a t hs h
    by_cases hk : s.iw.ac.toNat + k < 16
    · rw [run_acPutPlus v hk] at h
      cases h
      exact hs
    · rw [acPutPlus, run_bind_of_ok (run_gets Cpu.iw s), acPutN, if_neg hk] at h
      cases h

/-- A reading beyond the accumulators fails the assertion. -/
instance : Faults (Beyond n) Fault.IsAcIndex (acGetPlus n) where
  out := by
    intro s hs
    refine ⟨.acIndex (s.iw.ac.toNat + n), ?_, trivial⟩
    rw [acGetPlus, run_bind_of_ok (run_gets Cpu.iw s), acGetN, if_neg (not_lt.mpr hs)]
    rfl

/-- A store beyond the accumulators fails the assertion. -/
instance (v : W36) : Faults (Beyond n) Fault.IsAcIndex (acPutPlus v n) where
  out := by
    intro s hs
    refine ⟨.acIndex (s.iw.ac.toNat + n), ?_, trivial⟩
    rw [acPutPlus, run_bind_of_ok (run_gets Cpu.iw s), acPutN, if_neg (not_lt.mpr hs)]
    rfl

instance : Safe (Beyond n) (fun e => ¬ e.IsAcIndex) acGet := by rw [acGet]; infer_instance
instance (v : W36) : Safe (Beyond n) (fun e => ¬ e.IsAcIndex) (acPut v) := by
  rw [acPut]
  infer_instance
instance : Safe (Beyond n) (fun e => ¬ e.IsAcIndex) memGet := by rw [memGet]; infer_instance
instance (v : W36) : Safe (Beyond n) (fun e => ¬ e.IsAcIndex) (memPut v) := by
  rw [memPut]
  infer_instance
instance : Safe (Beyond n) (fun e => ¬ e.IsAcIndex) immediate := by
  rw [immediate]
  infer_instance
instance : Safe (Beyond n) (fun e => ¬ e.IsAcIndex) acGet2 := by rw [acGet2]; infer_instance
instance : Safe (Beyond n) (fun e => ¬ e.IsAcIndex) userMode := by
  rw [userMode]
  infer_instance
instance : Safe (Beyond n) (fun e => ¬ e.IsAcIndex) memGetPairU := by
  rw [memGetPairU]
  infer_instance
instance : Safe (Beyond n) (fun e => ¬ e.IsAcIndex) memGetPairVma := by
  rw [memGetPairVma]
  infer_instance
instance (k : ℤ) : Safe (Beyond n) (fun e => ¬ e.IsAcIndex) (shiftCount k) := by
  rw [shiftCount]
  infer_instance
instance (a b : W36) : Safe (Beyond n) (fun e => ¬ e.IsAcIndex) (mulWord a b) := by
  rw [mulWord]
  infer_instance
instance (a b : W36) : Safe (Beyond n) (fun e => ¬ e.IsAcIndex) (idivWord a b) := by
  rw [idivWord]
  infer_instance

end Faults

instance : Faults (Beyond 1) Fault.IsAcIndex acGet2 := by rw [acGet2]; infer_instance
instance (v : W72) : Faults (Beyond 1) Fault.IsAcIndex (acPut2 v) := by
  rw [acPut2]
  infer_instance
instance (v : W72) : Faults (Beyond 1) Fault.IsAcIndex (bothPut2 v) := by
  rw [bothPut2]
  infer_instance
instance (a b c d : W36) : Faults (Beyond 3) Fault.IsAcIndex (acPutQuad a b c d) := by
  rw [acPutQuad]
  infer_instance

instance {α β : Type} (get1 : Exec α) (get2 : Exec W36) (op : α → W36 → Exec β)
    (put : β → Exec Unit) [Safe (Beyond 1) (fun e => ¬ e.IsAcIndex) get1]
    [Safe (Beyond 1) (fun e => ¬ e.IsAcIndex) get2]
    [∀ a b, Safe (Beyond 1) (fun e => ¬ e.IsAcIndex) (op a b)]
    [∀ v, Faults (Beyond 1) Fault.IsAcIndex (put v)] :
    Faults (Beyond 1) Fault.IsAcIndex (binInsn get1 get2 op put) := by
  rw [binInsn]
  infer_instance

instance {β : Type} (get2 : Exec W36) (op : W72 → W36 → Exec β) (put : β → Exec Unit) :
    Faults (Beyond 1) Fault.IsAcIndex (binInsn acGet2 get2 op put) := by
  rw [binInsn]
  infer_instance

instance : Faults (Beyond 1) Fault.IsAcIndex doDADD := by rw [doDADD]; infer_instance
instance : Faults (Beyond 1) Fault.IsAcIndex doDSUB := by rw [doDSUB]; infer_instance
instance : Faults (Beyond 1) Fault.IsAcIndex doDMOVE := by rw [doDMOVE]; infer_instance
instance : Faults (Beyond 1) Fault.IsAcIndex doDMOVN := by rw [doDMOVN]; infer_instance
instance : Faults (Beyond 1) Fault.IsAcIndex doDMOVNM := by rw [doDMOVNM]; infer_instance
instance : Faults (Beyond 1) Fault.IsAcIndex doDMOVEM := by rw [doDMOVEM]; infer_instance
instance : Faults (Beyond 1) Fault.IsAcIndex doASHC := by rw [doASHC]; infer_instance
instance : Faults (Beyond 1) Fault.IsAcIndex doROTC := by rw [doROTC]; infer_instance
instance : Faults (Beyond 1) Fault.IsAcIndex doLSHC := by rw [doLSHC]; infer_instance
instance : Faults (Beyond 1) Fault.IsAcIndex doJFFO := by rw [doJFFO]; infer_instance
instance : Faults (Beyond 3) Fault.IsAcIndex doDMUL := by rw [doDMUL]; infer_instance
instance : Faults (Beyond 3) Fault.IsAcIndex doDDIV := by rw [doDDIV]; infer_instance

/-! ### The dispatch table -/

/-- A handler that reaches several accumulators fails the assertion when the last of them
does not exist. -/
def FaultEntry (e : ℕ × Handler) : Prop :=
  1 < acSpan e.1 → Faults (Beyond (acSpan e.1 - 1)) Fault.IsAcIndex e.2

lemma faultEntry_IntBin : ∀ e ∈ installIntBinGroup, FaultEntry e := by
  simp only [installIntBinGroup, List.forall_mem_cons, List.not_mem_nil, false_imp_iff,
    implies_true, and_true]
  and_intros <;>
    first
    | exact fun hspan => absurd hspan (by decide)
    | exact fun _ => (inferInstance : Faults (Beyond 1) Fault.IsAcIndex _)

lemma faultEntry_DWord : ∀ e ∈ installDWordGroup, FaultEntry e := by
  simp only [installDWordGroup, List.forall_mem_cons, List.not_mem_nil, false_imp_iff,
    implies_true, and_true]
  and_intros <;>
    first
    | exact fun _ => (inferInstance : Faults (Beyond 1) Fault.IsAcIndex _)
    | exact fun _ => (inferInstance : Faults (Beyond 3) Fault.IsAcIndex _)

/-- The opcodes that reach several accumulators belong to two of the groups. -/
lemma mem_groups_of_acSpan {op : ℕ} (h : 1 < acSpan op) :
    op ∈ (installIntBinGroup ++ installDWordGroup).map Prod.fst := by
  have hall : ∀ op ∈ [0o116, 0o117, 0o114, 0o115, 0o120, 0o121, 0o124, 0o125, 0o224, 0o225, 0o227,
      0o230, 0o231, 0o233, 0o234, 0o235, 0o236, 0o237, 0o243, 0o244, 0o245, 0o246],
      op ∈ (installIntBinGroup ++ installDWordGroup).map Prod.fst := by decide +kernel
  refine hall op ?_
  rw [acSpan] at h
  split at h
  case isTrue hquad => exact List.mem_append_left _ hquad
  case isFalse =>
    split at h
    case isTrue hpair => exact List.mem_append_right [0o116, 0o117] hpair
    case isFalse => exact absurd h (lt_irrefl 1)

/-- With an AC field that is too high every such handler fails the assertion. -/
lemma faults_ops {op : ℕ} (h : 1 < acSpan op) :
    Faults (Beyond (acSpan op - 1)) Fault.IsAcIndex (ops op) := by
  obtain ⟨⟨op', handler⟩, hmem, rfl⟩ := List.mem_map.mp (mem_groups_of_acSpan h)
  have hentry : FaultEntry (op', handler) := by
    rcases List.mem_append.mp hmem with hmem | hmem
    · exact faultEntry_IntBin _ hmem
    · exact faultEntry_DWord _ hmem
  have hinstalled : (op', handler) ∈ installs := by
    rw [List.mem_append] at hmem
    rw [mem_installs]
    tauto
  change Faults (Beyond (acSpan op' - 1)) Fault.IsAcIndex (ops op')
  rw [ops_of_mem hinstalled]
  exact hentry h

/-- A handler that returned found the accumulators that it reaches. -/
lemma lt_of_returned {n : ℕ} {m : Handler} [hm : Faults (Beyond n) Fault.IsAcIndex m]
    {s t : Cpu} {r : IResult} (h : m.run s = .ok (r, t)) : s.iw.ac.toNat + n < 16 := by
  by_contra hlt
  obtain ⟨e, he, -⟩ := hm.out (s := s) (not_lt.mp hlt)
  rw [h] at he
  cases he

/-- **The assertions on accumulator indices**: an instruction word trips one exactly when the
last accumulator that its handler reaches lies beyond the block, unless the calculation of
its effective address never ends. -/
theorem dispatch_never_acIndex_iff (u : Cpu) :
    (∀ n, dispatch.run u ≠ .error (.acIndex n)) ↔
      u.iw.ac.toNat + acSpan u.iw.op.toNat ≤ 16 ∨ ¬ ∃ last, LastLink u u.iw last := by
  by_cases hlink : ∃ last, LastLink u u.iw last
  · obtain ⟨last, hlast⟩ := hlink
    rw [or_iff_left (not_not.mpr ⟨last, hlast⟩)]
    obtain ⟨running, -, hdispatch⟩ := run_dispatch_of_lastLink hlast
    let t : Cpu := { u with running := running, ea := W36.ofNat (u.linkAddress last) }
    rw [hdispatch]
    by_cases hspan : u.iw.ac.toNat + acSpan u.iw.op.toNat ≤ 16
    · have hwithin : Within (acSpan u.iw.op.toNat) t := hspan
      exact iff_of_true (fun n hn => (safe_ops _).error hwithin hn trivial) hspan
    · have hac := u.iw.ac.isLt
      have hbeyond : Beyond (acSpan u.iw.op.toNat - 1) t := by
        change 16 ≤ u.iw.ac.toNat + (acSpan u.iw.op.toNat - 1)
        omega
      have hone : 1 < acSpan u.iw.op.toNat := by omega
      obtain ⟨e, he, hindex⟩ := (faults_ops hone).out hbeyond
      refine iff_of_false (fun hnever => ?_) hspan
      cases e with
      | acIndex n => exact hnever n he
      | hang => exact hindex
      | undefined => exact hindex
  · refine iff_of_true (fun n hn => ?_) (.inr hlink)
    rw [dispatch, run_bind_of_ok (run_gets Cpu.iw u),
      run_bind_of_error (run_getEA_of_no_lastLink hlink)] at hn
    cases hn

/-- The machine that is about to dispatch MUL 17,0. -/
def Cpu.atMUL17 : Cpu := { Cpu.initial with iw := W36.assemble 0o224 0o17 false 0 0 }

/-- MUL 17,0 stores the low word of its product in accumulator 16. -/
theorem acIndex_MUL17 : dispatch.run Cpu.atMUL17 = .error (.acIndex 16) :=
  error_of_stopped (by decide +kernel)

end KM10
