import KM10.Arith.Addition
import KM10.Effects.Stack
import KM10.Effects.Steps
import KM10.Reference.Machine

/-!
The handlers and the reference machine.

* `Cpu.reference`: the reference machine that a machine shows;
* `word_put`, `word_putAC`, `word_store`, `address_iff`: its stores and addresses are those of the
  code;
* `Follows`, `Cpu.Executes`: a handler does to the words and the PC what an instruction does;
* `follows_move` to `follows_jra`: the handlers, family by family;
* `exists_follows`: the handler of every instruction.
-/

namespace KM10

open StateExcept

/-! ### The reference machine of a machine -/

/-- The words and the address of the PC. -/
def Cpu.reference (s : Cpu) : Reference := ⟨s.word, s.pc.rhu⟩

@[simp] lemma reference_word (s : Cpu) : s.reference.word = s.word := rfl
@[simp] lemma reference_pc (s : Cpu) : s.reference.pc = s.pc.rhu := rfl
@[simp] lemma reference_ac (s : Cpu) (n : BitVec 4) : s.reference.ac n = s.acs n :=
  (acs_eq_word s n).symm

/-- A store to an address. -/
lemma word_put (s : Cpu) (v : W36) (a : BitVec 18) {m : Reference} (h : m.word = s.word) :
    (m.put v a).word = (s.setWord v a).word := by
  funext b
  change Function.update m.word a v b = _
  rw [h, Function.update_apply]
  split
  case isTrue hb => rw [hb, word_setWord]
  case isFalse hb => rw [word_setWord_of_ne hb]

/-- A store to an accumulator. -/
lemma word_putAC (s : Cpu) (v : W36) (n : BitVec 4) {m : Reference} (h : m.word = s.word) :
    (m.putAC v n).word = (s.setAC v n).word := by
  funext b
  change Function.update m.word (n.setWidth 18) v b = _
  rw [h, Function.update_apply, word_setAC]

/-- A store to the destination of an instruction. -/
lemma word_store (s : Cpu) (v : W36) (d : Dest) :
    (s.reference.store s.iw.ac s.ea.rhu v d).word = (s.store v d).word := by
  cases d with
  | ac => exact word_putAC s v s.iw.ac rfl
  | mem => exact word_put s v s.ea.rhu rfl
  | both => exact word_put _ v s.ea.rhu (word_putAC s v s.iw.ac rfl)
  | self =>
      rw [Reference.store, Cpu.store]
      split
      · exact word_put s v s.ea.rhu rfl
      · exact word_putAC _ v s.iw.ac (word_put s v s.ea.rhu rfl)

lemma pc_store (m : Reference) (n : BitVec 4) (e : BitVec 18) (v : W36) (d : Dest) :
    (m.store n e v d).pc = m.pc := by
  cases d with
  | self =>
      rw [Reference.store]
      split <;> rfl
  | _ => rfl

lemma pc_pushed (m : Reference) (n : BitVec 4) (v : W36) : (m.pushed n v).pc = m.pc := by
  rw [Reference.pushed]
  split <;> rfl

/-- The addresses that words name. -/
lemma linkAddress_reference (s : Cpu) (w : W36) :
    (W36.ofNat (s.linkAddress w)).rhu = s.reference.linkAddress w := by
  have hofNat (n : ℕ) : (W36.ofNat n).rhu = BitVec.ofNat 18 n :=
    BitVec.eq_of_toNat_eq (by rw [W36.toNat_rhu_ofNat, BitVec.toNat_ofNat])
  rw [hofNat, Cpu.linkAddress, Reference.linkAddress]
  split
  case isTrue =>
    rw [reference_ac, BitVec.ofNat_add, BitVec.ofNat_toNat, BitVec.setWidth_eq]
    congr 1
  case isFalse => rw [BitVec.ofNat_toNat, BitVec.setWidth_eq]

/-- The effective address of a word is that of its last link. -/
lemma address_iff {s : Cpu} {w : W36} {e : BitVec 18} :
    s.reference.Address w e ↔
      ∃ last, LastLink s w last ∧ (W36.ofNat (s.linkAddress last)).rhu = e := by
  have hnext : s.nextLink = s.reference.nextLink := by
    funext w
    rw [Cpu.nextLink, linkAddress_reference]
    rfl
  rw [Reference.Address, LastLink, hnext]
  simp only [linkAddress_reference]

/-! ### The handlers -/

/-- A handler that reports `r` and leaves `v` has done to the words and to the PC what makes the
reference machine `t`, and nothing to the devices. -/
structure Follows (u : Cpu) (r : IResult) (v : Cpu) (t : Reference) : Prop where
  word : v.word = t.word
  devices : v.toDevices = u.toDevices
  inInterrupt : (v.retire r).inInterrupt = false
  fetch : (v.retire r).fetchPC.vma = (v.retire r).pc.vma
  pc : (v.retire r).pc.rhu = t.pc

/-- The handler of an opcode does what an instruction of the reference machine does. -/
def Cpu.Executes (u : Cpu) (op : ℕ) (left : BitVec 18) (o : Operation) : Prop :=
  ∃ r v, (ops op).run u = .ok (r, v) ∧
    Follows u r v (u.reference.execute u.iw.ac u.ea.rhu left o)

/-- The address behind the next `n` words. -/
lemma rhu_advance (s : Cpu) (n : ℕ) : (s.advance n).pc.rhu = s.pc.rhu + BitVec.ofNat 18 n := by
  apply BitVec.eq_of_toNat_eq
  rw [W36.rhu_eq_vma, vma_advance, W36.rhu_eq_vma, BitVec.extractLsb'_toNat, BitVec.toNat_add,
    BitVec.toNat_add, BitVec.extractLsb'_toNat, BitVec.toNat_ofNat, BitVec.toNat_ofNat]
  omega

section Follows

variable {u v : Cpu} {m : Reference} (hword : v.word = m.word)
  (hdevices : v.toDevices = u.toDevices) (hin : v.inInterrupt = false)
include hword hdevices hin

lemma Follows.advance (hpc : v.pc.rhu = m.pc) {r : IResult} (hr : r = .iNormal ∨ r = .iTrap) :
    Follows u r v (m.advance 1) := by
  have hretire : v.retire r = v.advance 1 := by
    rcases hr with rfl | rfl
    · exact retire_iNormal hin
    · rfl
  refine ⟨hword, hdevices, ?_, ?_, ?_⟩ <;> rw [hretire]
  · exact hin
  · rw [vma_advance, fetch_vma_advance]
  · rw [rhu_advance, hpc]
    rfl

lemma Follows.skip (hpc : v.pc.rhu = m.pc) : Follows u .iSkip v (m.advance 2) := by
  refine ⟨hword, hdevices, ?_, ?_, ?_⟩ <;> rw [retire_iSkip hin]
  · exact hin
  · rw [vma_advance, fetch_vma_advance]
  · rw [rhu_advance, hpc]
    rfl

omit hin in
lemma Follows.jump {e : BitVec 18} (hea : v.ea.rhu = e) : Follows u .iJump v (m.jump e) := by
  refine ⟨hword, hdevices, rfl, ?_, ?_⟩
  · rw [vma_retire_iJump, fetch_vma_retire_iJump]
  · rw [W36.rhu_eq_vma, vma_retire_iJump, ← W36.rhu_eq_vma, hea]
    rfl

end Follows

/-! ### The families -/

section Families

variable {u : Cpu} (hin : u.inInterrupt = false) (hpc : u.pc.isSection0 = true)
include hin hpc

omit hin in
/-- The operands of an instruction of section 0. -/
lemma reference_operands (mode : ℕ) :
    u.reference.modeSource u.iw.ac u.ea.rhu mode = u.modeSource mode ∧
      u.reference.modeTarget u.iw.ac u.ea.rhu mode = u.modeTarget mode ∧
      u.reference.operand u.ea.rhu mode = u.booleanOperand mode := by
  have himmediate : u.immediateOperand = .halves 0 u.ea.rhu := by
    rw [Cpu.immediateOperand, hpc, if_pos rfl]
  refine ⟨?_, ?_, ?_⟩
  · rw [Reference.modeSource, Cpu.modeSource, himmediate, reference_ac]
    rfl
  · rw [Reference.modeTarget, Cpu.modeTarget, reference_ac]
    rfl
  · rw [Reference.operand, Cpu.booleanOperand, himmediate]
    rfl

omit hin hpc in
lemma store_toDevices (s : Cpu) (v : W36) (d : Dest) : (s.store v d).toDevices = s.toDevices :=
  @store_keeps _ Cpu.toDevices (fun _ _ _ => rfl) setWord_toDevices s v d

omit hpc in
/-- A handler that stores a word at the destination of its instruction, and perhaps flags. -/
lemma follows_of_store {h : Handler} {v : W36} {d : Dest}
    (hrun : ∃ running flags, h.run u =
      .ok (.iNormal, { u.store v d with running := running, flags := flags })) :
    ∃ r w, h.run u = .ok (r, w) ∧
      Follows u r w ((u.reference.store u.iw.ac u.ea.rhu v d).advance 1) := by
  obtain ⟨running, flags, hrun⟩ := hrun
  let w : Cpu := { u.store v d with running := running, flags := flags }
  have hpc : w.pc.rhu = (u.reference.store u.iw.ac u.ea.rhu v d).pc := by
    rw [pc_store]
    exact congrArg W36.rhu (store_pc u v d)
  refine ⟨.iNormal, w, hrun, ?_⟩
  exact .advance (v := w) (word_store u v d).symm (store_toDevices u v d)
    ((store_inInterrupt u v d).trans hin) hpc (.inl rfl)

/-- The moves. -/
lemma follows_move {op : ℕ} (hop : op / 0o20 = 0o10) (left : BitVec 18) :
    u.Executes op left (.move (op / 4 % 4) (op % 4)) := by
  have hsplit : op = 0o200 + 4 * (op / 4 % 4) + op % 4 := by omega
  have hdoes := move_ops ⟨op / 4 % 4, by omega⟩ ⟨op % 4, by omega⟩ u
  simp only [← hsplit] at hdoes
  obtain ⟨running, hrun⟩ := hdoes
  rw [Cpu.Executes, Reference.execute, (reference_operands hpc _).1]
  exact follows_of_store hin ⟨running, _, hrun⟩

/-- The boolean group. -/
lemma follows_boolean {op : ℕ} (hop : op / 0o100 = 4) (left : BitVec 18) :
    u.Executes op left (.boolean (op / 4 % 16) (op % 4)) := by
  have hsplit : op = 0o400 + 4 * (op / 4 % 16) + op % 4 := by omega
  have hmem := mem_boolean_opcodes ⟨op / 4 % 16, by omega⟩ ⟨op % 4, by omega⟩
  simp only [← hsplit] at hmem
  have hsub : installIntBinGroup ++ installTstSetGroup ⊆ installs := by
    intro e he
    simp only [List.mem_append] at he
    exact mem_installs.mpr (by tauto)
  have hentry : ∀ e ∈ installIntBinGroup ++ installTstSetGroup, BooleanEntry e := by
    simp only [List.forall_mem_append]
    exact ⟨boolean_IntBin, boolean_TstSet⟩
  obtain ⟨running, hrun⟩ := ops_of_entries hsub hentry hmem hop u
  dsimp only at hrun
  rw [Cpu.Executes, Reference.execute, (reference_operands hpc _).2.2, reference_ac]
  exact follows_of_store hin ⟨running, _, hrun⟩

/-- The half-word group. -/
lemma follows_half {op : ℕ} (hop : op / 0o100 = 5) (left : BitVec 18) :
    u.Executes op left (.half (op / 0o40 % 2) (op / 0o10 % 4) (op / 4 % 2) (op % 4)) := by
  have hsplit : op = 0o500 + 0o40 * (op / 0o40 % 2) + 0o10 * (op / 0o10 % 4) +
      4 * (op / 4 % 2) + op % 4 := by omega
  have hmem := mem_half_opcodes ⟨op / 0o40 % 2, by omega⟩ ⟨op / 0o10 % 4, by omega⟩
    ⟨op / 4 % 2, by omega⟩ ⟨op % 4, by omega⟩
  simp only [← hsplit] at hmem
  have hsub : installHalfGroup ⊆ installs := fun e he => mem_installs.mpr (by tauto)
  obtain ⟨running, hrun⟩ := ops_of_entries hsub half_entries hmem u
  dsimp only at hrun
  obtain ⟨hsource, htarget, -⟩ := reference_operands hpc (op % 4)
  rw [Cpu.Executes, Reference.execute, hsource, htarget]
  exact follows_of_store hin ⟨running, _, hrun⟩

omit hpc in
/-- The tests. -/
lemma follows_test {op : ℕ} (hop : op / 0o100 = 6) (left : BitVec 18) :
    u.Executes op left (.test (op / 0o20 % 4) (op / 0o10 % 2) (op / 2 % 4) (op % 2)) := by
  have hsplit : op = 0o600 + 0o20 * (op / 0o20 % 4) + 0o10 * (op / 0o10 % 2) +
      2 * (op / 2 % 4) + op % 2 := by omega
  have hmem := mem_test_opcodes ⟨op / 0o20 % 4, by omega⟩ ⟨op / 0o10 % 2, by omega⟩
    ⟨op / 2 % 4, by omega⟩ ⟨op % 2, by omega⟩
  simp only [← hsplit] at hmem
  have hsub : installTstSetGroup ⊆ installs := fun e he => mem_installs.mpr (by tauto)
  obtain ⟨running, hrun⟩ := ops_of_entries hsub test_entries hmem hop u
  dsimp only at hrun
  have hmask (memory other : ℕ) :
      u.reference.mask u.ea.rhu memory other = u.testMask memory other := by
    rcases memory with _ | memory <;> rcases other with _ | other <;> rfl
  let w : Cpu := { u.setAC (testedWord (op / 0o20 % 4) u.acOperand (u.opcodeMask op)) u.iw.ac with
    running := running }
  have hword : w.word = (u.reference.putAC
      (testedWord (op / 0o20 % 4) u.acOperand (u.opcodeMask op)) u.iw.ac).word :=
    (word_putAC u _ _ rfl).symm
  have hdevices : w.toDevices = u.toDevices := rfl
  refine ⟨_, w, hrun, ?_⟩
  rw [Reference.execute, hmask, reference_ac]
  change Follows u (if testSkips (op / 2 % 4) u.acOperand (u.opcodeMask op) then _ else _) w
    (Reference.advance _ (if testSkips (op / 2 % 4) u.acOperand (u.opcodeMask op) then 2 else 1))
  split
  · exact .skip hword hdevices hin rfl
  · exact .advance hword hdevices hin rfl (.inl rfl)

omit hin in
/-- The numbers that a comparison or a count compares. -/
lemma reference_comparands (family : ℕ) :
    u.reference.comparands u.iw.ac u.ea.rhu family = u.comparands family := by
  have himmediate : u.immediateOperand = .halves 0 u.ea.rhu := by
    rw [Cpu.immediateOperand, hpc, if_pos rfl]
  have hac : u.reference.ac u.iw.ac = u.acOperand := reference_ac u _
  simp only [Reference.comparands, Cpu.comparands, himmediate, hac]
  rfl

omit hin hpc in
/-- The words that it stores. -/
lemma reference_counted (family : ℕ) :
    (u.reference.counted u.iw.ac u.ea.rhu family).word = (u.counted family).word ∧
      (u.reference.counted u.iw.ac u.ea.rhu family).pc = u.pc.rhu := by
  have hac : u.reference.ac u.iw.ac = u.acOperand := reference_ac u _
  simp only [Reference.counted, Cpu.counted, hac]
  rcases family with _ | _ | _ | _ | _ | _ | _ | _ | _
  case succ.succ.succ.zero =>
    let t := u.reference.putAC u.memOperand u.iw.ac
    change (if u.iw.ac = 0 then u.reference else t).word =
        (if u.iw.ac = 0 then u else u.setAC u.memOperand u.iw.ac).word ∧
      (if u.iw.ac = 0 then u.reference else t).pc = u.pc.rhu
    split
    · exact ⟨rfl, rfl⟩
    · exact ⟨word_putAC u _ _ rfl, rfl⟩
  case succ.succ.succ.succ.zero => exact ⟨word_putAC u _ _ rfl, rfl⟩
  case succ.succ.succ.succ.succ.zero => exact ⟨word_store u _ .self, pc_store _ _ _ _ _⟩
  case succ.succ.succ.succ.succ.succ.zero => exact ⟨word_putAC u _ _ rfl, rfl⟩
  case succ.succ.succ.succ.succ.succ.succ.zero => exact ⟨word_store u _ .self, pc_store _ _ _ _ _⟩
  all_goals exact ⟨rfl, rfl⟩

omit hin hpc in
lemma counted_toDevices (s : Cpu) (family : ℕ) : (s.counted family).toDevices = s.toDevices := by
  simp only [Cpu.counted]
  split
  · split <;> rfl
  all_goals first
    | exact store_toDevices _ _ _
    | rfl

/-- The comparisons, skips, jumps and counts. -/
lemma follows_count {op : ℕ} (hop : op / 0o100 = 3) (left : BitVec 18) :
    u.Executes op left (.count (op / 0o10 % 8) (op % 8)) := by
  have hsplit : op = 0o300 + 8 * (op / 8 % 8) + op % 8 := by omega
  have hdoes := count_ops ⟨op / 8 % 8, by omega⟩ ⟨op % 8, by omega⟩ u
  simp only [← hsplit] at hdoes
  obtain ⟨running, hrun⟩ := hdoes
  let w : Cpu := { u.counted (op / 8 % 8) with
    running := running, flags := u.countedFlags (op / 8 % 8) }
  obtain ⟨hpcw, heaw, -, hinw⟩ := counted_keeps u (op / 8 % 8)
  obtain ⟨hwordr, hpcr⟩ := reference_counted (u := u) (op / 8 % 8)
  have hword : w.word = (u.reference.counted u.iw.ac u.ea.rhu (op / 8 % 8)).word := hwordr.symm
  have hdevices : w.toDevices = u.toDevices := counted_toDevices u _
  have hpcw : w.pc.rhu = (u.reference.counted u.iw.ac u.ea.rhu (op / 8 % 8)).pc := by
    rw [hpcr]
    exact congrArg W36.rhu hpcw
  have hin : w.inInterrupt = false := hinw.trans hin
  refine ⟨_, w, hrun, ?_⟩
  rw [Reference.execute, reference_comparands hpc]
  change Follows u (if u.meets (op / 8 % 8) (op % 8) then _ else _) w
    (if u.meets (op / 8 % 8) (op % 8) then _ else _)
  split
  · split
    · exact .jump hword hdevices (congrArg W36.rhu heaw)
    · exact .skip hword hdevices hin hpcw
  · refine .advance hword hdevices hin hpcw ?_
    split
    · exact .inr rfl
    · exact .inl rfl

/-! ### Arithmetic -/

/-- The handler of an entry adds or subtracts as its opcode says, and may set flags. -/
def ArithEntry (e : ℕ × Handler) : Prop :=
  e.1 / 0o10 = 0o27 → ∀ s : Cpu, ∃ running flags, e.2.run s = .ok (.iNormal,
    { s.store (if e.1 / 4 % 2 = 1 then s.acOperand - s.booleanOperand (e.1 % 4)
        else s.acOperand + s.booleanOperand (e.1 % 4)) (.ofBooleanMode (e.1 % 4)) with
      running := running, flags := flags })

omit hin hpc in
lemma ArithEntry.of_ne {op : ℕ} {h : Handler} (hop : op / 0o10 ≠ 0o27) : ArithEntry (op, h) :=
  fun hrow => absurd hrow hop

omit hin hpc in
/-- An operation that returns a word and at most sets flags. -/
lemma ArithEntry.of_binInsn {op : ℕ} {get : Exec W36} {operand : Cpu → W36}
    {put : W36 → Exec Unit} {d : Dest} {f : W36 → W36 → Exec W36} {g : W36 → W36 → W36}
    {update : ProgramFlags → W36 → W36 → ProgramFlags} [hget : Reads get operand]
    [hput : Puts put d]
    (hf : ∀ a b s, (f a b).run s = .ok (g a b, { s with flags := update s.flags a b }))
    (hd : d = .ofBooleanMode (op % 4)) (hoperand : operand = fun s => s.booleanOperand (op % 4))
    (hg : ∀ a b, g a b = if op / 4 % 2 = 1 then a - b else a + b) :
    ArithEntry (op, binInsn acGet get f put) := by
  intro _ s
  obtain ⟨running, hread⟩ := hget.out s
  let a := s.acOperand
  let b := operand s
  obtain ⟨running', hstore⟩ := hput.run (g a b) s running (update s.flags a b)
  refine ⟨running', update s.flags a b, ?_⟩
  rw [binInsn, run_bind_of_ok (run_acGet s), run_bind_of_ok hread, run_bind_of_ok (hf _ _ _)]
  refine (run_bind_of_ok hstore).trans ?_
  rw [hg, hd]
  simp only [a, b, hoperand]
  rfl

omit hin hpc in
lemma arith_entries : ∀ e ∈ installIntBinGroup, ArithEntry e := by
  simp only [installIntBinGroup, List.forall_mem_cons, List.not_mem_nil, false_imp_iff,
    implies_true, and_true]
  and_intros
  all_goals first
    | exact .of_ne (by decide)
    | with_reducible refine .of_binInsn run_addWord ?_ ?_ ?_
    | with_reducible refine .of_binInsn run_subWord ?_ ?_ ?_
  all_goals first
    | rfl
    | exact fun _ _ => rfl

/-- Addition and subtraction. -/
lemma follows_arith {op : ℕ} (hop : op / 0o10 = 0o27) (left : BitVec 18) :
    u.Executes op left (.arith (op / 4 % 2 = 1) (op % 4)) := by
  have hsub : installIntBinGroup ⊆ installs := fun e he => mem_installs.mpr (by tauto)
  have hmem : ∀ k : Fin 8, 0o270 + k.val ∈ installIntBinGroup.map Prod.fst := by decide +kernel
  have hsplit : op = 0o270 + op % 8 := by omega
  have hop' := hmem ⟨op % 8, by omega⟩
  simp only [← hsplit] at hop'
  obtain ⟨running, flags, hrun⟩ := ops_of_entries hsub arith_entries hop' hop u
  dsimp only at hrun
  have hac : u.reference.ac u.iw.ac = u.acOperand := reference_ac u _
  rw [Cpu.Executes, Reference.execute, (reference_operands hpc _).2.2, hac]
  simp only [decide_eq_true_eq]
  exact follows_of_store hin ⟨running, flags, hrun⟩

/-! ### The other instructions -/

omit hpc in
/-- EXCH. -/
lemma follows_exch (left : BitVec 18) :
    u.Executes 0o250 left .exch := by
  have hop : ops 0o250 = doEXCH := ops_of_mem (by simp [installs, installIntBinGroup])
  let s := u.hit u.addressGBPs u.ea.vma.toNat
  let t := s.setAC (u.word u.ea.rhu) u.iw.ac
  obtain ⟨running, hput⟩ := exists_run_memPutN (u.acs u.iw.ac) u.ea t
  let w : Cpu := { t.setWord (u.acs u.iw.ac) u.ea.rhu with running := running }
  have hrun : doEXCH.run u = .ok (.iNormal, w) := by
    have hmemPut : (memPut (u.acs u.iw.ac)).run t = .ok ((), w) := by
      rw [memPut, run_bind_of_ok (run_gets Cpu.ea t)]
      exact hput
    rw [doEXCH, run_bind_of_ok (run_acGet u), run_bind_of_ok (run_memGet u),
      run_bind_of_ok (run_acPut _ s)]
    exact run_bind_of_ok hmemPut
  have hdevices : w.toDevices = u.toDevices := setWord_toDevices t _ _
  have hword : w.word = ((u.reference.putAC (u.reference.word u.ea.rhu) u.iw.ac).put
      (u.reference.ac u.iw.ac) u.ea.rhu).word := by
    rw [reference_ac]
    exact (word_put t _ _ (word_putAC s _ _ rfl)).symm
  refine ⟨_, w, by rw [hop, hrun], .advance hword hdevices ?_ ?_ (.inl rfl)⟩
  · exact (setWord_inInterrupt t _ _).trans hin
  · exact congrArg W36.rhu (setWord_pc t _ _)

omit hpc in
/-- AOBJP and AOBJN. -/
lemma follows_aobj (left : BitVec 18) (negative : Bool) :
    u.Executes (if negative then 0o253 else 0o252) left (.aobj negative) := by
  have hAOBJP : ops 0o252 = doAOBJP := ops_of_mem (by simp [installs, installJumpGroup])
  have hAOBJN : ops 0o253 = doAOBJN := ops_of_mem (by simp [installs, installJumpGroup])
  let v := u.reference.stepped u.iw.ac
  let w := u.setAC v u.iw.ac
  have hstep : stepBothHalves.run u = .ok (v, w) := by
    have hv : v = W36.halves ((u.acs u.iw.ac).lhu + 1) ((u.acs u.iw.ac).rhu + 1) := by
      simp only [v, Reference.stepped, reference_ac]
    rw [stepBothHalves, run_bind_of_ok (run_acGet u)]
    simp only [← hv]
    exact run_bind_of_ok (run_acPut v u)
  have hword : w.word = (u.reference.putAC v u.iw.ac).word := (word_putAC u _ _ rfl).symm
  have hdevices : w.toDevices = u.toDevices := rfl
  have hrun : (ops (if negative then 0o253 else 0o252)).run u =
      .ok (if v.msb = negative then .iJump else .iNormal, w) := by
    have hmsb : v.msb = decide (v.ext64 < 0) := BitVec.msb_eq_toInt
    cases negative with
    | true =>
        simp only [if_true, hAOBJN]
        rw [doAOBJN, run_bind_of_ok hstep, hmsb]
        simp only [decide_eq_true_eq]
        rfl
    | false =>
        simp only [Bool.false_eq_true, if_false, hAOBJP]
        rw [doAOBJP, run_bind_of_ok hstep, hmsb]
        simp only [decide_eq_false_iff_not, not_lt]
        rfl
  refine ⟨_, w, hrun, ?_⟩
  change Follows u _ w (if v.msb = negative then _ else _)
  split
  · exact .jump hword hdevices rfl
  · exact .advance hword hdevices hin rfl (.inl rfl)

omit hin hpc in
/-- The plain JRST. -/
lemma follows_jrst (hac : u.iw.ac = 0) (left : BitVec 18) :
    u.Executes 0o254 left .jrst := by
  have hrun : doJRST.run u = .ok (.iJump, u) := by
    rw [doJRST, run_bind_of_ok (run_gets Cpu.iw u), run_bind_of_ok (run_gets Cpu.ea u), hac]
    rfl
  exact ⟨_, u, by rw [ops_JRST, hrun], .jump rfl rfl rfl⟩

/-! ### The stack -/

omit hin in
/-- The machine after a push. -/
lemma exists_run_push (v : W36) :
    ∃ t, (push v).run u = .ok ((), t) ∧ t.word = (u.reference.pushed u.iw.ac v).word ∧
      t.toDevices = u.toDevices ∧ t.inInterrupt = u.inInterrupt ∧ t.pc = u.pc ∧ t.ea = u.ea := by
  obtain ⟨running, hpush⟩ := run_push_of_local v (s := u) (.inl hpc)
  have hpointer : u.pushedPointer = u.reference.stepped u.iw.ac := by
    rw [Reference.stepped, reference_ac]
    rfl
  refine ⟨_, hpush, ?_⟩
  rw [Reference.pushed, ← hpointer]
  split
  · exact ⟨(word_putAC u _ _ rfl).symm, rfl, rfl, rfl, rfl⟩
  · exact ⟨(word_putAC _ _ _ (word_put u _ _ rfl)).symm, setWord_toDevices _ _ _,
      setWord_inInterrupt _ _ _, setWord_pc _ _ _, setWord_ea _ _ _⟩

omit hin hpc in
/-- And after a pop. -/
lemma reference_popped :
    (u.setAC u.poppedPointer u.iw.ac).word = (u.reference.popped u.iw.ac).word ∧
      u.stackTop = u.reference.top u.iw.ac := by
  rw [Reference.popped, Reference.top, reference_ac]
  exact ⟨(word_putAC u _ _ rfl).symm, rfl⟩

/-- PUSHJ. -/
lemma follows_pushj : ∃ left, u.Executes 0o260 left .pushj := by
  let s : Cpu := { u with flags := u.flags.clearForCall }
  obtain ⟨t, hpush, hword, hdevices, -, -, hea⟩ := exists_run_push (u := s) hpc (s.saved true)
  refine ⟨(s.saved true).lhu, _, _, by rw [ops_PUSHJ, run_doPUSHJ_of_push hpc hpush], ?_⟩
  have hsaved : W36.halves (s.saved true).lhu (u.pc.rhu + 1) = s.saved true := by
    have hrhu : (s.saved true).rhu = u.pc.rhu + 1 := rhu_saved (s := s) hin true
    rw [← hrhu, W36.halves_eta]
  rw [Reference.execute, reference_pc, hsaved]
  refine .jump ?_ ?_ ?_
  · exact hword
  · exact hdevices
  · exact congrArg W36.rhu hea

/-- PUSH. -/
lemma follows_push (left : BitVec 18) :
    u.Executes 0o261 left .push := by
  let s := u.hit u.addressGBPs u.ea.vma.toNat
  obtain ⟨t, hpush, hword, hdevices, hint, hpct, -⟩ :=
    exists_run_push (u := s) hpc (u.word u.ea.rhu)
  have hrun : doPUSH.run u = .ok (.iNormal, t) := by
    rw [doPUSH, run_bind_of_ok (run_memGet u)]
    exact run_bind_of_ok hpush
  refine ⟨_, t, by rw [ops_PUSH, hrun], ?_⟩
  rw [Reference.execute]
  refine .advance ?_ ?_ (hint.trans hin) ?_ (.inl rfl)
  · exact hword
  · exact hdevices
  · rw [hpct, pc_pushed]
    rfl

/-- POP. -/
lemma follows_pop (left : BitVec 18) :
    u.Executes 0o262 left .pop := by
  obtain ⟨running, flags, hrun⟩ := run_doPOP (s := u) hpc
  obtain ⟨hword, htop⟩ := @reference_popped u
  let t := u.setAC u.poppedPointer u.iw.ac
  let w : Cpu := { t.setWord u.stackTop u.ea.rhu with running := running, flags := flags }
  have hwordw : w.word = ((u.reference.popped u.iw.ac).put u.stackTop u.ea.rhu).word :=
    (word_put t _ _ hword.symm).symm
  have hdevices : w.toDevices = u.toDevices := setWord_toDevices t _ _
  refine ⟨_, w, by rw [ops_POP, hrun], ?_⟩
  rw [Reference.execute, ← htop]
  exact .advance hwordw hdevices ((setWord_inInterrupt t _ _).trans hin)
    (congrArg W36.rhu (setWord_pc t _ _)) (.inl rfl)

omit hin in
/-- POPJ. -/
lemma follows_popj (left : BitVec 18) :
    u.Executes 0o263 left .popj := by
  obtain ⟨running, flags, hrun⟩ := run_doPOPJ (s := u) hpc
  obtain ⟨hword, htop⟩ := @reference_popped u
  refine ⟨_, _, by rw [ops_POPJ, hrun], ?_⟩
  rw [Reference.execute, ← htop]
  refine .jump ?_ ?_ ?_
  · exact hword
  · rfl
  · exact W36.rhu_setRhu _ _

/-! ### The calls -/

omit hpc in
/-- The word that a call saves. -/
lemma saved_eq (inSection0 : Bool) :
    W36.halves (u.saved inSection0).lhu (u.reference.pc + 1) = u.saved inSection0 := by
  rw [reference_pc, ← rhu_saved hin inSection0, W36.halves_eta]

omit hpc in
/-- JSR. -/
lemma follows_jsr : ∃ left, u.Executes 0o264 left .jsr := by
  obtain ⟨running, hrun⟩ := run_doJSR u
  refine ⟨(u.saved u.ea.isSection0).lhu, _, _, by rw [ops_JSR, hrun], ?_⟩
  rw [Reference.execute, saved_eq hin]
  refine .jump ?_ ?_ ?_
  · exact (word_put u _ _ rfl).symm
  · exact setWord_toDevices u _ _
  · exact W36.rhu_setRhu _ _

omit hpc in
/-- JSP. -/
lemma follows_jsp : ∃ left, u.Executes 0o265 left .jsp := by
  refine ⟨(u.saved u.ea.isSection0).lhu, _, _, by rw [ops_JSP, run_doJSP], ?_⟩
  rw [Reference.execute, saved_eq hin]
  refine .jump ?_ ?_ ?_
  · exact (word_putAC u _ _ rfl).symm
  · rfl
  · rfl

omit hpc in
/-- JSA. -/
lemma follows_jsa (left : BitVec 18) :
    u.Executes 0o266 left .jsa := by
  obtain ⟨running, hrun⟩ := run_doJSA hin
  refine ⟨_, _, by rw [ops_JSA, hrun], ?_⟩
  rw [Reference.execute, reference_ac]
  refine .jump ?_ ?_ ?_
  · exact (word_putAC _ _ _ (word_put u _ _ rfl)).symm
  · exact setWord_toDevices u _ _
  · exact W36.rhu_setRhu _ _

omit hin hpc in
/-- JRA. -/
lemma follows_jra (left : BitVec 18) :
    u.Executes 0o267 left .jra := by
  have hop : ops 0o267 = doJRA := ops_of_mem (by simp [installs, installJumpGroup])
  obtain ⟨running, hget⟩ := exists_run_memGetN (W36.halves 0 (u.acs u.iw.ac).lhu) u
  rw [W36.rhu_halves] at hget
  let s : Cpu := { u with running := running }
  let w := s.setAC (u.word (u.acs u.iw.ac).lhu) u.iw.ac
  have hrun : doJRA.run u = .ok (.iJump, w) := by
    rw [doJRA, run_bind_of_ok (run_acGet u), run_bind_of_ok hget]
    exact run_bind_of_ok (run_acPut _ s)
  have hword : w.word = (u.reference.putAC (u.reference.word (u.acs u.iw.ac).lhu) u.iw.ac).word :=
    (word_putAC s _ _ rfl).symm
  refine ⟨_, w, by rw [hop, hrun], ?_⟩
  rw [Reference.execute, reference_ac]
  refine .jump hword ?_ ?_
  · rfl
  · rfl

/-- **The handler of every instruction** does what the reference machine does. -/
theorem exists_follows {o : Operation} (ho : Operation.ofWord u.iw = some o) :
    ∃ left, u.Executes u.iw.op.toNat left o := by
  have hsingle : ∀ p ∈ Operation.single, u.iw.op.toNat = p.1 →
      ∃ left, u.Executes u.iw.op.toNat left p.2 := by
    intro p hp hop
    rw [hop]
    revert p
    simp only [Operation.single, List.forall_mem_cons, List.not_mem_nil, false_imp_iff,
      implies_true, and_true]
    exact ⟨fun _ => ⟨0, follows_exch hin 0⟩, fun _ => ⟨0, follows_aobj hin 0 false⟩,
      fun _ => ⟨0, follows_aobj hin 0 true⟩, fun _ => follows_pushj hin hpc,
      fun _ => ⟨0, follows_push hin hpc 0⟩, fun _ => ⟨0, follows_pop hin hpc 0⟩,
      fun _ => ⟨0, follows_popj hpc 0⟩, fun _ => follows_jsr hin, fun _ => follows_jsp hin,
      fun _ => ⟨0, follows_jsa hin 0⟩, fun _ => ⟨0, follows_jra 0⟩⟩
  simp only [Operation.ofWord] at ho
  split at ho
  case isTrue hop => cases ho; exact ⟨0, follows_move hin hpc hop 0⟩
  split at ho
  case isTrue hop => cases ho; exact ⟨0, follows_arith hin hpc hop 0⟩
  split at ho
  case isTrue hop => cases ho; exact ⟨0, follows_count hin hpc hop 0⟩
  split at ho
  case isTrue hop => cases ho; exact ⟨0, follows_boolean hin hpc hop 0⟩
  split at ho
  case isTrue hop => cases ho; exact ⟨0, follows_half hin hpc hop 0⟩
  split at ho
  case isTrue hop => cases ho; exact ⟨0, follows_test hin hop 0⟩
  split at ho
  case isTrue hop =>
    split at ho
    case isTrue hac =>
      cases ho
      rw [hop]
      exact ⟨0, follows_jrst hac 0⟩
    case isFalse => cases ho
  obtain ⟨front, back, happend, -⟩ := List.lookup_eq_some_iff.mp ho
  have hmem : (u.iw.op.toNat, o) ∈ Operation.single := by simp [happend]
  exact hsingle _ hmem rfl

end Families

end KM10
