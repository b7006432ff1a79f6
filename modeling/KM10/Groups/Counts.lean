import KM10.Effects.Address
import KM10.Effects.Stores

/-!
Compare, skip, jump and count: opcodes 0300 to 0377.

The middle digit of an opcode is the family, and its last digit the relation that two numbers
must have for the instruction to skip or to jump.

* `relation`, `Cpu.comparands`, `jumpsIn`: the condition, and what the instruction does on it;
* `Cpu.counted`, `Cpu.countedFlags`, `Cpu.countTraps`: the words that it stores, the flags that
  it sets, and whether it reports a trap;
* `CountEntry`: a handler does what its opcode says (`count_ops`).
-/

namespace KM10

open StateExcept

/-! ### The condition -/

/-- The relation of a digit. -/
def relation (digit : ℕ) (a b : ℤ) : Bool :=
  match digit with
  | 0 => false
  | 1 => a < b
  | 2 => a = b
  | 3 => a ≤ b
  | 4 => true
  | 5 => a ≥ b
  | 6 => a ≠ b
  | _ => a > b

/-- The numbers that an instruction of a family compares: CAI, CAM, JUMP, SKIP, AOJ, AOS, SOJ,
SOS. -/
def Cpu.comparands (s : Cpu) (family : ℕ) : ℤ × ℤ :=
  match family with
  | 0 => (s.acOperand.ext64, s.immediateOperand.ext64)
  | 1 => (s.acOperand.ext64, s.memOperand.ext64)
  | 2 => (s.acOperand.ext64, 0)
  | 3 => (s.memOperand.ext64, 0)
  | 4 => ((s.acOperand + 1).ext64, 0)
  | 5 => ((s.memOperand + 1).ext64, 0)
  | 6 => ((s.acOperand - 1).ext64, 0)
  | _ => ((s.memOperand - 1).ext64, 0)

/-- The condition of an opcode. -/
def Cpu.meets (s : Cpu) (family digit : ℕ) : Bool :=
  relation digit (s.comparands family).1 (s.comparands family).2

/-- JUMP, AOJ and SOJ jump, and the other families skip. -/
def jumpsIn (family : ℕ) : Bool := family = 2 ∨ family = 4 ∨ family = 6

/-! ### The stores and the flags -/

/-- The machine with the words that an instruction of a family stores. -/
def Cpu.counted (s : Cpu) (family : ℕ) : Cpu :=
  match family with
  | 3 => if s.iw.ac = 0 then s else s.setAC s.memOperand s.iw.ac
  | 4 => s.store (s.acOperand + 1) .ac
  | 5 => s.store (s.memOperand + 1) .self
  | 6 => s.store (s.acOperand - 1) .ac
  | 7 => s.store (s.memOperand - 1) .self
  | _ => s

/-- Counting up overflows on the largest number and carries on -1. -/
def aoFlags (a : W36) (f : ProgramFlags) : ProgramFlags :=
  if a = W36.ofNat (W36.bit0 - 1) then f.overflow1
  else if a.ext64 = -1 then f.carries
  else f

/-- Counting down overflows on the smallest number and carries on all others but 0. -/
def soFlags (a : W36) (f : ProgramFlags) : ProgramFlags :=
  if a = W36.ofNat W36.bit0 then f.overflow1
  else if a ≠ 0 then f.carries
  else f

/-- The flags after an instruction of a family. -/
def Cpu.countedFlags (s : Cpu) (family : ℕ) : ProgramFlags :=
  match family with
  | 4 => aoFlags s.acOperand s.flags
  | 5 => aoFlags s.memOperand s.flags
  | 6 => soFlags s.acOperand s.flags
  | 7 => soFlags s.memOperand s.flags
  | _ => s.flags

/-- An instruction of a family overflows. -/
def Cpu.countTraps (s : Cpu) (family : ℕ) : Bool :=
  match family with
  | 4 => s.acOperand = W36.ofNat (W36.bit0 - 1)
  | 5 => s.memOperand = W36.ofNat (W36.bit0 - 1)
  | 6 => s.acOperand = W36.ofNat W36.bit0
  | 7 => s.memOperand = W36.ofNat W36.bit0
  | _ => false

/-- The result of an opcode: its action if it meets its condition, otherwise perhaps a trap. -/
def Cpu.countResult (s : Cpu) (family digit : ℕ) : IResult :=
  if s.meets family digit then (if jumpsIn family then .iJump else .iSkip)
  else if s.countTraps family then .iTrap
  else .iNormal

/-! ### The handlers -/

section Handlers

variable {get : Exec W36} {operand : Cpu → W36} {put : W36 → Exec Unit} {d : Dest}

lemma does_compareInsn [hget : Reads get operand] (skips : ℤ → ℤ → Bool) :
    Does (compareInsn get skips)
      (fun s => if skips s.acOperand.ext64 (operand s).ext64 then .iSkip else .iNormal)
      fun s => s := by
  intro s
  obtain ⟨running, hread⟩ := hget.out s
  rw [compareInsn, run_bind_of_ok (run_acGet s), run_bind_of_ok hread]
  exact ⟨running, rfl⟩

lemma does_jumpInsn (cond : ℤ → Bool) :
    Does (jumpInsn cond) (fun s => if cond s.acOperand.ext64 then .iJump else .iNormal)
      fun s => s := by
  intro s
  rw [jumpInsn, run_bind_of_ok (run_acGet s)]
  exact ⟨s.running, rfl⟩

/-- The handlers that compare nothing report one result. -/
lemma does_doCAI : Does doCAI (fun _ => .iNormal) fun s => s := fun s => by
  rw [doCAI, run_bind_of_ok (run_acGet s)]
  exact ⟨s.running, rfl⟩

lemma does_doCAIA : Does doCAIA (fun _ => .iSkip) fun s => s := fun s => by
  rw [doCAIA, run_bind_of_ok (run_acGet s)]
  exact ⟨s.running, rfl⟩

lemma does_doCAM : Does doCAM (fun _ => .iNormal) fun s => s := fun s => by
  rw [doCAM, run_bind_of_ok (run_acGet s), run_bind_of_ok (run_memGet s)]
  exact ⟨_, rfl⟩

lemma does_doCAMA : Does doCAMA (fun _ => .iSkip) fun s => s := fun s => by
  rw [doCAMA, run_bind_of_ok (run_acGet s), run_bind_of_ok (run_memGet s)]
  exact ⟨_, rfl⟩

/-- The load of the accumulator. -/
lemma run_loadIfAC (s : Cpu) :
    ∃ running, loadIfAC.run s = .ok ((), { s.counted 3 with running := running }) := by
  rw [loadIfAC, run_bind_of_ok (run_gets Cpu.iw s)]
  by_cases hac : s.iw.ac = 0
  · refine ⟨s.running, ?_⟩
    have hcounted : s.counted 3 = s := if_pos hac
    rw [if_neg (not_not.mpr hac), hcounted]
    rfl
  · have hcounted : s.counted 3 = s.setAC s.memOperand s.iw.ac := if_neg hac
    rw [if_pos hac, run_bind_of_ok (run_memGet s), run_acPut, hcounted]
    exact ⟨_, rfl⟩

/-- The load of the accumulator leaves the memory operand, even if that is the accumulator. -/
lemma memOperand_counted (s : Cpu) : (s.counted 3).memOperand = s.memOperand := by
  by_cases hac : s.iw.ac = 0
  · rw [show s.counted 3 = s from if_pos hac]
  · rw [show s.counted 3 = s.setAC s.memOperand s.iw.ac from if_neg hac]
    change (s.setAC s.memOperand s.iw.ac).word s.ea.rhu = s.word s.ea.rhu
    by_cases hsame : s.ea.rhu < 0o20 ∧ s.ea.rhu.setWidth 4 = s.iw.ac
    · rw [Cpu.word, if_pos hsame.1, acs_setAC, if_pos hsame.2]
      rfl
    · exact word_setAC_of_ne hsame

lemma does_skipInsn (cond : ℤ → Bool) :
    Does (skipInsn cond) (fun s => if cond s.memOperand.ext64 then .iSkip else .iNormal)
      fun s => s.counted 3 := by
  intro s
  obtain ⟨running, hload⟩ := run_loadIfAC s
  let t : Cpu := { s.counted 3 with running := running }
  have hmem : t.memOperand = s.memOperand := memOperand_counted s
  obtain ⟨running', hread⟩ := reads_memGet.out t
  rw [hmem] at hread
  rw [skipInsn, run_bind_of_ok hload, run_bind_of_ok hread]
  exact ⟨running', rfl⟩

lemma does_doSKIP : Does doSKIP (fun _ => .iNormal) fun s => s.counted 3 := fun s => by
  obtain ⟨running, hload⟩ := run_loadIfAC s
  rw [doSKIP, run_bind_of_ok hload]
  exact ⟨_, rfl⟩

lemma does_doSKIPA : Does doSKIPA (fun _ => .iSkip) fun s => s.counted 3 := fun s => by
  obtain ⟨running, hload⟩ := run_loadIfAC s
  rw [doSKIPA, run_bind_of_ok hload]
  exact ⟨_, rfl⟩

/-- The check of a count reports a trap at some words, and sets flags. -/
structure Checks (check : W36 → Exec IResult) (traps : W36 → Bool)
    (update : W36 → ProgramFlags → ProgramFlags) : Prop where
  out : ∀ a s, (check a).run s =
    .ok (if traps a then .iTrap else .iNormal, { s with flags := update a s.flags })

lemma checks_checkAOTraps :
    Checks checkAOTraps (fun a => a = W36.ofNat (W36.bit0 - 1)) aoFlags where
  out := fun a s => by
    rw [checkAOTraps, aoFlags]
    by_cases ha : a = W36.ofNat (W36.bit0 - 1)
    · rw [if_pos ha, if_pos ha, decide_eq_true ha]
      rfl
    · rw [if_neg ha, if_neg ha, decide_eq_false ha]
      split <;> rfl

lemma checks_checkSOTraps :
    Checks checkSOTraps (fun a => a = W36.ofNat W36.bit0) soFlags where
  out := fun a s => by
    rw [checkSOTraps, soFlags]
    by_cases ha : a = W36.ofNat W36.bit0
    · rw [if_pos ha, if_pos ha, decide_eq_true ha]
      rfl
    · rw [if_neg ha, if_neg ha, decide_eq_false ha]
      split <;> rfl

lemma does_countInsn [hget : Reads get operand] [hput : Puts put d] {check : W36 → Exec IResult}
    {traps : W36 → Bool} {update : W36 → ProgramFlags → ProgramFlags}
    (hcheck : Checks check traps update) (delta : W36) (condF : ℤ → Bool) (action : IResult) :
    Does (countInsn get check delta put condF action)
      (fun s => if condF (operand s + delta).ext64 then action
        else if traps (operand s) then .iTrap else .iNormal)
      fun s => { s.store (operand s + delta) d with flags := update (operand s) s.flags } := by
  intro s
  obtain ⟨running, hread⟩ := hget.out s
  obtain ⟨running', hstore⟩ :=
    hput.run (operand s + delta) s running (update (operand s) s.flags)
  refine ⟨running', ?_⟩
  rw [countInsn, run_bind_of_ok hread, run_bind_of_ok (hcheck.out _ _)]
  exact run_bind_of_ok hstore

end Handlers

/-! ### The table -/

/-- The handler of an entry of the group does what its opcode says. -/
def CountEntry (e : ℕ × Handler) : Prop :=
  e.1 / 0o100 = 3 → Does e.2 (fun s => s.countResult (e.1 / 8 % 8) (e.1 % 8))
    fun s => { s.counted (e.1 / 8 % 8) with flags := s.countedFlags (e.1 / 8 % 8) }

/-- An entry outside of the group. -/
lemma CountEntry.of_ne {op : ℕ} {h : Handler} (hop : op / 0o100 ≠ 3) : CountEntry (op, h) :=
  fun hrow => absurd hrow hop

/-- A comparison that stores nothing. -/
lemma CountEntry.of_compare {op : ℕ} {h : Handler} {r : Cpu → IResult}
    (hdoes : Does h r fun s => s) (hfamily : op / 8 % 8 < 3)
    (hr : ∀ s, r s = s.countResult (op / 8 % 8) (op % 8)) : CountEntry (op, h) := by
  intro _
  refine hdoes.congr hr fun s => ?_
  change s = { s.counted (op / 8 % 8) with flags := s.countedFlags (op / 8 % 8) }
  generalize op / 8 % 8 = family at hfamily
  interval_cases family <;> rfl

/-- A skip on the memory operand. -/
lemma CountEntry.of_skip {op : ℕ} {h : Handler} {r : Cpu → IResult}
    (hdoes : Does h r fun s => s.counted 3) (hfamily : op / 8 % 8 = 3)
    (hr : ∀ s, r s = s.countResult 3 (op % 8)) : CountEntry (op, h) := by
  intro _
  refine hdoes.congr (fun s => ?_) fun s => ?_
  · rw [hr, hfamily]
  · rw [hfamily, Cpu.counted]
    split <;> rfl

/-- The result of a count. -/
lemma countResult_of_count {s : Cpu} {family digit : ℕ} {w : W36} {traps : Bool}
    {condF : ℤ → Bool} {action : IResult} (hw : s.comparands family = (w.ext64, 0))
    (htraps : s.countTraps family = traps) (hcond : condF = fun n => relation digit n 0)
    (haction : digit ≠ 0 → action = if jumpsIn family then .iJump else .iSkip) :
    (if condF w.ext64 then action else if traps then .iTrap else .iNormal) =
      s.countResult family digit := by
  rw [Cpu.countResult, Cpu.meets, hw, htraps, hcond]
  by_cases hdigit : digit = 0
  · rw [hdigit]
    rfl
  · rw [haction hdigit]

section Templates

variable {op : ℕ} {condF : ℤ → Bool} {action : IResult}

lemma CountEntry.of_AOJ (hfamily : op / 8 % 8 = 4)
    (hcond : condF = fun n => relation (op % 8) n 0) (haction : op % 8 ≠ 0 → action = .iJump) :
    CountEntry (op, doAOJWith condF action) := by
  intro _
  refine (does_countInsn checks_checkAOTraps _ _ _).congr (fun s => ?_) fun s => ?_
  · rw [hfamily]
    exact countResult_of_count rfl rfl hcond haction
  · rw [hfamily]
    rfl

lemma CountEntry.of_AOS (hfamily : op / 8 % 8 = 5)
    (hcond : condF = fun n => relation (op % 8) n 0) (haction : op % 8 ≠ 0 → action = .iSkip) :
    CountEntry (op, doAOSWith condF action) := by
  intro _
  refine (does_countInsn checks_checkAOTraps _ _ _).congr (fun s => ?_) fun s => ?_
  · rw [hfamily]
    exact countResult_of_count rfl rfl hcond haction
  · rw [hfamily]
    rfl

lemma CountEntry.of_SOJ (hfamily : op / 8 % 8 = 6)
    (hcond : condF = fun n => relation (op % 8) n 0) (haction : op % 8 ≠ 0 → action = .iJump) :
    CountEntry (op, doSOJWith condF action) := by
  intro _
  refine (does_countInsn checks_checkSOTraps _ _ _).congr (fun s => ?_) fun s => ?_
  · rw [hfamily, ← BitVec.sub_eq_add_neg]
    exact countResult_of_count rfl rfl hcond haction
  · rw [hfamily, ← BitVec.sub_eq_add_neg]
    rfl

lemma CountEntry.of_SOS (hfamily : op / 8 % 8 = 7)
    (hcond : condF = fun n => relation (op % 8) n 0) (haction : op % 8 ≠ 0 → action = .iSkip) :
    CountEntry (op, doSOSWith condF action) := by
  intro _
  refine (does_countInsn checks_checkSOTraps _ _ _).congr (fun s => ?_) fun s => ?_
  · rw [hfamily, ← BitVec.sub_eq_add_neg]
    exact countResult_of_count rfl rfl hcond haction
  · rw [hfamily, ← BitVec.sub_eq_add_neg]
    rfl

end Templates

lemma count_CmpAnd : ∀ e ∈ installCmpAndGroup, CountEntry e := by
  simp only [installCmpAndGroup, List.forall_mem_cons, List.not_mem_nil, false_imp_iff,
    implies_true, and_true]
  and_intros
  all_goals first
    | with_reducible refine .of_compare (does_compareInsn _) (by decide) fun _ => ?_
    | with_reducible refine .of_compare does_doCAI (by decide) fun _ => ?_
    | with_reducible refine .of_compare does_doCAIA (by decide) fun _ => ?_
    | with_reducible refine .of_compare does_doCAM (by decide) fun _ => ?_
    | with_reducible refine .of_compare does_doCAMA (by decide) fun _ => ?_
  all_goals rfl

lemma count_Jump : ∀ e ∈ installJumpGroup, CountEntry e := by
  simp only [installJumpGroup, List.forall_mem_cons, List.not_mem_nil, false_imp_iff,
    implies_true, and_true]
  and_intros
  all_goals first
    | exact .of_ne (by decide)
    | with_reducible refine .of_compare (does_jumpInsn _) (by decide) fun _ => ?_
    | with_reducible refine .of_skip (does_skipInsn _) (by decide) fun _ => ?_
    | with_reducible refine .of_skip does_doSKIP (by decide) fun _ => ?_
    | with_reducible refine .of_skip does_doSKIPA (by decide) fun _ => ?_
    | refine .of_compare (does_pure _) (by decide) fun _ => ?_
  all_goals rfl

lemma count_AOxSOx : ∀ e ∈ installAOxSOxGroup, CountEntry e := by
  simp only [installAOxSOxGroup, List.forall_mem_cons, List.not_mem_nil, false_imp_iff,
    implies_true, and_true]
  and_intros
  all_goals first
    | with_reducible refine .of_AOJ ?_ ?_ ?_
    | with_reducible refine .of_AOS ?_ ?_ ?_
    | with_reducible refine .of_SOJ ?_ ?_ ?_
    | with_reducible refine .of_SOS ?_ ?_ ?_
  all_goals first
    | rfl
    | decide

/-- Every opcode is one of an instruction of the families. -/
lemma mem_count_opcodes (family digit : Fin 8) :
    0o300 + 8 * family.val + digit.val ∈
      (installCmpAndGroup ++ installJumpGroup ++ installAOxSOxGroup).map Prod.fst := by
  revert family digit
  decide +kernel

/-- **The families**: the handler of an opcode stores the words, sets the flags and reports the
result of its family and digit, and changes nothing else. -/
theorem count_ops (family digit : Fin 8) :
    Does (ops (0o300 + 8 * family.val + digit.val))
      (fun s => s.countResult family.val digit.val)
      fun s => { s.counted family.val with flags := s.countedFlags family.val } := by
  have hsub : installCmpAndGroup ++ installJumpGroup ++ installAOxSOxGroup ⊆ installs := by
    intro e he
    simp only [List.mem_append] at he
    exact mem_installs.mpr (by tauto)
  have hentry : ∀ e ∈ installCmpAndGroup ++ installJumpGroup ++ installAOxSOxGroup,
      CountEntry e := by
    simp only [List.forall_mem_append]
    exact ⟨⟨count_CmpAnd, count_Jump⟩, count_AOxSOx⟩
  have hdoes := ops_of_entries hsub hentry (mem_count_opcodes family digit)
    (show (0o300 + 8 * family.val + digit.val) / 0o100 = 3 by omega)
  have hfamily : (0o300 + 8 * family.val + digit.val) / 8 % 8 = family.val := by omega
  have hdigit : (0o300 + 8 * family.val + digit.val) % 8 = digit.val := by omega
  simp only [hfamily, hdigit] at hdoes
  exact hdoes

/-! ### The pass -/

/-- A family stores accumulators and memory words only. -/
lemma counted_keeps (s : Cpu) (family : ℕ) :
    (s.counted family).pc = s.pc ∧ (s.counted family).ea = s.ea ∧
      (s.counted family).AC = s.AC ∧ (s.counted family).inInterrupt = s.inInterrupt := by
  simp only [Cpu.counted]
  split
  · split <;> exact ⟨rfl, rfl, rfl, rfl⟩
  all_goals simp only [store_pc, store_ea, store_AC, store_inInterrupt, and_self]

/-- The end of an instruction outside of interrupts: a jump goes to the effective address, a
skip advances by two, and an instruction that completes or traps advances by one. -/
lemma vma_retire {v : Cpu} (hin : v.inInterrupt = false) (taken jump trap : Bool) :
    let t := v.retire
      (if taken then (if jump then .iJump else .iSkip) else if trap then .iTrap else .iNormal)
    t.inInterrupt = false ∧ t.fetchPC.vma = t.pc.vma ∧
      t.pc.vma = if taken then (if jump then v.ea.vma else v.pc.vma + 2) else v.pc.vma + 1 := by
  have hsame (w : Cpu) (n : ℕ) : (w.advance n).fetchPC.vma = (w.advance n).pc.vma := by
    rw [vma_advance, fetch_vma_advance]
  cases taken with
  | true =>
      cases jump with
      | true => exact ⟨rfl, hsame _ 0, (vma_advance _ 0).trans (BitVec.add_zero _)⟩
      | false =>
          have hskip := retire_iSkip hin
          simp only [if_true, Bool.false_eq_true, if_false, hskip]
          exact ⟨hin, hsame v 2, vma_advance v 2⟩
  | false =>
      cases trap with
      | true => exact ⟨hin, hsame v 1, vma_advance v 1⟩
      | false =>
          have hnormal := retire_iNormal hin
          simp only [Bool.false_eq_true, if_false, hnormal]
          exact ⟨hin, hsame v 1, vma_advance v 1⟩

/-- **One pass over an instruction of the families**, outside of interrupts: whatever it traps
on, it jumps or skips exactly if it meets its condition, and it leaves the words that its
family stores. -/
theorem pass_count (family digit : Fin 8) {s : Cpu} (hcycle : s.cycle = .normal)
    (hin : s.inInterrupt = false)
    (hop : s.fetchWord.op.toNat = 0o300 + 8 * family.val + digit.val) :
    ((∃ last, LastLink s.fetched s.fetchWord last) → ∃ label t, Step s label t) ∧
      ∀ label t, Step s label t → ∃ last running nSteps, LastLink s.fetched s.fetchWord last ∧
        let u := s.dispatched last running nSteps
        u.ACBlocks = s.ACBlocks ∧ u.memP = s.memP ∧
          t.ACBlocks = (u.counted family.val).ACBlocks ∧ t.memP = (u.counted family.val).memP ∧
          t.AC = s.AC ∧ t.inInterrupt = false ∧ t.fetchPC.vma = t.pc.vma ∧
          t.pc.vma =
            if u.meets family.val digit.val then
              (if jumpsIn family.val then (W36.ofNat (s.fetched.linkAddress last)).vma
                else s.pc.vma + 2)
            else s.pc.vma + 1 := by
  have hdoes := count_ops family digit
  rw [← hop] at hdoes
  constructor
  · rintro ⟨last, hlast⟩
    refine exists_step hlast fun running nSteps => ?_
    obtain ⟨running', hrun⟩ := hdoes (s.dispatched last running nSteps)
    exact ⟨_, _, hrun⟩
  · intro label t h
    obtain ⟨-, last, running, nSteps, v, hlast, hrun, rfl⟩ := exists_of_step h
    refine ⟨last, running, nSteps, hlast, ?_⟩
    let u := s.dispatched last running nSteps
    obtain ⟨running', hrun'⟩ := hdoes u
    have heq := Except.ok.inj (hrun.symm.trans hrun')
    obtain ⟨hlabel, rfl⟩ := Prod.mk.inj heq
    obtain ⟨hpc, hea, hAC, hinInterrupt⟩ := counted_keeps u family.val
    have hu : u.inInterrupt = false := (fetched_inInterrupt_of_normal hcycle).trans hin
    have hretire := vma_retire (v := { u.counted family.val with
      running := running', flags := u.countedFlags family.val }) (hinInterrupt.trans hu)
      (u.meets family.val digit.val) (jumpsIn family.val) (u.countTraps family.val)
    rw [hlabel]
    refine ⟨fetched_ACBlocks_of_normal hcycle, fetched_memP s, retire_ACBlocks _ _,
      retire_memP _ _, (retire_AC _ _).trans (hAC.trans (fetched_AC s)),
      hretire.1, hretire.2.1, hretire.2.2.trans ?_⟩
    have hpc' : (u.counted family.val).pc = s.pc := hpc.trans (dispatched_pc s _ _ _)
    simp only [hea, hpc', u, dispatched_ea]

/-- A machine at location 1000 with an AOJG there, whose accumulator holds the largest number. -/
def Cpu.atAOJG : Cpu :=
  { Cpu.initial with
    running := true
    memP := fun a => if a = 0o1000 then W36.assemble 0o347 1 false 0 0o2000 else 0
    ACBlocks := fun _ n => if n = 1 then W36.ofNat (W36.bit0 - 1) else 0
    pc := 0o1000
    fetchPC := 0o1000 }

/-- The count wraps to the smallest number, so that AOJG traps and does not jump. -/
theorem pass_count_AOJG :
    ∃ label t, Step Cpu.atAOJG label t ∧ t.pc.vma = 0o1001 ∧
      t.ACBlocks 0 1 = W36.ofNat W36.bit0 := by
  have hlink : LastLink Cpu.atAOJG.fetched Cpu.atAOJG.fetchWord Cpu.atAOJG.fetchWord :=
    .here (by decide +kernel)
  obtain ⟨hexists, hpost⟩ :=
    pass_count 4 7 (s := Cpu.atAOJG) (by decide +kernel) rfl (by decide +kernel)
  obtain ⟨label, t, hstep⟩ := hexists ⟨_, hlink⟩
  obtain ⟨last, running, nSteps, hlast, -, -, hac, -, -, -, -, hpc⟩ := hpost label t hstep
  obtain rfl := hlast.unique hlink
  have hmeets :
      (Cpu.atAOJG.dispatched Cpu.atAOJG.fetchWord running nSteps).meets 4 7 = false := by
    change (Cpu.atAOJG.dispatched Cpu.atAOJG.fetchWord true 0).meets 4 7 = false
    decide +kernel
  refine ⟨label, t, hstep, hpc.trans (if_neg (Bool.eq_false_iff.mp hmeets)), ?_⟩
  refine (congrFun (congrFun hac 0) 1).trans ?_
  change ((Cpu.atAOJG.dispatched Cpu.atAOJG.fetchWord true 0).counted 4).ACBlocks 0 1 = _
  decide +kernel

end KM10
