import KM10.Effects.Stores
import KM10.Library.TruthTable

/-!
The boolean group: opcodes 0400 to 0477.

An opcode reads as `04 f m`, with a function `f` of four bits, a table of the values on the
combinations of two bits, and a mode `m` of two bits.

* `Cpu.booleanOperand`, `Dest.ofBooleanMode`: the operand and the destination of a mode;
* `BooleanEntry`: a handler computes the function of its opcode and stores it as the mode says;
* `run_boolean`: the handlers of the group do.
-/

namespace KM10

open StateExcept TruthTable

/-! ### The instructions -/

/-- The second operand in a mode: the immediate one in mode 1, otherwise memory. -/
def Cpu.booleanOperand (s : Cpu) (m : ℕ) : W36 :=
  if m = 1 then s.immediateOperand else s.memOperand

/-- The destination of a mode. -/
def Dest.ofBooleanMode (m : ℕ) : Dest :=
  if m = 2 then .mem else if m = 3 then .both else .ac

variable {src : Exec W36} {operand : Cpu → W36} {put : W36 → Exec Unit} {d : Dest}

lemma does_logicInsn [hsrc : Reads src operand] [hput : Puts put d] (g : W36 → W36 → W36) :
    Does (logicInsn src g put) (fun _ => .iNormal)
      fun s => s.store (g (operand s) s.acOperand) d := by
  intro s
  obtain ⟨running, hread⟩ := hsrc.out s
  obtain ⟨running', hstore⟩ := hput.run (g (operand s) s.acOperand) s running s.flags
  refine ⟨running', ?_⟩
  rw [logicInsn, binInsn, run_bind_of_ok hread, run_bind_of_ok (run_acGet _), pure_bind]
  exact (run_bind_of_ok hstore).trans (by rw [← store_flags s _ d]; rfl)

lemma does_setInsn [hsrc : Reads src operand] [hput : Puts put d] :
    Does (setInsn src put) (fun _ => .iNormal) fun s => s.store (operand s) d := by
  intro s
  obtain ⟨running, hread⟩ := hsrc.out s
  obtain ⟨running', hstore⟩ := hput.run (operand s) s running s.flags
  refine ⟨running', ?_⟩
  rw [setInsn, run_bind_of_ok hread]
  exact (run_bind_of_ok hstore).trans (by rw [← store_flags s _ d]; rfl)

instance reads_dropping [h : Reads src operand] (v : W36) : Reads (dropping src v) fun _ => v :=
  h.map fun _ => v

instance reads_complementOf [h : Reads src operand] :
    Reads (complementOf src) fun s => ~~~ operand s := h.map (~~~ ·)

/-! ### The table -/

/-- The handler of an entry of the group computes the function of its opcode from the
accumulator and the operand of the mode, and stores it where the mode says. -/
def BooleanEntry (e : ℕ × Handler) : Prop :=
  e.1 / 0o100 = 4 → Does e.2 (fun _ => .iNormal) fun s =>
    s.store (minterms (e.1 / 4 % 16) s.acOperand (s.booleanOperand (e.1 % 4)))
      (.ofBooleanMode (e.1 % 4))

/-- An entry outside of the group. -/
lemma BooleanEntry.of_ne {op : ℕ} {h : Handler} (hop : op / 0o100 ≠ 4) : BooleanEntry (op, h) :=
  fun hrow => absurd hrow hop

/-- A function of both operands. -/
lemma BooleanEntry.of_logic {op : ℕ} {g : W36 → W36 → W36} [Reads src operand] [Puts put d]
    (hd : d = .ofBooleanMode (op % 4)) (hoperand : operand = fun s => s.booleanOperand (op % 4))
    (hg : ∀ a m : W36, ∀ k < 36, (g m a).getLsbD k =
      (op / 4 % 16).testBit (combination (a.getLsbD k) (m.getLsbD k))) :
    BooleanEntry (op, logicInsn src g put) := by
  intro _
  refine (does_logicInsn g).congr (fun _ => rfl) fun s => ?_
  rw [hd, eq_minterms (hg s.acOperand (operand s)), hoperand]

/-- A function that needs no operand or only one. -/
lemma BooleanEntry.of_set {op : ℕ} [Reads src operand] [Puts put d]
    (hd : d = .ofBooleanMode (op % 4))
    (hg : ∀ s : Cpu, ∀ k < 36, (operand s).getLsbD k = (op / 4 % 16).testBit
      (combination (s.acOperand.getLsbD k) ((s.booleanOperand (op % 4)).getLsbD k))) :
    BooleanEntry (op, setInsn src put) := by
  intro _
  refine does_setInsn.congr (fun _ => rfl) fun s => ?_
  rw [hd, eq_minterms (hg s)]

/-- The instructions with two operands. -/
lemma boolean_IntBin : ∀ e ∈ installIntBinGroup, BooleanEntry e := by
  simp only [installIntBinGroup, List.forall_mem_cons, List.not_mem_nil, false_imp_iff,
    implies_true, and_true]
  and_intros
  all_goals first
    | exact .of_ne (by decide)
    | refine .of_logic rfl rfl fun a m k hk => ?_
  all_goals
    simp only [BitVec.getLsbD_and, BitVec.getLsbD_or, BitVec.getLsbD_xor, BitVec.getLsbD_not, hk,
      decide_true, Bool.true_and]
    cases a.getLsbD k <;> cases m.getLsbD k <;> rfl

/-- The instructions with one operand or none. -/
lemma boolean_TstSet : ∀ e ∈ installTstSetGroup, BooleanEntry e := by
  simp only [installTstSetGroup, List.forall_mem_cons, List.not_mem_nil, false_imp_iff,
    implies_true, and_true]
  and_intros
  all_goals first
    | exact .of_ne (by decide)
    | refine .of_set rfl fun s k hk => ?_
  all_goals
    simp only [Cpu.booleanOperand, Nat.reduceMod, Nat.reduceEqDiff, reduceIte, W36.all1s,
      BitVec.ofNat_eq_ofNat, BitVec.getLsbD_zero, BitVec.getLsbD_allOnes, BitVec.getLsbD_not, hk,
      decide_true, Bool.true_and]
    cases s.acOperand.getLsbD k <;> cases s.memOperand.getLsbD k <;>
      cases s.immediateOperand.getLsbD k <;> rfl

/-- Every opcode `04 f m` is one of an instruction of the group. -/
lemma mem_boolean_opcodes (f : Fin 16) (m : Fin 4) :
    0o400 + 4 * f.val + m.val ∈ (installIntBinGroup ++ installTstSetGroup).map Prod.fst := by
  revert f m
  decide +kernel

/-- **The boolean group**: the handler of `04 f m` stores the function `f` of the accumulator
and the operand at the destination of the mode `m`, completes, and changes nothing else. -/
theorem run_boolean (f : Fin 16) (m : Fin 4) (s : Cpu) :
    ∃ running, (ops (0o400 + 4 * f.val + m.val)).run s = .ok (.iNormal,
      { s.store (minterms f.val s.acOperand (s.booleanOperand m.val)) (.ofBooleanMode m.val) with
        running := running }) := by
  have hsub : installIntBinGroup ++ installTstSetGroup ⊆ installs := by
    intro e he
    simp only [List.mem_append] at he
    exact mem_installs.mpr (by tauto)
  have hentry : ∀ e ∈ installIntBinGroup ++ installTstSetGroup, BooleanEntry e := by
    simp only [List.forall_mem_append]
    exact ⟨boolean_IntBin, boolean_TstSet⟩
  have hrow := ops_of_entries hsub hentry (mem_boolean_opcodes f m)
  have hf : (0o400 + 4 * f.val + m.val) / 4 % 16 = f.val := by omega
  have hm : (0o400 + 4 * f.val + m.val) % 4 = m.val := by omega
  have hdoes := hrow (show (0o400 + 4 * f.val + m.val) / 0o100 = 4 by omega) s
  simp only [hf, hm] at hdoes
  exact hdoes

end KM10
