import KM10.Effects.Stores

/-!
The tests: opcodes 0600 to 0677.

An opcode names the modification of the accumulator (bits 060), the mask (bits 010 and 01) and
the rule for the skip (bits 06).

* `Cpu.testMask`, `testSkips`, `testedWord`: the mask, the rule and the modification of an opcode;
* `Selects`, `Deposits`: the accessors of the accumulator and of its halves;
* `TestEntry`: a handler tests as its opcode says;
* `run_test`: the handlers of the group do.
-/

namespace KM10

open StateExcept

/-! ### The test of an opcode -/

/-- The mask: the right half of the effective address, in the right half or in the left one, or
the memory operand, as it is or with its halves exchanged. -/
def Cpu.testMask (s : Cpu) (memory other : ℕ) : W36 :=
  match memory, other with
  | 0, 0 => W36.halves 0 s.ea.rhu
  | 0, _ => W36.halves s.ea.rhu 0
  | _, 0 => s.memOperand
  | _, _ => W36.halves s.memOperand.rhu s.memOperand.lhu

/-- The rule for the skip: never, if the masked bits are all zero, always, if one is set. -/
def testSkips (rule : ℕ) (a mask : W36) : Bool :=
  match rule with
  | 0 => false
  | 1 => a &&& mask = 0
  | 2 => true
  | _ => a &&& mask ≠ 0

/-- The modification of the masked bits: none, to zeros, to their complement, to ones. -/
def testedWord (modification : ℕ) (a mask : W36) : W36 :=
  match modification with
  | 0 => a
  | 1 => a &&& ~~~ mask
  | 2 => a ^^^ mask
  | _ => a ||| mask

/-! ### The accumulator and its halves -/

/-- The computation reads a part of the accumulator. -/
class Selects (get : Exec W36) (part : outParam (W36 → W36)) : Prop where
  out : ∀ s, get.run s = .ok (part s.acOperand, s)

/-- The computation stores a word into a part of the accumulator. -/
class Deposits (put : W36 → Exec Unit) (deposit : outParam (W36 → W36 → W36)) : Prop where
  out : ∀ v s, (put v).run s = .ok ((), s.setAC (deposit s.acOperand v) s.iw.ac)

instance selects_acGet : Selects acGet fun a => a := ⟨run_acGet⟩

instance selects_acGetRH : Selects acGetRH fun a => W36.halves 0 a.rhu where
  out := fun s => by
    rw [acGetRH, run_bind_of_ok (run_acGet s)]
    rfl

instance selects_acGetLH : Selects acGetLH fun a => W36.halves 0 a.lhu where
  out := fun s => by
    rw [acGetLH, run_bind_of_ok (run_acGet s)]
    rfl

instance deposits_acPut : Deposits acPut fun _ v => v := ⟨run_acPut⟩

instance deposits_acPutRH : Deposits acPutRH fun a v => W36.halves a.lhu v.rhu where
  out := fun v s => by
    rw [acPutRH, run_bind_of_ok (run_acGet s), run_acPut]
    rfl

instance deposits_acPutLH : Deposits acPutLH fun a v => W36.halves v.rhu a.rhu where
  out := fun v s => by
    rw [acPutLH, run_bind_of_ok (run_acGet s), run_acPut]
    rfl

instance reads_memGetSwapped : Reads memGetSwapped fun s => swap s.memOperand :=
  reads_memGet.map swap

instance reads_eaMask : Reads eaMask Cpu.ea where
  out := fun s => ⟨s.running, rfl⟩

instance reads_eaMaskR : Reads eaMaskR fun s => W36.halves 0 s.ea.rhu where
  out := fun s => ⟨s.running, rfl⟩

/-! ### The instructions -/

variable {get1 get2 : Exec W36} {part : W36 → W36} {operand : Cpu → W36}
  {put : W36 → Exec Unit} {deposit : W36 → W36 → W36}

lemma does_readInsn (r : IResult) : Does (readInsn r) (fun _ => r) fun s => s := by
  intro s
  obtain ⟨running, hread⟩ := reads_memGet.out s
  rw [readInsn, run_bind_of_ok hread]
  exact ⟨running, rfl⟩

lemma does_testInsn [h1 : Selects get1 part] [h2 : Reads get2 operand] (when : SkipWhen) :
    Does (testInsn get1 get2 when)
      (fun s => if when.holds (part s.acOperand &&& operand s) then .iSkip else .iNormal)
      fun s => s := by
  intro s
  obtain ⟨running, hread⟩ := h2.out s
  rw [testInsn, run_bind_of_ok (h1.out s), run_bind_of_ok hread]
  exact ⟨running, rfl⟩

lemma does_testPutInsn [h1 : Selects get1 part] [h2 : Reads get2 operand]
    [hput : Deposits put deposit] (when : SkipWhen) (mask : W36 → W36 → W36) :
    Does (testPutInsn get1 get2 when put mask)
      (fun s => if when.holds (part s.acOperand &&& operand s) then .iSkip else .iNormal)
      fun s => s.setAC (deposit s.acOperand (mask (part s.acOperand) (operand s))) s.iw.ac := by
  intro s
  obtain ⟨running, hread⟩ := h2.out s
  rw [testPutInsn, run_bind_of_ok (h1.out s), run_bind_of_ok hread,
    run_bind_of_ok (hput.out _ _)]
  exact ⟨running, rfl⟩

/-! ### The table -/

/-- The mask of an opcode. -/
def Cpu.opcodeMask (s : Cpu) (op : ℕ) : W36 := s.testMask (op / 0o10 % 2) (op % 2)

/-- The handler of an entry of the group tests as its opcode says. -/
def TestEntry (e : ℕ × Handler) : Prop :=
  e.1 / 0o100 = 6 → Does e.2
    (fun s => if testSkips (e.1 / 2 % 4) s.acOperand (s.opcodeMask e.1) then .iSkip else .iNormal)
    fun s => s.setAC (testedWord (e.1 / 0o20 % 4) s.acOperand (s.opcodeMask e.1)) s.iw.ac

/-- An entry outside of the group. -/
lemma TestEntry.of_ne {op : ℕ} {h : Handler} (hop : op / 0o100 ≠ 6) : TestEntry (op, h) :=
  fun hrow => absurd hrow hop

/-- A test that neither reads the bits nor changes them. -/
lemma TestEntry.of_unchanged {op : ℕ} {h : Handler} {r : IResult}
    (hdoes : Does h (fun _ => r) fun s => s) (hmodification : op / 0o20 % 4 = 0)
    (hskip : ∀ a mask, r = if testSkips (op / 2 % 4) a mask then .iSkip else .iNormal) :
    TestEntry (op, h) := by
  intro _
  refine hdoes.congr (fun s => hskip _ _) fun s => ?_
  rw [hmodification]
  exact (setAC_self s s.iw.ac).symm

/-- The model's name of a rule. -/
def SkipWhen.ofRule (rule : ℕ) : SkipWhen :=
  match rule with
  | 0 => .never
  | 1 => .zero
  | 2 => .always
  | _ => .nonzero

/-- Selected bits that are zero when the masked ones are decide the skip. -/
lemma holds_ofRule (rule : ℕ) {selected a mask : W36} (h : selected = 0 ↔ a &&& mask = 0) :
    (SkipWhen.ofRule rule).holds selected = testSkips rule a mask := by
  match rule with
  | 0 => rfl
  | 1 => simp only [SkipWhen.ofRule, SkipWhen.holds, testSkips, h]
  | 2 => rfl
  | _ + 3 => simp only [SkipWhen.ofRule, SkipWhen.holds, testSkips, h, ne_eq]

/-- A test without a modification. -/
lemma TestEntry.of_test {op : ℕ} {when : SkipWhen} [Selects get1 part] [Reads get2 operand]
    (hmodification : op / 0o20 % 4 = 0) (hwhen : when = .ofRule (op / 2 % 4))
    (hselected : ∀ s : Cpu, part s.acOperand &&& operand s = 0 ↔
      s.acOperand &&& s.opcodeMask op = 0) : TestEntry (op, testInsn get1 get2 when) := by
  intro _
  refine (does_testInsn when).congr (fun s => ?_) fun s => ?_
  · rw [hwhen, holds_ofRule _ (hselected s)]
  · rw [hmodification]
    exact (setAC_self s s.iw.ac).symm

/-- A test with a modification. -/
lemma TestEntry.of_testPut {op : ℕ} {when : SkipWhen} {mask : W36 → W36 → W36}
    [Selects get1 part] [Reads get2 operand] [Deposits put deposit]
    (hwhen : when = .ofRule (op / 2 % 4))
    (hselected : ∀ s : Cpu, part s.acOperand &&& operand s = 0 ↔
      s.acOperand &&& s.opcodeMask op = 0)
    (hword : ∀ s : Cpu, deposit s.acOperand (mask (part s.acOperand) (operand s)) =
      testedWord (op / 0o20 % 4) s.acOperand (s.opcodeMask op)) :
    TestEntry (op, testPutInsn get1 get2 when put mask) := by
  intro _
  refine (does_testPutInsn when mask).congr (fun s => ?_) fun s => ?_
  · rw [hwhen, holds_ofRule _ (hselected s)]
  · rw [hword]

/-- The selected bits of a test of the right half. -/
lemma selected_right (a e : W36) : W36.halves 0 a.rhu &&& e = a &&& W36.halves 0 e.rhu :=
  W36.ext_halves (by simp) (by simp)

/-- The selected bits of a test of the left half, which the source has in the right one. -/
lemma selected_left (a e : W36) :
    W36.halves 0 a.lhu &&& e = 0 ↔ a &&& W36.halves e.rhu 0 = 0 := by
  have h1 : W36.halves 0 a.lhu &&& e = W36.halves 0 (a.lhu &&& e.rhu) :=
    W36.ext_halves (by simp) (by simp)
  have h2 : a &&& W36.halves e.rhu 0 = W36.halves (a.lhu &&& e.rhu) 0 :=
    W36.ext_halves (by simp) (by simp)
  rw [h1, h2, W36.halves_eq_zero_iff, W36.halves_eq_zero_iff, and_comm]

/-- The complement of an empty half masks nothing. -/
lemma and_halfOnes (v : BitVec 18) : v &&& 262143#18 = v := BitVec.and_allOnes

/-- The entries of the group, by the shape of their handlers. -/
lemma test_entries : ∀ e ∈ installTstSetGroup, TestEntry e := by
  simp only [installTstSetGroup, List.forall_mem_cons, List.not_mem_nil, false_imp_iff,
    implies_true, and_true]
  and_intros
  all_goals first
    | exact .of_ne (by decide)
    | with_reducible refine .of_testPut ?_ ?_ ?_
    | with_reducible refine .of_test ?_ ?_ ?_
    | exact .of_unchanged (does_pure _) rfl fun _ _ => rfl
    | exact .of_unchanged (does_readInsn _) rfl fun _ _ => rfl
  all_goals first
    | intro s
      simp only [Cpu.opcodeMask, Cpu.testMask, Nat.reduceDiv, Nat.reduceMod, selected_right,
        selected_left, W36.rhu_halves, swap, testedWord, zeroMask, compMask, onesMask]
      done
    | intro s
      refine W36.ext_halves ?_ ?_ <;>
        simp [Cpu.opcodeMask, Cpu.testMask, testedWord, zeroMaskR, compMaskR, onesMaskR,
          W36.setWidth_eq_halves, and_halfOnes]
    | rfl

/-- Every opcode is one of an instruction of the group. -/
lemma mem_test_opcodes (modification : Fin 4) (memory : Fin 2) (rule : Fin 4) (other : Fin 2) :
    0o600 + 0o20 * modification.val + 0o10 * memory.val + 2 * rule.val + other.val ∈
      installTstSetGroup.map Prod.fst := by
  revert modification memory rule other
  decide +kernel

/-- A test of the right half keeps the left one. -/
lemma lhu_testedWord (modification : ℕ) (a : W36) (r : BitVec 18) :
    (testedWord modification a (W36.halves 0 r)).lhu = a.lhu := by
  match modification with
  | 0 => rfl
  | 1 => simp [testedWord, and_halfOnes]
  | 2 => simp [testedWord]
  | _ + 3 => simp [testedWord]

/-- A test of the left half keeps the right one. -/
lemma rhu_testedWord (modification : ℕ) (a : W36) (l : BitVec 18) :
    (testedWord modification a (W36.halves l 0)).rhu = a.rhu := by
  match modification with
  | 0 => rfl
  | 1 => simp [testedWord, and_halfOnes]
  | 2 => simp [testedWord]
  | _ + 3 => simp [testedWord]

/-- An immediate mask is made of the right half of the effective address. -/
lemma testMask_of_rhu {s t : Cpu} (h : t.ea.rhu = s.ea.rhu) (other : ℕ) :
    t.testMask 0 other = s.testMask 0 other := by
  match other with
  | 0 => exact congrArg (W36.halves 0) h
  | _ + 1 => exact congrArg (W36.halves · 0) h

/-- The handler of an opcode tests as the opcode says. -/
lemma test_ops (modification : Fin 4) (memory : Fin 2) (rule : Fin 4) (other : Fin 2)
    (s : Cpu) :
    ∃ running,
      (ops (0o600 + 0o20 * modification.val + 0o10 * memory.val + 2 * rule.val + other.val)).run s =
        .ok (if testSkips rule.val s.acOperand (s.testMask memory.val other.val) then .iSkip
          else .iNormal,
          { s.setAC (testedWord modification.val s.acOperand (s.testMask memory.val other.val))
              s.iw.ac with running := running }) := by
  have hsub : installTstSetGroup ⊆ installs := fun e he => mem_installs.mpr (by tauto)
  have hrow := ops_of_entries hsub test_entries (mem_test_opcodes modification memory rule other)
  have hdoes := hrow (show (0o600 + 0o20 * modification.val + 0o10 * memory.val +
    2 * rule.val + other.val) / 0o100 = 6 by omega) s
  have hmodification : (0o600 + 0o20 * modification.val + 0o10 * memory.val + 2 * rule.val +
      other.val) / 0o20 % 4 = modification.val := by omega
  have hmemory : (0o600 + 0o20 * modification.val + 0o10 * memory.val + 2 * rule.val +
      other.val) / 0o10 % 2 = memory.val := by omega
  have hrule : (0o600 + 0o20 * modification.val + 0o10 * memory.val + 2 * rule.val +
      other.val) / 2 % 4 = rule.val := by omega
  have hother : (0o600 + 0o20 * modification.val + 0o10 * memory.val + 2 * rule.val +
      other.val) % 2 = other.val := by omega
  simp only [Cpu.opcodeMask, hmodification, hmemory, hrule, hother] at hdoes
  exact hdoes

/-- **The tests**: the handler of an opcode skips by its rule on the accumulator as it was,
leaves the modified word in it, and changes nothing else.  A test with an immediate mask keeps
the half of the accumulator that it does not test, and sees the right half of the effective
address alone. -/
theorem run_test (modification : Fin 4) (memory : Fin 2) (rule : Fin 4) (other : Fin 2)
    (s : Cpu) :
    (∃ running,
      (ops (0o600 + 0o20 * modification.val + 0o10 * memory.val + 2 * rule.val + other.val)).run s =
        .ok (if testSkips rule.val s.acOperand (s.testMask memory.val other.val) then .iSkip
          else .iNormal,
          { s.setAC (testedWord modification.val s.acOperand (s.testMask memory.val other.val))
              s.iw.ac with running := running })) ∧
      (testedWord modification.val s.acOperand (s.testMask 0 0)).lhu = s.acOperand.lhu ∧
      (testedWord modification.val s.acOperand (s.testMask 0 1)).rhu = s.acOperand.rhu ∧
      ∀ lh : BitVec 18, ({ s with ea := W36.halves lh s.ea.rhu } : Cpu).testMask 0 other.val =
        s.testMask 0 other.val := by
  refine ⟨test_ops modification memory rule other s, lhu_testedWord _ _ _, rhu_testedWord _ _ _,
    fun lh => testMask_of_rhu ?_ other.val⟩
  exact W36.rhu_halves lh s.ea.rhu

end KM10
