import KM10.Effects.Pass

/-!
The operands of the instructions as parts of the machine.

* `Reads`: a computation that reads an operand and at most stops the machine;
* `Cpu.memOperand`, `Cpu.immediateOperand`: one word;
* `Cpu.acPair`, `Cpu.memPair`, `Cpu.acQuad`: two and four words;
* `Cpu.setPair`: two accumulators stored.
-/

namespace KM10

open StateExcept

/-! ### One word -/

/-- The computation reads an operand and at most stops the machine, which does not change the
operand. -/
class Reads {α : Type} (get : Exec α) (operand : outParam (Cpu → α)) : Prop where
  out : ∀ s, ∃ running, get.run s = .ok (operand s, { s with running := running })
  stopped : ∀ s running, operand { s with running := running } = operand s := by intros; rfl

/-- The memory operand. -/
def Cpu.memOperand (s : Cpu) : W36 := s.word s.ea.rhu

/-- The immediate operand. -/
def Cpu.immediateOperand (s : Cpu) : W36 :=
  W36.halves (if s.pc.isSection0 then 0 else s.ea.lhu) s.ea.rhu

/-- The accumulator. -/
def Cpu.acOperand (s : Cpu) : W36 := s.acs s.iw.ac

/-- An accumulator is the word at its number. -/
lemma acs_eq_word (s : Cpu) (n : BitVec 4) : s.acs n = s.word (n.setWidth 18) := by
  have hlt : n.setWidth 18 < (0o20 : BitVec 18) := by
    have := n.isLt
    rw [BitVec.lt_def, BitVec.toNat_setWidth]
    change n.toNat % 2 ^ 18 < 16
    omega
  rw [Cpu.word, if_pos hlt, BitVec.setWidth_setWidth_of_le _ (by decide), BitVec.setWidth_eq]

instance reads_acGet : Reads acGet Cpu.acOperand where
  out := fun s => ⟨s.running, run_acGet s⟩

instance reads_memGet : Reads memGet Cpu.memOperand where
  out := fun s => ⟨_, run_memGet s⟩

instance reads_immediate : Reads immediate Cpu.immediateOperand where
  out := fun s => ⟨s.running, rfl⟩

instance reads_pure {α : Type} (v : α) : Reads (pure v) fun _ => v where
  out := fun s => ⟨s.running, rfl⟩

/-- Reading goes on with what was read. -/
lemma Reads.map {α β : Type} {get : Exec α} {operand : Cpu → α} (h : Reads get operand)
    (g : α → β) : Reads (do let v ← get; return g v : Exec β) fun s => g (operand s) where
  out := fun s => by
    obtain ⟨running, hrun⟩ := h.out s
    rw [run_bind_of_ok hrun]
    exact ⟨running, rfl⟩
  stopped := fun s running => congrArg g (h.stopped s running)

/-! ### Two and four words -/

/-- The accumulator after the one that the instruction names. -/
def Cpu.acNext (s : Cpu) : W36 := s.acs (s.iw.ac + 1)

/-- The double word in the accumulators. -/
def Cpu.acPair (s : Cpu) : W72 := ⟨s.acs s.iw.ac, s.acNext⟩

/-- The double word in memory. -/
def Cpu.memPair (s : Cpu) : W72 := ⟨s.memOperand, s.word (s.ea + 1).rhu⟩

/-- The dividend of DDIV in the accumulators. -/
def Cpu.acQuad (s : Cpu) : W144 :=
  .ofWords (s.acs s.iw.ac) (s.acs (s.iw.ac + 1)) (s.acs (s.iw.ac + 2)) (s.acs (s.iw.ac + 3))
    s.indeterminate

/-- The machine with a double word in the accumulators. -/
def Cpu.setPair (s : Cpu) (d : W72) : Cpu := (s.setAC d.hi s.iw.ac).setAC d.lo (s.iw.ac + 1)

lemma ac_ne_next : ∀ n : BitVec 4, n ≠ n + 1 := by decide

lemma acPair_setPair (s : Cpu) (d : W72) : (s.setPair d).acPair = d := by
  have hhi : (s.setPair d).acs s.iw.ac = d.hi := by
    rw [Cpu.setPair, acs_setAC, if_neg (ac_ne_next _), acs_setAC, if_pos rfl]
  have hlo : (s.setPair d).acs (s.iw.ac + 1) = d.lo := by rw [Cpu.setPair, acs_setAC, if_pos rfl]
  exact congrArg₂ W72.mk hhi hlo

lemma setPair_eq_iff {s : Cpu} {d e : W72} : s.setPair d = s.setPair e ↔ d = e :=
  ⟨fun h => by rw [← acPair_setPair s d, h, acPair_setPair], fun h => h ▸ rfl⟩

/-- The second of two stores to a pair of accumulators counts. -/
lemma setPair_setPair (s : Cpu) (d e : W72) : (s.setPair d).setPair e = s.setPair e := by
  change ((((s.setAC d.hi s.iw.ac).setAC d.lo (s.iw.ac + 1)).setAC e.hi s.iw.ac).setAC e.lo
    (s.iw.ac + 1)) = _
  rw [setAC_comm (s.setAC d.hi s.iw.ac) _ _ (ac_ne_next _).symm, setAC_setAC, setAC_setAC,
    Cpu.setPair]

lemma run_acGet2 {s : Cpu} (h : s.iw.ac.toNat + 1 < 16) : acGet2.run s = .ok (s.acPair, s) := by
  rw [acGet2, run_bind_of_ok (run_acGetPlus s.iw.ac.isLt), run_bind_of_ok (run_acGetPlus h)]
  simp only [BitVec.add_zero]
  rfl

/-- The store of a pair of accumulators, where it exists. -/
lemma run_acPut2 (v : W72) {s : Cpu} (h : s.iw.ac.toNat + 1 < 16) :
    (acPut2 v).run s = .ok ((), (s.setAC v.hi s.iw.ac).setAC v.lo (s.iw.ac + 1)) := by
  have h0 := run_acPutPlus v.hi (s := s) (k := 0) s.iw.ac.isLt
  have h1 := run_acPutPlus v.lo (s := s.setAC v.hi (s.iw.ac + BitVec.ofNat 4 0)) (k := 1) h
  rw [acPut2, run_bind_of_ok h0, h1]
  simp only [BitVec.add_zero]
  rfl

instance reads_memGetPairU : Reads memGetPairU Cpu.memPair where
  out := fun s => by
    rw [memGetPairU, run_bind_of_ok (run_gets Cpu.ea s), run_bind_of_ok (run_memGetN _ _),
      run_bind_of_ok (run_memGetN _ _)]
    exact ⟨_, rfl⟩

/-- A step of the address stays within its right half. -/
lemma rhu_ofNat_vma (a : W36) (k : ℕ) :
    (W36.ofNat (a.vma.toNat + k)).rhu = (a + BitVec.ofNat 36 k).rhu := by
  have hvma : a.vma.toNat = a.toNat % 2 ^ 23 := by
    rw [W36.vma, BitVec.extractLsb'_toNat, Nat.shiftRight_zero]
  apply BitVec.eq_of_toNat_eq
  rw [W36.toNat_rhu_ofNat, W36.rhu, BitVec.extractLsb'_toNat, Nat.shiftRight_zero,
    BitVec.toNat_add, BitVec.toNat_ofNat, hvma]
  omega

instance reads_memGetPairVma : Reads memGetPairVma Cpu.memPair where
  out := fun s => by
    rw [memGetPairVma, run_bind_of_ok (run_gets Cpu.ea s), run_bind_of_ok (run_memGetN _ _),
      run_bind_of_ok (run_memGetN _ _)]
    have hhi : (W36.ofNat s.ea.vma.toNat).rhu = s.ea.rhu := by
      have h := rhu_ofNat_vma s.ea 0
      rwa [Nat.add_zero, BitVec.add_zero] at h
    have hlo : (W36.ofNat (s.ea.vma.toNat + 1)).rhu = (s.ea + 1).rhu := rhu_ofNat_vma s.ea 1
    rw [hhi, hlo]
    exact ⟨_, rfl⟩

end KM10
