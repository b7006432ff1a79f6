import KM10.Effects.Operands

/-!
The block transfer.

`doBLT` transfers a word and steps both halves of its pointer, until the right one is beyond the
effective address.  At the end of the address space it never is.

* `copyWords`, `bltCount`, `TransfersBlock`: what BLT promises;
* `AcOutside`: the blocks do not contain the accumulator with the pointer;
* `run_bltLoop_step`: one round of the loop;
* `run_bltLoop_short`, `run_bltLoop_count`: the rounds of a block;
* `blt_iff`: when BLT keeps the promise;
* `blt_wraps`: a transfer that never ends.
-/

namespace KM10

open StateExcept

/-! ### What a block transfer promises -/

/-- The machine after `k` words have been copied one at a time, in ascending order. -/
def copyWords (src dst : BitVec 18) : ℕ → Cpu → Cpu
  | 0, s => s
  | k + 1, s =>
      let t := copyWords src dst k s
      t.setWord (t.word (src + .ofNat 18 k)) (dst + .ofNat 18 k)

/-- The words that BLT transfers: those up to the effective address, but at least one. -/
def bltCount (dst e : BitVec 18) : ℕ := max 1 (e.toNat + 1 - dst.toNat)

/-- The pointer after `k` transfers. -/
def bltPointer (src dst : BitVec 18) (k : ℕ) : W36 :=
  W36.halves (src + .ofNat 18 k) (dst + .ofNat 18 k)

/-- The machine after `k` transfers, with its pointer.  A breakpoint may have stopped it. -/
def Cpu.transferred (s : Cpu) (src dst : BitVec 18) (k : ℕ) (running : Bool) : Cpu :=
  { (copyWords src dst k s).setAC (bltPointer src dst k) s.iw.ac with running := running }

/-- BLT copies its words and steps its pointer, and the loop ends after exactly as many rounds. -/
def TransfersBlock (s : Cpu) : Prop :=
  let src := s.acOperand.lhu
  let dst := s.acOperand.rhu
  let t := bltCount dst s.ea.rhu
  (∃ running, (ops 0o251).run s = .ok (.iNormal, s.transferred src dst t running)) ∧
    ∀ rounds, (∃ u, (bltLoop s.ea rounds s.acOperand).run s = .ok ((), u)) ↔ t ≤ rounds

/-- Neither of two blocks contains the accumulator that the instruction names. -/
def Cpu.AcOutside (s : Cpu) (src dst : BitVec 18) (n : ℕ) : Prop :=
  ∀ k < n, src + .ofNat 18 k ≠ s.iw.ac.setWidth 18 ∧ dst + .ofNat 18 k ≠ s.iw.ac.setWidth 18

instance (s : Cpu) (src dst : BitVec 18) (n : ℕ) : Decidable (s.AcOutside src dst n) :=
  inferInstanceAs (Decidable (∀ k < n, _ ∧ _))

/-! ### The loop -/

lemma copyWords_iw (src dst : BitVec 18) (k : ℕ) (s : Cpu) : (copyWords src dst k s).iw = s.iw := by
  induction k with
  | zero => rfl
  | succ k ih => exact (setWord_iw _ _ _).trans ih

/-- A round steps both halves of the pointer. -/
lemma bltPointer_succ (src dst : BitVec 18) (k : ℕ) :
    W36.halves ((bltPointer src dst k).lhu + 1) ((bltPointer src dst k).rhu + 1) =
      bltPointer src dst (k + 1) := by
  rw [bltPointer, W36.lhu_halves, W36.rhu_halves, bltPointer, BitVec.ofNat_add,
    ← BitVec.add_assoc, ← BitVec.add_assoc]
  rfl

section Round

variable {s : Cpu} {src dst : BitVec 18} {k : ℕ}

/-- Outside of the accumulator the pointer does not show. -/
lemma word_transferred (hsrc : src + .ofNat 18 k ≠ s.iw.ac.setWidth 18) (running : Bool) :
    (s.transferred src dst k running).word (src + .ofNat 18 k) =
      (copyWords src dst k s).word (src + .ofNat 18 k) :=
  (word_setAC (copyWords src dst k s) (bltPointer src dst k) s.iw.ac _).trans (if_neg hsrc)

/-- The stores of a round. -/
lemma transferred_succ (hdst : dst + .ofNat 18 k ≠ s.iw.ac.setWidth 18) (running running' : Bool) :
    ({ (s.transferred src dst k running).setWord ((copyWords src dst k s).word (src + .ofNat 18 k))
        (dst + .ofNat 18 k) with running := running' } : Cpu).setAC
      (bltPointer src dst (k + 1)) s.iw.ac = s.transferred src dst (k + 1) running' := by
  let C := copyWords src dst k s
  let v := C.word (src + .ofNat 18 k)
  have hstore : (s.transferred src dst k running).setWord v (dst + .ofNat 18 k) =
      { (C.setWord v (dst + .ofNat 18 k)).setAC (bltPointer src dst k) s.iw.ac with
        running := running } := by
    change ({ C.setAC (bltPointer src dst k) s.iw.ac with running := running } : Cpu).setWord
      _ _ = _
    rw [setWord_running, setAC_setWord _ _ _ hdst]
  rw [hstore]
  change { ((C.setWord v (dst + .ofNat 18 k)).setAC (bltPointer src dst k) s.iw.ac).setAC
    (bltPointer src dst (k + 1)) s.iw.ac with running := running' } = _
  rw [setAC_setAC]
  rfl

end Round

/-- One round transfers a word and steps the pointer, and the loop goes on unless the pointer is
beyond the effective address. -/
lemma run_bltLoop_step (ea : W36) (fuel : ℕ) {s : Cpu} {src dst : BitVec 18} {n k : ℕ}
    (hout : s.AcOutside src dst n) (hk : k < n) (running : Bool) :
    ∃ running', (bltLoop ea (fuel + 1) (bltPointer src dst k)).run
        (s.transferred src dst k running) =
      if dst + .ofNat 18 (k + 1) ≤ ea.rhu then
        (bltLoop ea fuel (bltPointer src dst (k + 1))).run
          (s.transferred src dst (k + 1) running')
      else .ok ((), s.transferred src dst (k + 1) running') := by
  obtain ⟨hsrc, hdst⟩ := hout k hk
  let v := (copyWords src dst k s).word (src + .ofNat 18 k)
  obtain ⟨read, hget⟩ : ∃ read, (memGetN (W36.halves ea.lhu (src + .ofNat 18 k))).run
      (s.transferred src dst k running) = .ok (v, s.transferred src dst k read) := by
    obtain ⟨read, hget⟩ := exists_run_memGetN (W36.halves ea.lhu (src + .ofNat 18 k))
      (s.transferred src dst k running)
    rw [W36.rhu_halves, word_transferred hsrc] at hget
    exact ⟨read, hget⟩
  obtain ⟨stored, hput⟩ := exists_run_memPutN v (W36.halves ea.lhu (dst + .ofNat 18 k))
    (s.transferred src dst k read)
  rw [W36.rhu_halves] at hput
  let T : Cpu := { (s.transferred src dst k read).setWord v (dst + .ofNat 18 k) with
    running := stored }
  have hiw : T.iw = s.iw :=
    (setWord_iw (s.transferred src dst k read) _ _).trans (copyWords_iw src dst k s)
  have hac : (acPut (bltPointer src dst (k + 1))).run T =
      .ok ((), s.transferred src dst (k + 1) stored) := by
    rw [run_acPut, hiw, transferred_succ hdst read stored]
  refine ⟨stored, ?_⟩
  rw [bltLoop, bltPointer_succ, bltPointer, W36.lhu_halves, W36.rhu_halves, run_bind_of_ok hget,
    run_bind_of_ok hput]
  dsimp only
  rw [run_bind_of_ok hac, bltPointer, W36.rhu_halves]
  split <;> rfl

section Block

variable {s : Cpu} {src dst : BitVec 18}

/-- Within the block the pointer is not beyond the effective address. -/
lemma pointer_le {e : BitVec 18} {k : ℕ} (hk : 1 ≤ k) (hlt : k < bltCount dst e) :
    dst + .ofNat 18 k ≤ e := by
  have he := e.isLt
  rw [bltCount] at hlt
  rw [BitVec.le_def, BitVec.toNat_add, BitVec.toNat_ofNat]
  omega

/-- At its end the pointer is, unless it has come to the end of the address space. -/
lemma pointer_le_iff (dst e : BitVec 18) :
    dst + .ofNat 18 (bltCount dst e) ≤ e ↔ e = 0o777777 ∨ dst = 0o777777 := by
  have he := e.isLt
  have hdst := dst.isLt
  have hend : (0o777777 : BitVec 18).toNat = 2 ^ 18 - 1 := rfl
  rw [BitVec.le_def, BitVec.toNat_add, BitVec.toNat_ofNat, bltCount, ← BitVec.toNat_inj,
    ← BitVec.toNat_inj, hend]
  omega

/-- With fewer rounds than words the loop has not ended. -/
lemma run_bltLoop_short {ea : W36} {fuel k : ℕ}
    (hout : s.AcOutside src dst (bltCount dst ea.rhu))
    (hk : k + fuel < bltCount dst ea.rhu) (running : Bool) :
    (bltLoop ea fuel (bltPointer src dst k)).run (s.transferred src dst k running) =
      .error .hang := by
  induction fuel generalizing k running with
  | zero => rfl
  | succ fuel ih =>
    obtain ⟨running', hstep⟩ := run_bltLoop_step ea fuel hout (k := k) (by omega) running
    have hlt : k + 1 < bltCount dst ea.rhu := by omega
    rw [hstep, if_pos (pointer_le (Nat.le_add_left 1 k) hlt), ih (by omega)]

/-- With as many as there are words it comes to the end of the block. -/
lemma run_bltLoop_count {ea : W36} {m k : ℕ}
    (hout : s.AcOutside src dst (bltCount dst ea.rhu))
    (hk : k + m + 1 = bltCount dst ea.rhu) (extra : ℕ) (running : Bool) :
    ∃ running', (bltLoop ea (m + 1 + extra) (bltPointer src dst k)).run
        (s.transferred src dst k running) =
      if dst + .ofNat 18 (bltCount dst ea.rhu) ≤ ea.rhu then
        (bltLoop ea extra (bltPointer src dst (bltCount dst ea.rhu))).run
          (s.transferred src dst (bltCount dst ea.rhu) running')
      else .ok ((), s.transferred src dst (bltCount dst ea.rhu) running') := by
  induction m generalizing k running with
  | zero =>
    obtain ⟨running', hstep⟩ := run_bltLoop_step ea extra hout (k := k) (by omega) running
    refine ⟨running', ?_⟩
    rw [Nat.add_zero] at hk
    rw [← hk, Nat.zero_add, Nat.add_comm 1 extra, hstep]
  | succ m ih =>
    have hlt : k + 1 < bltCount dst ea.rhu := by omega
    obtain ⟨running₁, hstep⟩ :=
      run_bltLoop_step ea (m + 1 + extra) hout (k := k) (by omega) running
    obtain ⟨running', hrest⟩ := ih (k := k + 1) (by omega) running₁
    refine ⟨running', ?_⟩
    rw [Nat.add_right_comm (m + 1), hstep, if_pos (pointer_le (Nat.le_add_left 1 k) hlt), hrest]

end Block

lemma bltPointer_zero (a : W36) : bltPointer a.lhu a.rhu 0 = a :=
  (congrArg₂ W36.halves (BitVec.add_zero _) (BitVec.add_zero _)).trans (W36.halves_eta a)

/-- The machine before the first transfer. -/
lemma transferred_zero (s : Cpu) :
    s.transferred s.acOperand.lhu s.acOperand.rhu 0 s.running = s := by
  change { s.setAC (bltPointer s.acOperand.lhu s.acOperand.rhu 0) s.iw.ac with
    running := s.running } = s
  rw [bltPointer_zero]
  exact setAC_self s s.iw.ac

/-- The handler is its loop. -/
lemma run_doBLT_of_loop {s u : Cpu} (h : (bltLoop s.ea bltRounds s.acOperand).run s = .ok ((), u)) :
    (ops 0o251).run s = .ok (.iNormal, u) := by
  have hop : ops 0o251 = doBLT := ops_of_mem (by simp [installs, installIntBinGroup])
  rw [hop, doBLT, run_bind_of_ok (run_acGet s), run_bind_of_ok (run_gets Cpu.ea s)]
  exact run_bind_of_ok h

section Whole

variable {s : Cpu}
  (hout : s.AcOutside s.acOperand.lhu s.acOperand.rhu (bltCount s.acOperand.rhu s.ea.rhu))
include hout

/-- The whole block. -/
lemma run_bltLoop_block (extra : ℕ) :
    ∃ running, (bltLoop s.ea (bltCount s.acOperand.rhu s.ea.rhu + extra) s.acOperand).run s =
      if s.acOperand.rhu + .ofNat 18 (bltCount s.acOperand.rhu s.ea.rhu) ≤ s.ea.rhu then
        (bltLoop s.ea extra (bltPointer s.acOperand.lhu s.acOperand.rhu
          (bltCount s.acOperand.rhu s.ea.rhu))).run
          (s.transferred s.acOperand.lhu s.acOperand.rhu
            (bltCount s.acOperand.rhu s.ea.rhu) running)
      else .ok ((), s.transferred s.acOperand.lhu s.acOperand.rhu
        (bltCount s.acOperand.rhu s.ea.rhu) running) := by
  obtain ⟨m, hm⟩ : ∃ m, 0 + m + 1 = bltCount s.acOperand.rhu s.ea.rhu :=
    ⟨bltCount s.acOperand.rhu s.ea.rhu - 1, by rw [bltCount]; omega⟩
  have hloop := run_bltLoop_count hout hm extra s.running
  rwa [bltPointer_zero, transferred_zero, ← Nat.zero_add m, hm] at hloop

/-- Less than the whole block. -/
lemma run_bltLoop_part {rounds : ℕ} (hlt : rounds < bltCount s.acOperand.rhu s.ea.rhu) :
    (bltLoop s.ea rounds s.acOperand).run s = .error .hang := by
  have hshort := run_bltLoop_short hout ((Nat.zero_add rounds).symm ▸ hlt) s.running
  rwa [bltPointer_zero, transferred_zero] at hshort

/-- A loop that goes on at the end of the block has not ended with the rounds of the block. -/
lemma not_transfersBlock
    (hend : s.acOperand.rhu + .ofNat 18 (bltCount s.acOperand.rhu s.ea.rhu) ≤ s.ea.rhu) :
    ¬ TransfersBlock s := by
  rintro ⟨-, hrounds⟩
  obtain ⟨running, hrun⟩ := run_bltLoop_block hout 0
  obtain ⟨u, hu⟩ := (hrounds _).mpr (Nat.le_add_right _ 0)
  rw [hrun, if_pos hend] at hu
  cases hu

/-- BLT keeps its promise unless the effective address or its first destination is the last address:
after that one comes address 0, which is not beyond the effective address. -/
theorem blt_iff :
    TransfersBlock s ↔ s.ea.rhu ≠ 0o777777 ∧ s.acOperand.rhu ≠ 0o777777 := by
  rw [← not_or, ← pointer_le_iff]
  refine ⟨fun h hend => not_transfersBlock hout hend h, fun hend => ?_⟩
  have hloop := run_bltLoop_block hout
  simp only [if_neg hend] at hloop
  have hle : bltCount s.acOperand.rhu s.ea.rhu ≤ bltRounds := by
    have he := s.ea.rhu.isLt
    rw [bltCount, bltRounds]
    omega
  constructor
  · obtain ⟨running, hrun⟩ := hloop (bltRounds - bltCount s.acOperand.rhu s.ea.rhu)
    rw [Nat.add_sub_of_le hle] at hrun
    exact ⟨running, run_doBLT_of_loop hrun⟩
  · intro rounds
    constructor
    · rintro ⟨u, hu⟩
      by_contra hlt
      rw [run_bltLoop_part hout (not_le.mp hlt)] at hu
      cases hu
    · intro hrounds
      obtain ⟨running, hrun⟩ := hloop (rounds - bltCount s.acOperand.rhu s.ea.rhu)
      rw [Nat.add_sub_of_le hrounds] at hrun
      exact ⟨_, hrun⟩

end Whole

/-- A machine with a pointer in accumulator 0 and an effective address. -/
def bltMachine (src dst e : BitVec 18) : Cpu :=
  { Cpu.initial.setAC (W36.halves src dst) 0 with ea := W36.halves 0 e }

/-- Two words, from 0100 to 0200. -/
theorem blt_two :
    TransfersBlock (bltMachine 0o100 0o200 0o201) ↔
      (bltMachine 0o100 0o200 0o201).ea.rhu ≠ 0o777777 ∧
        (bltMachine 0o100 0o200 0o201).acOperand.rhu ≠ 0o777777 :=
  blt_iff (by decide)

/-- A transfer to the last address never ends. -/
theorem blt_wraps : ¬ TransfersBlock (bltMachine 1 0o777777 0o777777) :=
  not_transfersBlock (by decide) (by decide)

end KM10
