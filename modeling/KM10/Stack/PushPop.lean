import KM10.Effects.Stack

/-!
A push and a pop.

On a local stack pointer `push` and `pop` step both halves; but `push` stores nothing when the count
runs out, and outside section 0 the pointer that it leaves may be a global one to `pop`.  On a
global one `push` stores the address at the word instead of the word at the address.

* `pushPointer`, `PushPops`: what a push and a pop promise;
* `run_push_of_global`, `run_pop_of_global`: what the code does on a global one;
* `PushFits`, `push_pop_iff`: when they keep the promise;
* `push_full_and_global`: stacks on which they do not.
-/

namespace KM10

open StateExcept

/-! ### What a push and a pop promise -/

/-- The stack pointer after a push: both halves of a local pointer are stepped, and a global one is
stepped as a whole. -/
def Cpu.pushPointer (s : Cpu) : W36 :=
  if s.LocalStack then s.pushedPointer else s.acOperand + 1

/-- A push stores the word where its pointer points to and leaves the other words as they are; a pop
after it returns the word, and restores the pointer. -/
def PushPops (v : W36) (s : Cpu) : Prop :=
  ∃ t, (push v).run s = .ok ((), t) ∧
    t.word = ((s.setWord v s.pushPointer.rhu).setAC s.pushPointer s.iw.ac).word ∧
    ∃ u, pop.run t = .ok (v, u) ∧ u.acs s.iw.ac = s.acOperand

/-! ### The code -/

section Push

variable (v : W36) {s : Cpu}

/-- A push on a global stack stores its address at the word. -/
lemma run_push_of_global (h : ¬ s.LocalStack) :
    ∃ running, (push v).run s = .ok ((),
      { (s.setWord (W36.ofNat (s.acOperand + 1).vma.toNat) v.rhu).setAC (s.acOperand + 1) s.iw.ac
        with running := running }) := by
  obtain ⟨running, hput⟩ := exists_run_memPutN (W36.ofNat (s.acOperand + 1).vma.toNat) v s
  have hrun := run_acPut (s.acOperand + 1)
    { s.setWord (W36.ofNat (s.acOperand + 1).vma.toNat) v.rhu with running := running }
  have hiw := setWord_iw s (W36.ofNat (s.acOperand + 1).vma.toNat) v.rhu
  rw [hiw] at hrun
  rw [push, run_bind_of_ok (run_acGet s), run_bind_of_ok (run_localStack s), decide_eq_false h,
    if_neg Bool.false_ne_true]
  exact ⟨running, (run_bind_of_ok hput).trans hrun⟩

end Push

section Pop

variable {s : Cpu}

/-- A pop from a global stack steps its pointer back. -/
lemma run_pop_of_global (h : ¬ s.LocalStack) :
    ∃ running, pop.run s = .ok (s.stackTop,
      { s.setAC (s.acOperand - 1) s.iw.ac with running := running }) := by
  obtain ⟨running, hget⟩ := exists_run_memGetN (W36.ofNat s.acOperand.vma.toNat) s
  have hrhu : (W36.ofNat s.acOperand.vma.toNat).rhu = s.acOperand.rhu :=
    (rhu_ofNat_vma s.acOperand 0).trans (congrArg W36.rhu (BitVec.add_zero _))
  rw [hrhu] at hget
  have hrun := run_acPut (s.acOperand - 1) { s with running := running }
  rw [pop, run_bind_of_ok (run_acGet s), run_bind_of_ok (run_localStack s), decide_eq_false h,
    if_neg Bool.false_ne_true]
  exact ⟨running, (run_bind_of_ok hget).trans (run_bind_of_ok hrun)⟩

end Pop

/-! ### Pointers -/

section Halves

variable (l : BitVec 18) {r : BitVec 18}

/-- A pointer whose right half does not wrap is stepped in that half. -/
lemma halves_add_one (h : r ≠ 0o777777) : W36.halves l r + 1 = W36.halves l (r + 1) := by
  have hl := l.isLt
  have hr := r.isLt
  have hne : r.toNat ≠ 2 ^ 18 - 1 := fun heq => h (BitVec.eq_of_toNat_eq heq)
  apply BitVec.eq_of_toNat_eq
  rw [BitVec.toNat_add, W36.toNat_halves, W36.toNat_halves, BitVec.toNat_add]
  change (_ + 1) % 2 ^ 36 = _ + (_ + 1) % 2 ^ 18
  omega

/-- And one whose right half does is stepped in both. -/
lemma halves_add_one_wrap : W36.halves l 0o777777 + 1 = W36.halves (l + 1) 0 := by
  have hl := l.isLt
  apply BitVec.eq_of_toNat_eq
  have hlast : (0o777777 : BitVec 18).toNat = 2 ^ 18 - 1 := rfl
  rw [BitVec.toNat_add, W36.toNat_halves, W36.toNat_halves, BitVec.toNat_add, hlast]
  change (_ + 1) % 2 ^ 36 = (_ + 1) % 2 ^ 18 * _ + 0
  omega

end Halves

/-- A step back as a whole undoes a step of both halves if the right one has wrapped. -/
lemma pushedPointer_sub_one_iff (s : Cpu) :
    s.pushedPointer - 1 = s.acOperand ↔ s.acOperand.rhu = 0o777777 := by
  rw [BitVec.sub_eq_iff_eq_add]
  change W36.halves (s.acOperand.lhu + 1) (s.acOperand.rhu + 1) = _ ↔ _
  rw [← W36.halves_eta s.acOperand, W36.lhu_halves, W36.rhu_halves]
  by_cases hr : s.acOperand.rhu = 0o777777
  · rw [hr, halves_add_one_wrap]
    exact iff_of_true rfl rfl
  · rw [halves_add_one _ hr]
    refine iff_of_false (fun h => ?_) hr
    have hl := congrArg W36.lhu h
    rw [W36.lhu_halves, W36.lhu_halves] at hl
    simp at hl

/-- The stack pointer after a pop. -/
def Cpu.popPointer (s : Cpu) : W36 :=
  if s.LocalStack then s.poppedPointer else s.acOperand - 1

/-- A pop returns the word at its pointer, and steps that back. -/
lemma run_pop (s : Cpu) :
    ∃ u, pop.run s = .ok (s.stackTop, u) ∧ u.acs s.iw.ac = s.popPointer := by
  have hacs (w : W36) : (s.setAC w s.iw.ac).acs s.iw.ac = w := by rw [acs_setAC, if_pos rfl]
  rw [Cpu.popPointer]
  by_cases h : s.LocalStack
  · obtain ⟨running, hrun⟩ := run_pop_of_local h
    rw [if_pos h]
    exact ⟨_, hrun, hacs _⟩
  · obtain ⟨running, hrun⟩ := run_pop_of_global h
    rw [if_neg h]
    exact ⟨_, hrun, hacs _⟩

/-- The words under a pointer that has been stored. -/
lemma words_eq_iff {s t : Cpu} {n : BitVec 4} {w : W36} :
    (t.setAC w n).word = (s.setAC w n).word ↔
      ∀ b, b ≠ n.setWidth 18 → t.word b = s.word b := by
  constructor
  · intro h b hb
    have hb' := congrFun h b
    rwa [word_setAC, word_setAC, if_neg hb, if_neg hb] at hb'
  · intro h
    funext b
    rw [word_setAC, word_setAC]
    split
    case isTrue => rfl
    case isFalse hb => exact h b hb

section Words

variable {s : Cpu} {v w : W36} {n : BitVec 4} {c d : BitVec 18} (hd : d ≠ n.setWidth 18)
include hd

/-- A store changes nothing if the word is there already. -/
lemma unchanged_iff :
    (∀ b, b ≠ n.setWidth 18 → s.word b = (s.setWord v d).word b) ↔ s.word d = v := by
  constructor
  · intro h
    rw [h d hd, word_setWord]
  · rintro rfl b -
    by_cases hb : b = d
    · rw [hb, word_setWord]
    · rw [word_setWord_of_ne hb]

/-- Stores to different addresses come to the same if each of the two words is there already. -/
lemma overwritten_iff :
    (∀ b, b ≠ n.setWidth 18 → (s.setWord w c).word b = (s.setWord v d).word b) ↔
      if c = d then v = w else s.word d = v ∧ (c = n.setWidth 18 ∨ s.word c = w) := by
  split
  case isTrue hcd =>
    rw [hcd]
    constructor
    · intro h
      have hb := h d hd
      rwa [word_setWord, word_setWord, eq_comm] at hb
    · rintro rfl b -
      rfl
  case isFalse hcd =>
    constructor
    · intro h
      have hb := h d hd
      rw [word_setWord, word_setWord_of_ne (Ne.symm hcd)] at hb
      refine ⟨hb, or_iff_not_imp_left.mpr fun hc => ?_⟩
      have hb' := h c hc
      rw [word_setWord, word_setWord_of_ne hcd] at hb'
      exact hb'.symm
    · rintro ⟨rfl, hc⟩ b hb
      by_cases hbc : b = c
      · rw [hbc, word_setWord, word_setWord_of_ne hcd]
        exact (hc.resolve_left (hbc ▸ hb)).symm
      · rw [word_setWord_of_ne hbc]
        by_cases hbd : b = d
        · rw [hbd, word_setWord]
        · rw [word_setWord_of_ne hbd]

end Words

/-- The condition under which a pop undoes a push: a local pointer must not be full, unless the word
is there already, and must still be local after a push, unless its right half wraps; and a push on a
global pointer must come to the same by storing its address at the word. -/
def PushFits (v : W36) (s : Cpu) : Prop :=
  let a := s.acOperand
  let address := W36.ofNat s.pushPointer.vma.toNat
  if s.LocalStack then
    if a.lhu = 0o777777 then s.word s.pushPointer.rhu = v
    else s.pc.isSection0 = true ∨ a.lhs < 0 ∨ a.rhu = 0o777777
  else if v.rhu = s.pushPointer.rhu then v = address
  else s.word s.pushPointer.rhu = v ∧ (v.rhu = s.iw.ac.setWidth 18 ∨ s.word v.rhu = address)

instance (v : W36) (s : Cpu) : Decidable (PushFits v s) :=
  inferInstanceAs (Decidable (ite _ _ _))

/-- A left half that makes a pointer local does so after a push only if it is negative. -/
lemma local_half_iff {l : BitVec 18} (hlocal : l.toInt < 0 ∨ l &&& 0o7777 = 0)
    (hfull : l ≠ 0o777777) : (l + 1).toInt < 0 ∨ (l + 1) &&& 0o7777 = 0 ↔ l.toInt < 0 := by
  have hneg (x : BitVec 18) : x.toInt < 0 ↔ 2 ^ 17 ≤ x.toNat := by
    have hx := x.isLt
    rw [BitVec.toInt_eq_toNat_cond]
    split <;> omega
  have hlow (x : BitVec 18) : x &&& 0o7777 = 0 ↔ x.toNat % 2 ^ 12 = 0 := by
    rw [← BitVec.toNat_inj, BitVec.toNat_and]
    change x.toNat &&& (2 ^ 12 - 1) = 0 ↔ _
    rw [Nat.and_two_pow_sub_one_eq_mod]
  have hl := l.isLt
  have hnat : l.toNat ≠ 2 ^ 18 - 1 := fun h => hfull (BitVec.eq_of_toNat_eq h)
  have hnext : (l + 1).toNat = l.toNat + 1 := by
    rw [BitVec.toNat_add]
    exact Nat.mod_eq_of_lt (show l.toNat + 1 < 2 ^ 18 by omega)
  rw [hneg, hlow] at hlocal
  rw [hneg, hlow, hneg, hnext]
  omega

/-- So a local pointer is still one after a push in section 0, and if it is negative. -/
lemma local_after_push {s t : Cpu} (h : s.LocalStack) (hfull : s.acOperand.lhu ≠ 0o777777)
    (hpc : t.pc = s.pc) (hac : t.acOperand = s.pushedPointer) :
    t.LocalStack ↔ s.pc.isSection0 = true ∨ s.acOperand.lhs < 0 := by
  rw [Cpu.LocalStack, hpc, hac, W36.lhs, Cpu.pushedPointer, W36.lhu_halves]
  refine or_congr_right' fun hpc => ?_
  exact local_half_iff (h.resolve_left hpc) hfull

/-- The machine after a push, but for its flags and a breakpoint. -/
def Cpu.pushed (s : Cpu) (v : W36) : Cpu :=
  if s.LocalStack then
    (if s.pushedPointer.lhu = 0 then s else s.setWord v s.pushedPointer.rhu).setAC
      s.pushedPointer s.iw.ac
  else (s.setWord (W36.ofNat (s.acOperand + 1).vma.toNat) v.rhu).setAC (s.acOperand + 1) s.iw.ac

/-- What a machine is after a store to the accumulator, whatever it is before. -/
lemma after_setAC {s u : Cpu} (hiw : u.iw = s.iw) (hpc : u.pc = s.pc) (w : W36) (running : Bool)
    (flags : ProgramFlags) :
    ∃ t : Cpu, t = { u.setAC w s.iw.ac with running := running, flags := flags } ∧
      t.iw = s.iw ∧ t.pc = s.pc ∧ t.acOperand = w ∧ t.word = (u.setAC w s.iw.ac).word := by
  refine ⟨_, rfl, hiw, hpc, ?_, rfl⟩
  change (u.setAC w s.iw.ac).acs u.iw.ac = w
  rw [hiw, acs_setAC, if_pos rfl]

/-- A push steps the pointer. -/
lemma run_push (v : W36) (s : Cpu) :
    ∃ t, (push v).run s = .ok ((), t) ∧ t.iw = s.iw ∧ t.pc = s.pc ∧
      t.acOperand = s.pushPointer ∧ t.word = (s.pushed v).word := by
  rw [Cpu.pushPointer, Cpu.pushed]
  by_cases h : s.LocalStack
  · obtain ⟨running, hrun⟩ := run_push_of_local v h
    have hiw : (if s.pushedPointer.lhu = 0 then s else s.setWord v s.pushedPointer.rhu).iw = s.iw :=
      by split; exacts [rfl, setWord_iw _ _ _]
    have hpc : (if s.pushedPointer.lhu = 0 then s else s.setWord v s.pushedPointer.rhu).pc = s.pc :=
      by split; exacts [rfl, setWord_pc _ _ _]
    obtain ⟨t, ht, hafter⟩ := after_setAC hiw hpc s.pushedPointer running
      (if s.pushedPointer.lhu = 0 then s.flags.trap2 else s.flags)
    rw [if_pos h, if_pos h]
    exact ⟨t, ht ▸ hrun, hafter⟩
  · obtain ⟨running, hrun⟩ := run_push_of_global v h
    let u := s.setWord (W36.ofNat (s.acOperand + 1).vma.toNat) v.rhu
    obtain ⟨t, ht, hafter⟩ := after_setAC (u := u) (setWord_iw s _ _) (setWord_pc s _ _)
      (s.acOperand + 1) running u.flags
    rw [if_neg h, if_neg h]
    exact ⟨t, ht ▸ hrun, hafter⟩

/-! ### The cases -/

section Cases

variable {v : W36} {s : Cpu} (hslot : s.pushPointer.rhu ≠ s.iw.ac.setWidth 18)
include hslot

/-- A pop after a push returns the word if the push has stored it, so that its pointer decides. -/
lemma pushPops_iff_of_run :
    ∃ t : Cpu, t.pc = s.pc ∧ t.acOperand = s.pushPointer ∧ (PushPops v s ↔
      (s.pushed v).word = ((s.setWord v s.pushPointer.rhu).setAC s.pushPointer s.iw.ac).word ∧
        t.popPointer = s.acOperand) := by
  obtain ⟨t, ht, hiw, hpc, hac, hword⟩ := run_push v s
  obtain ⟨u, hu, hpointer⟩ := run_pop t
  rw [hiw] at hpointer
  refine ⟨t, hpc, hac, ?_⟩
  rw [← hword]
  constructor
  · rintro ⟨t', ht', hword', u', hu', hacs⟩
    rw [ht, Except.ok.injEq, Prod.mk.injEq] at ht'
    rw [← ht'.2] at hword' hu'
    rw [hu, Except.ok.injEq, Prod.mk.injEq] at hu'
    rw [← hu'.2, hpointer] at hacs
    exact ⟨hword', hacs⟩
  · rintro ⟨hword', hback⟩
    have htop : t.stackTop = v := by
      change t.word t.acOperand.rhu = v
      rw [hac, hword', word_setAC, if_neg hslot, word_setWord]
    rw [htop] at hu
    exact ⟨t, ht, hword', u, hu, hpointer.trans hback⟩

lemma pushPops_local (h : s.LocalStack) : PushPops v s ↔ PushFits v s := by
  have hpointer : s.pushPointer = s.pushedPointer := if_pos h
  have hpushed : s.pushed v = (if s.pushedPointer.lhu = 0 then s
    else s.setWord v s.pushedPointer.rhu).setAC s.pushedPointer s.iw.ac := if_pos h
  obtain ⟨t, hpc, hac, hiff⟩ := pushPops_iff_of_run (v := v) hslot
  rw [hpointer] at hslot hac hiff
  have hcount : s.pushedPointer.lhu = 0 ↔ s.acOperand.lhu = 0o777777 := by
    have hl := s.acOperand.lhu.isLt
    have hlast : (0o777777 : BitVec 18).toNat = 2 ^ 18 - 1 := rfl
    have hzero : (0 : BitVec 18).toNat = 0 := rfl
    change (W36.halves (s.acOperand.lhu + 1) _).lhu = 0 ↔ _
    rw [W36.lhu_halves, ← BitVec.toNat_inj, ← BitVec.toNat_inj, BitVec.toNat_add, hlast, hzero]
    change (_ + 1) % 2 ^ 18 = 0 ↔ _
    omega
  have hback : t.poppedPointer = s.acOperand := by
    change W36.halves (t.acOperand.lhu - 1) (t.acOperand.rhu - 1) = _
    rw [hac, Cpu.pushedPointer, W36.lhu_halves, W36.rhu_halves, BitVec.add_sub_cancel,
      BitVec.add_sub_cancel]
    exact W36.halves_eta _
  rw [hiff, PushFits, if_pos h, hpushed, words_eq_iff, Cpu.popPointer]
  by_cases hfull : s.acOperand.lhu = 0o777777
  · have hlocal : t.LocalStack := .inr (.inr (by rw [hac, hcount.mpr hfull]; rfl))
    rw [if_pos hlocal, and_iff_left hback, if_pos (hcount.mpr hfull), if_pos hfull, hpointer,
      unchanged_iff hslot]
  · have hafter := local_after_push h hfull hpc hac
    rw [if_neg (mt hcount.mp hfull), if_neg hfull, and_iff_right fun _ _ => rfl, ← or_assoc,
      ← hafter]
    split
    case isTrue hlocal => exact iff_of_true hback (.inl hlocal)
    case isFalse hglobal => rw [hac, pushedPointer_sub_one_iff, or_iff_right hglobal]

lemma pushPops_global (h : ¬ s.LocalStack) : PushPops v s ↔ PushFits v s := by
  have hpointer : s.pushPointer = s.acOperand + 1 := if_neg h
  have hpushed : s.pushed v = (s.setWord (W36.ofNat (s.acOperand + 1).vma.toNat) v.rhu).setAC
    (s.acOperand + 1) s.iw.ac := if_neg h
  obtain ⟨t, hpc, hac, hiff⟩ := pushPops_iff_of_run (v := v) hslot
  rw [hpointer] at hslot hac hiff
  have hback : t.popPointer = s.acOperand := by
    rw [Cpu.popPointer]
    split
    case isTrue hlocal =>
      -- the step made the pointer a local one, so that it went to the left half
      by_cases hr : s.acOperand.rhu = 0o777777
      · change W36.halves (t.acOperand.lhu - 1) (t.acOperand.rhu - 1) = _
        have hwrap : s.acOperand + 1 = W36.halves (s.acOperand.lhu + 1) 0 := by
          rw [← halves_add_one_wrap, ← hr, W36.halves_eta]
        rw [hac, hwrap, W36.lhu_halves, W36.rhu_halves, BitVec.add_sub_cancel]
        exact (congrArg (W36.halves _) hr.symm).trans (W36.halves_eta _)
      · have hstep : s.acOperand + 1 = W36.halves s.acOperand.lhu (s.acOperand.rhu + 1) := by
          rw [← halves_add_one _ hr, W36.halves_eta]
        rw [Cpu.LocalStack, hpc, hac, hstep, W36.lhs, W36.lhu_halves] at hlocal
        exact absurd hlocal h
    case isFalse => rw [hac, BitVec.add_sub_cancel]
  rw [hiff, PushFits, if_neg h, hpushed, words_eq_iff, and_iff_left hback, hpointer,
    overwritten_iff hslot]

end Cases

/-- A pop undoes a push on just these conditions. -/
theorem push_pop_iff (v : W36) {s : Cpu} (hslot : s.pushPointer.rhu ≠ s.iw.ac.setWidth 18) :
    PushPops v s ↔ PushFits v s := by
  by_cases h : s.LocalStack
  · exact pushPops_local hslot h
  · exact pushPops_global hslot h

/-- A machine in section 0 with a stack pointer in accumulator 0. -/
def stackMachine (pointer : W36) : Cpu := Cpu.initial.setAC pointer 0

/-- A push to 0101. -/
theorem push_pop_room :
    PushPops 1 (stackMachine 0o777000000100) ↔ PushFits 1 (stackMachine 0o777000000100) :=
  push_pop_iff 1 (by decide)

/-- A full stack does not take the word, and a push on a global stack stores an address at the
location that the word names. -/
theorem push_full_and_global :
    ¬ PushPops 1 (stackMachine 0o777777000100) ∧
      ¬ PushPops 1 { stackMachine 0o000001000100 with pc := W36.halves 1 0 } := by
  rw [pushPops_local (by decide) (by decide), pushPops_global (by decide) (by decide)]
  decide

end KM10
