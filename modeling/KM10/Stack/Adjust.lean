import KM10.Stack.PushPop

/-!
The adjustment of a stack pointer.

In section 0 `doADJSP` adds its count to both halves of the pointer at once, and sets TR2 if the
left half changes its sign.  That comes to the same as as many pushes or pops.

* `stepped`, `stepTraps`: one step of a pointer up or down, and whether it sets TR2;
* `Steps`: what a number of them makes of a machine;
* `steps_push`, `steps_pop`, `steps_pushes`, `steps_pops`: the code of `push` and `pop`;
* `iterate_stepped`, `trapsWithin_iff`: a number of steps at once;
* `adjsp_steps`: ADJSP is the same as pushes or pops.
-/

namespace KM10

open StateExcept

/-! ### Steps -/

/-- The pointer after a step: up if the flag is set, as in a push, and otherwise down, as in a
pop. -/
def stepped (up : Bool) (a : W36) : W36 :=
  if up then W36.halves (a.lhu + 1) (a.rhu + 1) else W36.halves (a.lhu - 1) (a.rhu - 1)

/-- The step sets TR2: the count has become zero on the way up, or negative on the way down. -/
def stepTraps (up : Bool) (a : W36) : Prop :=
  if up then (stepped up a).lhu = 0 else (stepped up a).lhs = -1

instance (up : Bool) (a : W36) : Decidable (stepTraps up a) :=
  inferInstanceAs (Decidable (ite _ _ _))

/-- One of `n` steps sets TR2. -/
def TrapsWithin (up : Bool) (n : ℕ) (a : W36) : Prop := ∃ k < n, stepTraps up ((stepped up)^[k] a)

instance (up : Bool) (n : ℕ) (a : W36) : Decidable (TrapsWithin up n a) :=
  inferInstanceAs (Decidable (∃ k < n, _))

/-- The pointer and the flags of a machine after `n` steps from another. -/
structure Steps (up : Bool) (n : ℕ) (s t : Cpu) : Prop where
  iw : t.iw = s.iw
  pc : t.pc = s.pc
  pointer : t.acOperand = (stepped up)^[n] s.acOperand
  flags : t.flags = if TrapsWithin up n s.acOperand then s.flags.trap2 else s.flags

lemma Steps.refl (up : Bool) (s : Cpu) : Steps up 0 s s where
  iw := rfl
  pc := rfl
  pointer := rfl
  flags := (if_neg fun ⟨_, hk, _⟩ => absurd hk (Nat.not_lt_zero _)).symm

lemma trapsWithin_succ {up : Bool} {n : ℕ} {a : W36} :
    TrapsWithin up (n + 1) a ↔ stepTraps up a ∨ TrapsWithin up n (stepped up a) := by
  rw [TrapsWithin, Nat.exists_lt_succ_left]
  rfl

lemma trapsWithin_one {up : Bool} {a : W36} : TrapsWithin up 1 a ↔ stepTraps up a :=
  trapsWithin_succ.trans (or_iff_left fun ⟨_, hk, _⟩ => absurd hk (Nat.not_lt_zero _))

/-- One step, and then more. -/
lemma Steps.cons {up : Bool} {n : ℕ} {s t u : Cpu} (h : Steps up 1 s t) (h' : Steps up n t u) :
    Steps up (n + 1) s u where
  iw := h'.iw.trans h.iw
  pc := h'.pc.trans h.pc
  pointer := by
    rw [h'.pointer, h.pointer, Function.iterate_succ_apply]
    rfl
  flags := by
    have hpointer : t.acOperand = stepped up s.acOperand := h.pointer
    have htwice (f : ProgramFlags) : f.trap2.trap2 = f.trap2 := rfl
    rw [h'.flags, h.flags, hpointer]
    simp only [trapsWithin_one, trapsWithin_succ (n := n)]
    by_cases hfirst : stepTraps up s.acOperand <;>
      by_cases hrest : TrapsWithin up n (stepped up s.acOperand) <;>
      simp only [hfirst, hrest, htwice, or_true, or_false, if_true, if_false]

/-! ### Pushes and pops -/

/-- Pushes of words, one after the other. -/
def pushes : List W36 → Exec Unit
  | [] => pure ()
  | v :: vs => do
      push v
      pushes vs

/-- Pops of as many words. -/
def pops : ℕ → Exec Unit
  | 0 => pure ()
  | n + 1 => do
      let _ ← pop
      pops n

lemma steps_push (v : W36) {s : Cpu} (hpc : s.pc.isSection0 = true) :
    ∃ t, (push v).run s = .ok ((), t) ∧ Steps true 1 s t := by
  obtain ⟨running, hrun⟩ := run_push_of_local v (.inl hpc)
  have hiw : (if s.pushedPointer.lhu = 0 then s else s.setWord v s.pushedPointer.rhu).iw = s.iw :=
    by split; exacts [rfl, setWord_iw _ _ _]
  have hpc : (if s.pushedPointer.lhu = 0 then s else s.setWord v s.pushedPointer.rhu).pc = s.pc :=
    by split; exacts [rfl, setWord_pc _ _ _]
  obtain ⟨t, ht, hiw, hpc, hac, -⟩ := after_setAC hiw hpc s.pushedPointer running
    (if s.pushedPointer.lhu = 0 then s.flags.trap2 else s.flags)
  exact ⟨t, ht ▸ hrun, hiw, hpc, hac,
    (congrArg Cpu.flags ht).trans (if_congr (@trapsWithin_one true s.acOperand).symm rfl rfl)⟩

lemma steps_pop {s : Cpu} (hpc : s.pc.isSection0 = true) :
    ∃ t, pop.run s = .ok (s.stackTop, t) ∧ Steps false 1 s t := by
  obtain ⟨running, hrun⟩ := run_pop_of_local (.inl hpc)
  obtain ⟨t, ht, hiw, hpc, hac, -⟩ := after_setAC (u := s) rfl rfl s.poppedPointer running
    (if s.poppedPointer.lhs = -1 then s.flags.trap2 else s.flags)
  exact ⟨t, ht ▸ hrun, hiw, hpc, hac,
    (congrArg Cpu.flags ht).trans (if_congr (@trapsWithin_one false s.acOperand).symm rfl rfl)⟩

lemma steps_pushes (vs : List W36) {s : Cpu} (hpc : s.pc.isSection0 = true) :
    ∃ t, (pushes vs).run s = .ok ((), t) ∧ Steps true vs.length s t := by
  induction vs generalizing s with
  | nil => exact ⟨s, rfl, .refl true s⟩
  | cons v vs ih =>
    obtain ⟨t, ht, hstep⟩ := steps_push v hpc
    obtain ⟨u, hu, hsteps⟩ := ih (s := t) (by rw [hstep.pc, hpc])
    exact ⟨u, (run_bind_of_ok ht).trans hu, hstep.cons hsteps⟩

lemma steps_pops (n : ℕ) {s : Cpu} (hpc : s.pc.isSection0 = true) :
    ∃ t, (pops n).run s = .ok ((), t) ∧ Steps false n s t := by
  induction n generalizing s with
  | zero => exact ⟨s, rfl, .refl false s⟩
  | succ n ih =>
    obtain ⟨t, ht, hstep⟩ := steps_pop hpc
    obtain ⟨u, hu, hsteps⟩ := ih (s := t) (by rw [hstep.pc, hpc])
    exact ⟨u, (run_bind_of_ok ht).trans hu, hstep.cons hsteps⟩

/-! ### All steps at once -/

lemma iterate_stepped (up : Bool) (n : ℕ) (a : W36) :
    (stepped up)^[n] a = if up then W36.halves (a.lhu + .ofNat 18 n) (a.rhu + .ofNat 18 n)
      else W36.halves (a.lhu - .ofNat 18 n) (a.rhu - .ofNat 18 n) := by
  induction n with
  | zero =>
    rw [Function.iterate_zero_apply, BitVec.add_zero, BitVec.add_zero, BitVec.sub_zero,
      BitVec.sub_zero, W36.halves_eta, ite_self]
  | succ n ih =>
    rw [Function.iterate_succ_apply', ih]
    cases up with
    | true =>
      change W36.halves ((W36.halves _ _).lhu + 1) ((W36.halves _ _).rhu + 1) = W36.halves _ _
      rw [W36.lhu_halves, W36.rhu_halves, BitVec.ofNat_add, ← BitVec.add_assoc,
        ← BitVec.add_assoc]
      rfl
    | false =>
      have hsub (x : BitVec 18) : x - .ofNat 18 n - 1 = x - .ofNat 18 (n + 1) := by
        rw [BitVec.ofNat_add, BitVec.sub_eq_iff_eq_add, BitVec.sub_eq_iff_eq_add, BitVec.add_assoc,
          BitVec.add_comm 1]
        exact (BitVec.sub_add_cancel _ _).symm
      change W36.halves ((W36.halves _ _).lhu - 1) ((W36.halves _ _).rhu - 1) = W36.halves _ _
      rw [W36.lhu_halves, W36.rhu_halves, hsub, hsub]

section Displaced

variable (a : W36) (r : BitVec 18)

/-- A count is added to both halves as one is, as often as it says. -/
lemma displaced_eq : W36.halves (a.lhu + r) (a.rhu + r) =
    (stepped (decide (0 ≤ r.toInt)))^[r.toInt.natAbs] a := by
  rw [iterate_stepped]
  by_cases hr : 0 ≤ r.toInt
  · have hnat : r = .ofNat 18 r.toInt.natAbs := by
      rw [← BitVec.ofInt_natCast, Int.natAbs_of_nonneg hr, BitVec.ofInt_toInt]
    rw [decide_eq_true hr, if_pos rfl, ← hnat]
  · have hnat : r = -.ofNat 18 r.toInt.natAbs := by
      rw [← BitVec.ofInt_natCast, ← BitVec.ofInt_neg, Int.ofNat_natAbs_of_nonpos (by omega),
        Int.neg_neg, BitVec.ofInt_toInt]
    rw [decide_eq_false hr, if_neg Bool.false_ne_true, BitVec.sub_eq_add_neg,
      BitVec.sub_eq_add_neg, ← hnat]

/-- The step up from minus one sets TR2. -/
lemma stepTraps_up_iff (k : ℕ) :
    stepTraps true ((stepped true)^[k] a) ↔ (a.lhu.toNat + k + 1) % 2 ^ 18 = 0 := by
  change (W36.halves (((stepped true)^[k] a).lhu + 1) _).lhu = 0 ↔ _
  rw [W36.lhu_halves, iterate_stepped, if_pos rfl, W36.lhu_halves, ← BitVec.toNat_inj,
    BitVec.toNat_add, BitVec.toNat_add, BitVec.toNat_ofNat]
  change ((_ + _ % 2 ^ 18) % 2 ^ 18 + 1) % 2 ^ 18 = 0 ↔ _
  omega

/-- The step down from zero sets TR2. -/
lemma stepTraps_down_iff {k : ℕ} (hk : k < 2 ^ 18) :
    stepTraps false ((stepped false)^[k] a) ↔ a.lhu.toNat = k := by
  change (W36.halves (((stepped false)^[k] a).lhu - 1) _).lhs = (-1 : BitVec 18).toInt ↔ _
  rw [W36.lhs, W36.lhu_halves, BitVec.toInt_inj, iterate_stepped, if_neg Bool.false_ne_true,
    W36.lhu_halves, BitVec.sub_eq_iff_eq_add, BitVec.sub_eq_iff_eq_add]
  change a.lhu = 0#18 + BitVec.ofNat 18 k ↔ _
  rw [BitVec.zero_add, ← BitVec.toNat_inj, BitVec.toNat_ofNat, Nat.mod_eq_of_lt hk]

/-- One of the steps sets TR2 if the left half changes its sign: it cannot do so twice. -/
lemma trapsWithin_iff :
    TrapsWithin (decide (0 ≤ r.toInt)) r.toInt.natAbs a ↔
      (r.toInt < 0 ∧ 0 ≤ a.lhs ∧ (a.lhu + r).toInt < 0) ∨
        (0 < r.toInt ∧ a.lhs < 0 ∧ 0 ≤ (a.lhu + r).toInt) := by
  have hl := a.lhu.isLt
  have hr := r.isLt
  rw [TrapsWithin, W36.lhs, BitVec.toInt_eq_toNat_cond a.lhu, BitVec.toInt_eq_toNat_cond r,
    BitVec.toInt_eq_toNat_cond (a.lhu + r), BitVec.toNat_add]
  by_cases hpos : 2 * r.toNat < 2 ^ 18
  · rw [if_pos hpos, decide_eq_true (Int.natCast_nonneg _), Int.natAbs_natCast]
    simp only [stepTraps_up_iff]
    constructor
    · rintro ⟨k, hk, htrap⟩
      omega
    · intro h
      exact ⟨2 ^ 18 - 1 - a.lhu.toNat, by omega, by omega⟩
  · rw [if_neg hpos, decide_eq_false (by omega)]
    constructor
    · rintro ⟨k, hk, htrap⟩
      rw [stepTraps_down_iff a (by omega)] at htrap
      omega
    · intro h
      exact ⟨a.lhu.toNat, by omega, (stepTraps_down_iff a hl).mpr rfl⟩

end Displaced

/-- ADJSP makes all steps at once. -/
lemma run_doADJSP {s : Cpu} (hpc : s.pc.isSection0 = true) :
    (ops 0o105).run s = .ok
      (if TrapsWithin (decide (0 ≤ s.ea.rhs)) s.ea.rhs.natAbs s.acOperand then .iTrap else .iNormal,
      { s.setAC ((stepped (decide (0 ≤ s.ea.rhs)))^[s.ea.rhs.natAbs] s.acOperand) s.iw.ac with
        flags := if TrapsWithin (decide (0 ≤ s.ea.rhs)) s.ea.rhs.natAbs s.acOperand
          then s.flags.trap2 else s.flags }) := by
  have hop : ops 0o105 = doADJSP := ops_of_mem (by simp [installs, installJumpGroup])
  have hpointer := displaced_eq s.acOperand s.ea.rhu
  have htraps : TrapsWithin (decide (0 ≤ s.ea.rhs)) s.ea.rhs.natAbs s.acOperand ↔
      (s.ea.rhs < 0 ∧ 0 ≤ (s.acs s.iw.ac).lhs ∧ (W36.halves ((s.acs s.iw.ac).lhu + s.ea.rhu)
        ((s.acs s.iw.ac).rhu + s.ea.rhu)).lhs < 0) ∨
      (0 < s.ea.rhs ∧ (s.acs s.iw.ac).lhs < 0 ∧ 0 ≤ (W36.halves ((s.acs s.iw.ac).lhu + s.ea.rhu)
        ((s.acs s.iw.ac).rhu + s.ea.rhu)).lhs) := by
    rw [W36.lhs, W36.lhs, W36.lhu_halves]
    exact trapsWithin_iff s.acOperand s.ea.rhu
  rw [hop, doADJSP, run_bind_of_ok (run_acGet s), run_bind_of_ok (run_gets Cpu.pc s),
    run_bind_of_ok (run_gets Cpu.ea s), if_pos (.inl hpc)]
  dsimp only
  rw [run_bind_of_ok (run_acPut _ s)]
  change (ite _ _ _ : Exec IResult).run (s.setAC (W36.halves (s.acOperand.lhu + s.ea.rhu)
    (s.acOperand.rhu + s.ea.rhu)) s.iw.ac) = _
  rw [hpointer]
  by_cases h : TrapsWithin (decide (0 ≤ s.ea.rhs)) s.ea.rhs.natAbs s.acOperand
  · rw [if_pos h, if_pos h, if_pos (htraps.mp h)]
    rfl
  · rw [if_neg h, if_neg h, if_neg (mt htraps.mpr h)]
    rfl

/-- As many steps leave the same pointer and the same flags. -/
lemma Steps.unique {up : Bool} {n : ℕ} {s t u : Cpu} (h : Steps up n s t) (h' : Steps up n s u) :
    t.acOperand = u.acOperand ∧ t.flags = u.flags :=
  ⟨h.pointer.trans h'.pointer.symm, h.flags.trans h'.flags.symm⟩

/-- In section 0 ADJSP is the same as as many pushes, or pops for a negative count. -/
theorem adjsp_steps {s : Cpu} (hpc : s.pc.isSection0 = true) :
    let up := decide (0 ≤ s.ea.rhs)
    let n := s.ea.rhs.natAbs
    ∃ u, (ops 0o105).run s =
        .ok (if TrapsWithin up n s.acOperand then .iTrap else .iNormal, u) ∧
      u = { s.setAC ((stepped up)^[n] s.acOperand) s.iw.ac with
        flags := if TrapsWithin up n s.acOperand then s.flags.trap2 else s.flags } ∧
      (s.ea.rhs = 0 → u = s) ∧
      (∀ vs : List W36, vs.length = s.ea.rhs →
        ∃ t, (pushes vs).run s = .ok ((), t) ∧ t.acOperand = u.acOperand ∧ t.flags = u.flags) ∧
      ∀ k : ℕ, -(k : ℤ) = s.ea.rhs →
        ∃ t, (pops k).run s = .ok ((), t) ∧ t.acOperand = u.acOperand ∧ t.flags = u.flags := by
  have hrun := run_doADJSP hpc
  generalize s.ea.rhs = n at hrun
  obtain ⟨u, hu, hiw, hpc', hac, -⟩ := after_setAC (u := s) rfl rfl
    ((stepped (decide (0 ≤ n)))^[n.natAbs] s.acOperand) s.running
    (if TrapsWithin (decide (0 ≤ n)) n.natAbs s.acOperand then s.flags.trap2 else s.flags)
  have hsteps : Steps (decide (0 ≤ n)) n.natAbs s u := ⟨hiw, hpc', hac, congrArg Cpu.flags hu⟩
  have hzero : n = 0 → u = s := by
    rintro rfl
    rw [hu, Int.natAbs_zero, Function.iterate_zero_apply,
      if_neg fun ⟨_, hk, _⟩ => absurd hk (Nat.not_lt_zero _)]
    exact setAC_self s s.iw.ac
  refine ⟨u, hu ▸ hrun, hu, hzero, fun vs hvs => ?_, fun k hk => ?_⟩
  · obtain ⟨t, ht, hpushes⟩ := steps_pushes vs hpc
    rw [← hvs, decide_eq_true (Int.natCast_nonneg _), Int.natAbs_natCast] at hsteps
    exact ⟨t, ht, hpushes.unique hsteps⟩
  · rcases Nat.eq_zero_or_pos k with rfl | hpos
    · rw [hzero (by omega)]
      exact ⟨s, rfl, rfl, rfl⟩
    · obtain ⟨t, ht, hpops⟩ := steps_pops k hpc
      rw [← hk, decide_eq_false (by omega), Int.natAbs_neg, Int.natAbs_natCast] at hsteps
      exact ⟨t, ht, hpops.unique hsteps⟩

/-- Two steps up of a pointer that is full after one. -/
theorem adjsp_two :
    let s : Cpu := { stackMachine 0o777777000100 with ea := 2 }
    ∃ u, (ops 0o105).run s =
        .ok (if TrapsWithin true 2 s.acOperand then .iTrap else .iNormal, u) ∧
      u = { s.setAC ((stepped true)^[2] s.acOperand) s.iw.ac with
        flags := if TrapsWithin true 2 s.acOperand then s.flags.trap2 else s.flags } ∧
      ((2 : ℤ) = 0 → u = s) ∧
      (∀ vs : List W36, vs.length = (2 : ℤ) →
        ∃ t, (pushes vs).run s = .ok ((), t) ∧ t.acOperand = u.acOperand ∧ t.flags = u.flags) ∧
      ∀ k : ℕ, -(k : ℤ) = 2 →
        ∃ t, (pops k).run s = .ok ((), t) ∧ t.acOperand = u.acOperand ∧ t.flags = u.flags :=
  adjsp_steps (by decide)

end KM10
