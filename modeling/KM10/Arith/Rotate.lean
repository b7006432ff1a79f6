import KM10.Arith.LogicalShift
import KM10.Library.Rotations

/-!
The rotations of words and double words.

`doROT` and `doROTC` put together what two shifts in opposite directions leave, `doROTC` in 128 bits
of which it keeps 72.

* `rotWord`, `rotcWord`: what the code makes of a word and of a double word;
* `run_doROT`, `run_doROTC`: what the instructions do;
* `Restores`: an instruction by one count is undone by the instruction by another;
* `rotations`: ROT and ROTC are an action of the counts.
-/

namespace KM10

open StateExcept Rotations

/-! ### Words -/

/-- The word that `doROT` rotates to. -/
def rotWord (a : W36) (n : ℤ) : W36 :=
  if 0 < n then (a <<< n.natAbs) ||| (a >>> (36 - n.natAbs))
  else if n < 0 then (a >>> n.natAbs) ||| (a <<< (36 - n.natAbs))
  else a

/-- A rotation by less than the width, one way or the other. -/
lemma rotWord_eq (a : W36) {n : ℤ} (hn : n.natAbs < 36) : rotWord a n = rotate a n := by
  rcases lt_trichotomy n 0 with hneg | rfl | hpos
  · obtain ⟨k, rfl⟩ := Int.exists_eq_neg_ofNat hneg.le
    rw [Int.natAbs_neg, Int.natAbs_natCast] at hn
    rw [rotWord, if_neg (by omega), if_pos hneg, rotate_neg a (by omega) hn, Int.natAbs_neg,
      Int.natAbs_natCast]
  · exact (rotate_of_dvd a (dvd_zero _)).symm
  · lift n to ℕ using hpos.le
    rw [Int.natAbs_natCast] at hn
    rw [rotWord, if_pos hpos, rotate_natCast a hn, Int.natAbs_natCast]

lemma natAbs_tmod_lt (n : ℤ) {w : ℕ} (hw : 0 < w) : (n.tmod w).natAbs < w := by
  rw [Int.natAbs_tmod, Int.natAbs_natCast]
  exact Nat.mod_lt _ hw

lemma run_doROT (s : Cpu) :
    (ops 0o241).run s = .ok (.iNormal, s.setAC (rotate s.acOperand s.ea.rhs) s.iw.ac) := by
  have hop : ops 0o241 = doROT := ops_of_mem (by simp [installs, installIntBinGroup])
  have hcount : (shiftCount 36).run s = .ok (s.ea.rhs.tmod 36, s) := rfl
  have hword : rotWord s.acOperand (s.ea.rhs.tmod 36) = rotate s.acOperand s.ea.rhs := by
    have hlt : (s.ea.rhs.tmod 36).natAbs < 36 := natAbs_tmod_lt s.ea.rhs (show 0 < 36 by decide)
    rw [rotWord_eq _ hlt]
    exact rotate_tmod s.acOperand s.ea.rhs
  rw [hop, doROT, run_bind_of_ok hcount, run_bind_of_ok (run_acGet s), ← hword]
  exact run_bind_of_ok (run_acPut _ _)

/-! ### Double words -/

/-- The double word that `doROTC` rotates to. -/
def rotcWord (a : BitVec 72) (n : ℤ) : BitVec 72 :=
  let a : BitVec 128 := a.setWidth 128
  let a :=
    if 0 < n then (a <<< n.natAbs) ||| (a >>> (72 - n.natAbs))
    else if n < 0 then (a >>> n.natAbs) ||| (a <<< (72 - n.natAbs))
    else a
  a.setWidth 72

/-- The bits beyond the double word are lost to the left, and none of them come back. -/
lemma setWidth_shifts (a : BitVec 72) (k : ℕ) :
    (a.setWidth 128 <<< k).setWidth 72 = a <<< k ∧
      (a.setWidth 128 >>> k).setWidth 72 = a >>> k := by
  constructor
  · refine BitVec.eq_of_getLsbD_eq fun i hi => ?_
    rw [BitVec.getLsbD_setWidth, BitVec.getLsbD_shiftLeft, BitVec.getLsbD_shiftLeft,
      BitVec.getLsbD_setWidth]
    simp only [hi, show i < 128 by omega, show i - k < 128 by omega, decide_true, Bool.true_and]
  · refine BitVec.eq_of_getLsbD_eq fun i hi => ?_
    rw [BitVec.getLsbD_setWidth, BitVec.getLsbD_ushiftRight, BitVec.getLsbD_ushiftRight,
      BitVec.getLsbD_setWidth, decide_eq_true hi, Bool.true_and]
    by_cases hik : k + i < 128
    · rw [decide_eq_true hik, Bool.true_and]
    · rw [BitVec.getLsbD_of_ge _ _ (show 72 ≤ k + i by omega), Bool.and_false]

lemma rotcWord_eq (a : BitVec 72) {n : ℤ} (hn : n.natAbs < 72) : rotcWord a n = rotate a n := by
  rcases lt_trichotomy n 0 with hneg | rfl | hpos
  · obtain ⟨k, rfl⟩ := Int.exists_eq_neg_ofNat hneg.le
    rw [Int.natAbs_neg, Int.natAbs_natCast] at hn
    dsimp only [rotcWord]
    rw [if_neg (by omega), if_pos hneg, rotate_neg a (by omega) hn, Int.natAbs_neg,
      Int.natAbs_natCast, BitVec.setWidth_or, (setWidth_shifts a _).1, (setWidth_shifts a _).2]
  · rw [rotate_of_dvd a (dvd_zero _)]
    exact (BitVec.setWidth_setWidth_of_le a (by decide)).trans (BitVec.setWidth_eq a)
  · lift n to ℕ using hpos.le
    rw [Int.natAbs_natCast] at hn
    dsimp only [rotcWord]
    rw [if_pos hpos, rotate_natCast a hn, Int.natAbs_natCast, BitVec.setWidth_or,
      (setWidth_shifts a _).1, (setWidth_shifts a _).2]

lemma run_doROTC {s : Cpu} (hac : s.iw.ac.toNat + 1 < 16) :
    (ops 0o245).run s =
      .ok (.iNormal, s.setPair (.ofBits (rotate s.acPair.u s.ea.rhs))) := by
  have hop : ops 0o245 = doROTC := ops_of_mem (by simp [installs, installIntBinGroup])
  have hcount : (shiftCount 72).run s = .ok (s.ea.rhs.tmod 72, s) := rfl
  have hget := run_acGetPlus (s := s) (k := 0) s.iw.ac.isLt
  have hget' := run_acGetPlus (s := s) (k := 1) hac
  have hword : rotcWord s.acPair.u (s.ea.rhs.tmod 72) = rotate s.acPair.u s.ea.rhs := by
    have hlt : (s.ea.rhs.tmod 72).natAbs < 72 := natAbs_tmod_lt s.ea.rhs (show 0 < 72 by decide)
    rw [rotcWord_eq _ hlt]
    exact rotate_tmod s.acPair.u s.ea.rhs
  rw [BitVec.add_zero] at hget
  rw [hop, doROTC, run_bind_of_ok hcount, run_bind_of_ok hget, run_bind_of_ok hget', ← hword]
  exact run_bind_of_ok (run_acPut2 _ hac)

/-! ### The action -/

/-- An instruction at one effective address is undone by the instruction at another. -/
def Restores (insn : Handler) (s : Cpu) (e e' : W36) : Prop :=
  ∃ t u, insn.run (s.withEa e) = .ok (.iNormal, t) ∧
    insn.run (t.withEa e') = .ok (.iNormal, u) ∧ u.withEa s.ea = s

/-- It is if the two compose to an instruction that changes nothing. -/
lemma Composes.restores {insn : Handler} {s : Cpu} {e e' sum : W36}
    (h : Composes insn s e e' sum)
    (hsame : insn.run (s.withEa sum) = .ok (.iNormal, s.withEa sum)) : Restores insn s e e' := by
  obtain ⟨t, u, ht, hu, hv⟩ := h
  refine ⟨t, u, ht, hu, ?_⟩
  rw [hsame, Except.ok.injEq, Prod.mk.injEq] at hv
  exact congrArg (fun v => v.withEa s.ea) hv.2.symm

lemma rot_composes (s : Cpu) {e e' sum : W36} (hsum : sum.rhs = e.rhs + e'.rhs) :
    Composes (ops 0o241) s e e' sum := by
  rw [composes_iff run_doROT, rotate_add, hsum]

lemma rotc_composes {s : Cpu} (hac : s.iw.ac.toNat + 1 < 16) {e e' sum : W36}
    (hsum : sum.rhs = e.rhs + e'.rhs) : Composes (ops 0o245) s e e' sum := by
  have hrun (t : Cpu) (ht : t.iw.ac.toNat + 1 < 16) (r : IResult × Cpu) :
      (ops 0o245).run t = .ok r ↔ ∃ b, some (rotate t.acPair.u t.ea.rhs) = some b ∧
        r = (.iNormal, t.setPair (.ofBits b)) := by
    rw [run_doROTC ht, Except.ok.injEq, eq_comm]
    simp only [Option.some.injEq, exists_eq_left']
  rw [@composes_pair_iff _ (fun a n => some (rotate a n)) hrun s hac]
  exact ⟨_, rfl, _, rfl, by rw [rotate_add, hsum]⟩

lemma ofBits_u (d : W72) : W72.ofBits d.u = d :=
  congrArg₂ W72.mk (BitVec.extractLsb'_append_eq_left) (BitVec.extractLsb'_append_eq_right)

lemma setPair_acPair (s : Cpu) : s.setPair s.acPair = s := by
  change (s.setAC (s.acs s.iw.ac) s.iw.ac).setAC (s.acs (s.iw.ac + 1)) (s.iw.ac + 1) = s
  rw [setAC_self, setAC_self]

/-- The rotations by two counts compose to the rotation by their sum, and the rotation by minus the
count undoes a rotation: they are the cyclic rotations of the word and of the double word. -/
theorem rotations (s : Cpu) :
    (ops 0o241).run s = .ok (.iNormal, s.setAC (rotate s.acOperand s.ea.rhs) s.iw.ac) ∧
      (∀ e e' sum : W36, sum.rhs = e.rhs + e'.rhs → Composes (ops 0o241) s e e' sum) ∧
      (∀ e e' : W36, e'.rhs = -e.rhs → Restores (ops 0o241) s e e') ∧
      (s.iw.ac.toNat + 1 < 16 →
        (ops 0o245).run s =
          .ok (.iNormal, s.setPair (.ofBits (rotate s.acPair.u s.ea.rhs))) ∧
        (∀ e e' sum : W36, sum.rhs = e.rhs + e'.rhs → Composes (ops 0o245) s e e' sum) ∧
        ∀ e e' : W36, e'.rhs = -e.rhs → Restores (ops 0o245) s e e') := by
  have hzero {e e' : W36} (h : e'.rhs = -e.rhs) : (0 : W36).rhs = e.rhs + e'.rhs :=
    (h ▸ Int.add_right_neg e.rhs).symm
  have hsame {w : ℕ} (x : BitVec w) : rotate x (0 : W36).rhs = x := rotate_of_dvd x (dvd_zero _)
  refine ⟨run_doROT s, fun _ _ _ => rot_composes s, fun e e' h => ?_, fun hac =>
    ⟨run_doROTC hac, fun _ _ _ => rotc_composes hac, fun e e' h => ?_⟩⟩
  · refine (rot_composes s (hzero h)).restores ?_
    rw [run_doROT]
    change Except.ok (_, (s.withEa 0).setAC (rotate s.acOperand (0 : W36).rhs) s.iw.ac) = _
    rw [hsame]
    exact congrArg (fun t => Except.ok (_, t)) (setAC_self (s.withEa 0) s.iw.ac)
  · refine (rotc_composes hac (hzero h)).restores ?_
    rw [run_doROTC (s := s.withEa 0) hac]
    change Except.ok (_, (s.withEa 0).setPair (.ofBits (rotate s.acPair.u (0 : W36).rhs))) = _
    rw [hsame, ofBits_u]
    exact congrArg (fun t => Except.ok (_, t)) (setPair_acPair (s.withEa 0))

/-- One bit to the left and back. -/
theorem rotations_one :
    let s := shiftMachine 1
    Composes (ops 0o241) s 1 (-1) 0 ∧ Restores (ops 0o241) s 1 (-1) ∧
      Composes (ops 0o245) s 1 (-1) 0 ∧ Restores (ops 0o245) s 1 (-1) :=
  have h := rotations (shiftMachine 1)
  have h' := h.2.2.2 (by decide)
  ⟨h.2.1 _ _ _ (by decide), h.2.2.1 _ _ (by decide), h'.2.1 _ _ _ (by decide),
    h'.2.2 _ _ (by decide)⟩

end KM10
