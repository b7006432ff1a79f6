import KM10.AcIndex
import KM10.Arith.DoubleWord
import Mathlib.Tactic.Ring

/-!
The moves of double words.

DMOVE and DMOVEM store the first word before they read the second one, which the store may have
changed.  DMOVN and DMOVNM store the words exchanged and not negated.

* `MovesPair`, `StoresPair`: what DMOVE and DMOVEM promise;
* `double_moves_iff`: when they keep the promise;
* `NegatesPair`: what DMOVN and DMOVNM promise;
* `double_negations_iff`: when they keep the promise;
* `double_moves_overlapping`, `double_negations_one`: operands for which they do not.
-/

namespace KM10

open StateExcept

/-! ### What a move promises -/

/-- DMOVE leaves two words of memory in two accumulators and changes nothing else.  At most it
stops at a breakpoint beyond that. -/
def MovesPair (s : Cpu) : Prop :=
  ∃ running, (ops 0o120).run s = .ok (.iNormal,
    { (s.setAC s.memPair.hi s.iw.ac).setAC s.memPair.lo (s.iw.ac + 1) with running := running })

/-- DMOVEM leaves two accumulators in two words of memory and changes nothing else. -/
def StoresPair (s : Cpu) : Prop :=
  ∃ running, (ops 0o124).run s = .ok (.iNormal,
    { (s.setWord s.acPair.hi s.ea.rhu).setWord s.acPair.lo (s.ea + 1).rhu with
        running := running })

/-! ### The code -/

/-- The two words of memory as the handlers address them. -/
lemma rhu_pair (a : W36) :
    (W36.ofNat a.vma.toNat).rhu = a.rhu ∧ (W36.ofNat (a.vma.toNat + 1)).rhu = (a + 1).rhu := by
  have hhi := rhu_ofNat_vma a 0
  rw [Nat.add_zero, BitVec.add_zero] at hhi
  exact ⟨hhi, rhu_ofNat_vma a 1⟩

/-- They are different words. -/
lemma rhu_ne_rhu_add_one (a : W36) : a.rhu ≠ (a + 1).rhu := by
  intro h
  have hnat := congrArg BitVec.toNat h
  rw [W36.rhu, W36.rhu, BitVec.extractLsb'_toNat, BitVec.extractLsb'_toNat, Nat.shiftRight_zero,
    Nat.shiftRight_zero, BitVec.toNat_add] at hnat
  change _ = (_ + 1) % 2 ^ 36 % _ at hnat
  omega

/-- DMOVE reads its second word after the store of the first one. -/
lemma run_doDMOVE {s : Cpu} (hac : s.iw.ac.toNat + 1 < 16) :
    ∃ running, (ops 0o120).run s =
      let first := s.setAC s.memPair.hi s.iw.ac
      .ok (.iNormal,
        { first.setAC (first.word (s.ea + 1).rhu) (s.iw.ac + 1) with running := running }) := by
  have hop : ops 0o120 = doDMOVE := ops_of_mem (by simp [installs, installDWordGroup])
  obtain ⟨hhi, hlo⟩ := rhu_pair s.ea
  obtain ⟨r1, h1⟩ := exists_run_memGetN (W36.ofNat s.ea.vma.toNat) s
  rw [hhi] at h1
  let s1 : Cpu := { s with running := r1 }
  have h2 := run_acPut (s.word s.ea.rhu) s1
  obtain ⟨r3, h3⟩ := exists_run_memGetN (W36.ofNat (s.ea.vma.toNat + 1))
    (s1.setAC (s.word s.ea.rhu) s.iw.ac)
  rw [hlo] at h3
  have h4 := run_acPutPlus ((s1.setAC (s.word s.ea.rhu) s.iw.ac).word (s.ea + 1).rhu) (k := 1)
    (s := { s1.setAC (s.word s.ea.rhu) s.iw.ac with running := r3 }) hac
  refine ⟨r3, ?_⟩
  rw [hop, doDMOVE, run_bind_of_ok (run_gets Cpu.ea s), run_bind_of_ok h1]
  exact (run_bind_of_ok h2).trans ((run_bind_of_ok h3).trans (run_bind_of_ok h4))

/-- DMOVEM reads its second word after the store of the first one. -/
lemma run_doDMOVEM {s : Cpu} (hac : s.iw.ac.toNat + 1 < 16) :
    ∃ running, (ops 0o124).run s =
      let first := s.setWord s.acPair.hi s.ea.rhu
      .ok (.iNormal,
        { first.setWord (first.acs (s.iw.ac + 1)) (s.ea + 1).rhu with running := running }) := by
  have hop : ops 0o124 = doDMOVEM := ops_of_mem (by simp [installs, installDWordGroup])
  obtain ⟨hhi, hlo⟩ := rhu_pair s.ea
  have h1 := run_acGet s
  obtain ⟨r2, h2⟩ := exists_run_memPutN (s.acs s.iw.ac) (W36.ofNat s.ea.vma.toNat) s
  rw [hhi] at h2
  let s2 : Cpu := { s.setWord (s.acs s.iw.ac) s.ea.rhu with running := r2 }
  have hiw : s2.iw = s.iw := setWord_iw s (s.acs s.iw.ac) s.ea.rhu
  have h3 := run_acGetPlus (s := s2) (k := 1) (by rw [hiw]; exact hac)
  rw [hiw] at h3
  obtain ⟨r4, h4⟩ := exists_run_memPutN (s2.acs (s.iw.ac + 1))
    (W36.ofNat (s.ea.vma.toNat + 1)) s2
  rw [hlo, setWord_running] at h4
  refine ⟨r4, ?_⟩
  rw [hop, doDMOVEM, run_bind_of_ok (run_gets Cpu.ea s)]
  exact (run_bind_of_ok h1).trans
    ((run_bind_of_ok h2).trans ((run_bind_of_ok h3).trans (run_bind_of_ok h4)))

/-! ### When the promise is kept -/

/-- The second of two stores to memory. -/
lemma setWord_inj {s t : Cpu} {v w : W36} {a : BitVec 18} {running running' : Bool}
    (h : ({ s.setWord v a with running := running } : Cpu) =
      { t.setWord w a with running := running' }) : v = w := by
  have hword : (s.setWord v a).word a = (t.setWord w a).word a := by
    have ha := congrArg (fun u : Cpu => u.word a) h
    exact ha
  rwa [word_setWord, word_setWord] at hword

/-- **The moves are not simultaneous**: DMOVE keeps its promise exactly if its second word is not
the accumulator that it stores first, and DMOVEM exactly if its first store is not to the second
accumulator, or else if the two words are the same. -/
theorem double_moves_iff (s : Cpu) (hac : s.iw.ac.toNat < 15) :
    (MovesPair s ↔
      ((s.ea + 1).rhu = s.iw.ac.setWidth 18 → s.memPair.hi = s.memPair.lo)) ∧
    (StoresPair s ↔
      (s.ea.rhu = (s.iw.ac + 1).setWidth 18 → s.acPair.hi = s.acPair.lo)) := by
  constructor
  · obtain ⟨running, hrun⟩ := run_doDMOVE (s := s) (by omega)
    have hsecond := word_setAC s s.memPair.hi s.iw.ac (s.ea + 1).rhu
    dsimp only at hrun
    have hiff : MovesPair s ↔
        (s.setAC s.memPair.hi s.iw.ac).word (s.ea + 1).rhu = s.memPair.lo := by
      constructor
      · rintro ⟨running', hrun'⟩
        rw [hrun, Except.ok.injEq, Prod.mk.injEq] at hrun'
        exact (setAC_inj hrun'.2).1
      · intro h
        refine ⟨running, ?_⟩
        rw [hrun, h]
    rw [hiff, hsecond]
    split
    case isTrue h => rw [forall_prop_of_true h]
    case isFalse h => exact iff_of_true rfl fun h' => absurd h' h
  · obtain ⟨running, hrun⟩ := run_doDMOVEM (s := s) (by omega)
    have hsecond := acs_setWord_eq s s.acPair.hi s.ea.rhu (s.iw.ac + 1)
    dsimp only at hrun
    have hiff : StoresPair s ↔
        (s.setWord s.acPair.hi s.ea.rhu).acs (s.iw.ac + 1) = s.acPair.lo := by
      constructor
      · rintro ⟨running', hrun'⟩
        rw [hrun, Except.ok.injEq, Prod.mk.injEq] at hrun'
        exact setWord_inj hrun'.2
      · intro h
        refine ⟨running, ?_⟩
        rw [hrun, h]
    rw [hiff, hsecond]
    split
    case isTrue h => rw [forall_prop_of_true h]
    case isFalse h => exact iff_of_true rfl fun h' => absurd h' h

/-- A machine with accumulator 1 as the first word to be stored, and with accumulators 0 and 1 as
the words to be moved. -/
def Cpu.movingPair : Cpu :=
  { (Cpu.initial.setAC 5 0).setAC 6 1 with iw := W36.assemble 0 1 false 0 0 }

/-- A machine with 5 and 6 in the accumulators and 7 and 8 in memory. -/
def Cpu.apartPair : Cpu :=
  { (((Cpu.initial.setAC 5 2).setAC 6 3).setMem 7 0o500).setMem 8 0o501 with
    iw := W36.assemble 0 2 false 0 0o500
    ea := 0o500 }

theorem double_moves_iff_apart :
    Cpu.apartPair.memPair = ⟨7, 8⟩ ∧ MovesPair Cpu.apartPair ∧
      Cpu.apartPair.acPair = ⟨5, 6⟩ ∧ StoresPair Cpu.apartPair := by
  obtain ⟨hmoves, hstores⟩ := double_moves_iff Cpu.apartPair (by decide)
  exact ⟨by decide, hmoves.mpr fun h => absurd h (by decide), by decide,
    hstores.mpr fun h => absurd h (by decide)⟩

/-- **A word moved twice**: DMOVE of 5 and 6 in accumulators 0 and 1 to accumulators 1 and 2
leaves 5 in both. -/
theorem double_moves_overlapping :
    Cpu.movingPair.memPair = ⟨5, 6⟩ ∧
      (∃ t, (ops 0o120).run Cpu.movingPair = .ok (.iNormal, t) ∧ t.acs 1 = 5 ∧ t.acs 2 = 5) ∧
      ¬ MovesPair Cpu.movingPair := by
  obtain ⟨running, hrun⟩ := run_doDMOVE (s := Cpu.movingPair) (by decide)
  dsimp only at hrun
  refine ⟨by decide, ⟨_, hrun, rfl, rfl⟩, ?_⟩
  rintro ⟨running', hrun'⟩
  rw [hrun, Except.ok.injEq, Prod.mk.injEq] at hrun'
  exact absurd (setAC_inj hrun'.2).1 (by decide)

/-! ### What a negation promises -/

/-- The flags after the negation of a double word. -/
def negatedFlags (n : ℤ) (f : ProgramFlags) : ProgramFlags :=
  let zero := n = 0
  let least := n = -2 ^ 70
  { f with
    cy0 := f.cy0 || zero
    cy1 := f.cy1 || zero || least
    tr1 := f.tr1 || least
    ov := f.ov || least }

/-- An instruction leaves the negation of a double word and sets the flags of the exceptional
values. -/
def NegatesPair (insn : Handler) (source dest : Cpu → W72) (s : Cpu) : Prop :=
  ∃ r t, insn.run s = .ok (r, t) ∧ (dest t).num = -(source s).num ∧
    t.flags = negatedFlags (source s).num.toInt s.flags

/-! ### The code -/

/-- The words that the code stores. -/
def W72.exchanged (d : W72) : W72 := ⟨d.lo.setSign false, d.hi⟩

lemma toNat_num_exchanged (d : W72) :
    d.exchanged.num.toNat = d.lo35.toNat * 2 ^ 35 + d.hi35.toNat := by
  have hhi : d.exchanged.hi = d.lo.setSign false := rfl
  have hlo : d.exchanged.lo35 = d.hi35 := rfl
  have hword := toNat_eq_mag (d.lo.setSign false)
  rw [sign_setSign, W72.mag_setSign, if_neg Bool.false_ne_true, Nat.zero_add, ← W72.lo35] at hword
  rw [W72.toNat_num, hhi, hlo, hword]

/-- A double word and its exchanged words add up to a multiple of `2^35 + 1`, which no power of two
is. -/
lemma exchanged_add_ne {h l : ℕ} : l * 2 ^ 35 + h + (h * 2 ^ 35 + l) ≠ 2 ^ 70 := by
  have hsum : l * 2 ^ 35 + h + (h * 2 ^ 35 + l) = (2 ^ 35 + 1) * (h + l) := by ring
  rw [hsum]
  generalize h + l = k
  omega

/-- Zero is the only double word that exchanging its words negates. -/
lemma num_exchanged_eq_iff (d : W72) : d.exchanged.num = -d.num ↔ d.num.toInt = 0 := by
  have hne := exchanged_add_ne (h := d.hi35.toNat) (l := d.lo35.toNat)
  have hbounds : d.exchanged.num.toNat < 2 ^ 70 ∧ (d.exchanged.num.toNat = 0 ↔ d.mag = 0) := by
    have hhi := d.hi35.isLt
    have hlo := d.lo35.isLt
    rw [toNat_num_exchanged, W72.mag]
    omega
  have hlt := d.mag_lt
  rw [← toNat_num_exchanged, ← W72.mag] at hne
  rw [← BitVec.toNat_inj, BitVec.toNat_neg, d.toNat_num_mag, d.toInt_num_mag]
  generalize d.exchanged.num.toNat = m at *
  generalize d.mag = n at *
  cases d.hiSign with
  | false =>
      rw [if_neg Bool.false_ne_true, if_neg Bool.false_ne_true]
      omega
  | true =>
      rw [if_pos rfl, if_pos rfl]
      omega

/-- A double word that is zero, without the sign of its low word. -/
lemma setLoSign_of_zero {d : W72} (h : d.num.toInt = 0) : d.setLoSign false = ⟨0, 0⟩ := by
  have hlt := d.mag_lt
  have hsign : d.hiSign = false ∧ d.mag = 0 := by
    rw [d.toInt_num_mag] at h
    cases hsign : d.hiSign with
    | false =>
        rw [hsign, if_neg Bool.false_ne_true] at h
        exact ⟨rfl, by omega⟩
    | true =>
        rw [hsign, if_pos rfl] at h
        exact absurd h (by omega)
  have hmag := hsign.2
  rw [W72.mag] at hmag
  have hhi : d.hi = 0 := ext_mag hsign.1 (show d.hi35.toNat = 0 by omega)
  have hlo : d.lo.setSign false = 0 := by
    refine ext_mag (sign_setSign _ _) ?_
    rw [W72.mag_setSign]
    exact show d.lo35.toNat = 0 by omega
  rw [W72.setLoSign, hhi, hlo]

/-- The flags of the exceptional values. -/
lemma exists_run_exceptional (p q : Prop) [Decidable p] [Decidable q] (s : Cpu) :
    ∃ r f, (if p then flagging .overflow1 .iTrap else if q then flagging .carries .iNormal
        else return .iNormal : Handler).run s = .ok (r, { s with flags := f }) ∧
      (¬ p → q → f = s.flags.carries) := by
  split
  case isTrue hp => exact ⟨_, _, rfl, fun h => absurd hp h⟩
  case isFalse =>
    split
    case isTrue => exact ⟨_, _, rfl, fun _ _ => rfl⟩
    case isFalse hq => exact ⟨_, _, rfl, fun _ h => absurd h hq⟩

/-- DMOVN stores the words of memory exchanged. -/
lemma run_doDMOVN {s : Cpu} (hac : s.iw.ac.toNat + 1 < 16) :
    ∃ r t, doDMOVN.run s = .ok (r, t) ∧ t.acPair = s.memPair.exchanged ∧
      (s.memPair.num.toInt = 0 → t.flags = s.flags.carries) := by
  obtain ⟨running, hmem⟩ := reads_memGetPairVma.out s
  let v := s.memPair.setLoSign false
  let s1 : Cpu := { s with running := running }
  let s2 : Cpu := (s1.setAC v.lo s.iw.ac).setAC v.hi (s.iw.ac + 1)
  have hput0 := run_acPutPlus v.lo (s := s1) (k := 0) s.iw.ac.isLt
  have hput1 := run_acPutPlus v.hi (s := s1.setAC v.lo s.iw.ac) (k := 1) hac
  rw [BitVec.add_zero] at hput0
  obtain ⟨r, f, htail, hflags⟩ := exists_run_exceptional (v.toMag = W72.bit0) (v.toMag = 0) s2
  refine ⟨r, { s2 with flags := f }, ?_, ?_, fun hzero => ?_⟩
  · rw [doDMOVN, run_bind_of_ok hmem]
    exact (run_bind_of_ok hput0).trans ((run_bind_of_ok hput1).trans htail)
  · exact acPair_setPair s1 ⟨v.lo, v.hi⟩
  · have hv : v = ⟨0, 0⟩ := setLoSign_of_zero hzero
    rw [hv] at hflags
    exact hflags (by decide) (by decide)

/-- DMOVNM stores the accumulators exchanged. -/
lemma run_doDMOVNM {s : Cpu} (hac : s.iw.ac.toNat + 1 < 16) :
    ∃ r t, doDMOVNM.run s = .ok (r, t) ∧ t.memPair = s.acPair.exchanged ∧
      (s.acPair.num.toInt = 0 → t.flags = s.flags.carries) := by
  let v := s.acPair.setLoSign false
  obtain ⟨hhi, hlo⟩ := rhu_pair s.ea
  obtain ⟨r1, h1⟩ := exists_run_memPutN v.lo (W36.ofNat s.ea.vma.toNat) s
  let s1 : Cpu := { s.setWord v.lo s.ea.rhu with running := r1 }
  obtain ⟨r2, h2⟩ := exists_run_memPutN v.hi (W36.ofNat (s.ea.vma.toNat + 1)) s1
  rw [hhi] at h1
  rw [hlo] at h2
  let s2 : Cpu := { s1.setWord v.hi (s.ea + 1).rhu with running := r2 }
  obtain ⟨r, f, htail, hflags⟩ := exists_run_exceptional (v.toMag = W72.bit0) (v.u = 0) s2
  refine ⟨r, { s2 with flags := f }, ?_, ?_, fun hzero => ?_⟩
  · rw [doDMOVNM, run_bind_of_ok (run_acGet2 hac), run_bind_of_ok (run_gets Cpu.ea s)]
    exact (run_bind_of_ok h1).trans ((run_bind_of_ok h2).trans htail)
  · have hea : s2.ea = s.ea := (setWord_ea s1 v.hi _).trans (setWord_ea s v.lo _)
    have hhi : s2.word s.ea.rhu = v.lo :=
      (word_setWord_of_ne (rhu_ne_rhu_add_one s.ea)).trans (word_setWord s v.lo s.ea.rhu)
    have hlo : s2.word (s.ea + 1).rhu = v.hi := word_setWord s1 v.hi (s.ea + 1).rhu
    change W72.mk (s2.word s2.ea.rhu) (s2.word (s2.ea + 1).rhu) = _
    rw [hea, hhi, hlo]
    rfl
  · have hv : v = ⟨0, 0⟩ := setLoSign_of_zero hzero
    have hflags0 : s2.flags = s.flags := (setWord_flags s1 v.hi _).trans (setWord_flags s v.lo _)
    rw [hv, hflags0] at hflags
    exact hflags (by decide) (by decide)

/-- An instruction that stores the words exchanged keeps its promise for zero only. -/
lemma negatesPair_iff {insn : Handler} {source dest : Cpu → W72} {s t : Cpu} {r : IResult}
    (hrun : insn.run s = .ok (r, t)) (hdest : dest t = (source s).exchanged)
    (hflags : (source s).num.toInt = 0 → t.flags = s.flags.carries) :
    NegatesPair insn source dest s ↔ (source s).num.toInt = 0 := by
  constructor
  · rintro ⟨r', t', hrun', hnum, -⟩
    rw [hrun, Except.ok.injEq, Prod.mk.injEq] at hrun'
    rw [← hrun'.2, hdest] at hnum
    exact (num_exchanged_eq_iff _).mp hnum
  · intro hzero
    refine ⟨r, t, hrun, ?_, ?_⟩
    · rw [hdest]
      exact (num_exchanged_eq_iff _).mpr hzero
    · rw [hflags hzero, hzero]
      simp [negatedFlags, ProgramFlags.carries]

/-! ### When the promise is kept -/

/-- **The negations negate zero only**, where there is an accumulator for the second word. -/
theorem double_negations_iff (s : Cpu) :
    (NegatesPair (ops 0o121) Cpu.memPair Cpu.acPair s ↔
      s.memPair.num.toInt = 0 ∧ s.iw.ac.toNat < 15) ∧
    (NegatesPair (ops 0o125) Cpu.acPair Cpu.memPair s ↔
      s.acPair.num.toInt = 0 ∧ s.iw.ac.toNat < 15) := by
  have hDMOVN : ops 0o121 = doDMOVN := ops_of_mem (by simp [installs, installDWordGroup])
  have hDMOVNM : ops 0o125 = doDMOVNM := ops_of_mem (by simp [installs, installDWordGroup])
  rw [hDMOVN, hDMOVNM]
  by_cases hac : s.iw.ac.toNat + 1 < 16
  · have hlt : s.iw.ac.toNat < 15 := by omega
    simp only [hlt, and_true]
    obtain ⟨r, t, hrun, hdest, hflags⟩ := run_doDMOVN hac
    obtain ⟨r', t', hrun', hdest', hflags'⟩ := run_doDMOVNM hac
    exact ⟨negatesPair_iff hrun hdest hflags, negatesPair_iff hrun' hdest' hflags'⟩
  · constructor
    · refine iff_of_false ?_ fun h => hac (by omega)
      rintro ⟨r, t, hrun, -⟩
      exact hac (lt_of_returned (n := 1) hrun)
    · refine iff_of_false ?_ fun h => hac (by omega)
      rintro ⟨r, t, hrun, -⟩
      exact hac (lt_of_returned (n := 1) hrun)

/-- The double word 1 in accumulators 0 and 1, which are the words in memory too. -/
def Cpu.onePair : Cpu := Cpu.initial.setAC 1 1

/-- **Exchanged and not negated**: DMOVN of 1 leaves `2^35`, and so does DMOVNM. -/
theorem double_negations_one :
    Cpu.onePair.memPair.num.toInt = 1 ∧ Cpu.onePair.memPair.exchanged.num.toInt = 2 ^ 35 ∧
      (∃ r t, doDMOVN.run Cpu.onePair = .ok (r, t) ∧ t.acPair = Cpu.onePair.memPair.exchanged) ∧
      ¬ NegatesPair doDMOVN Cpu.memPair Cpu.acPair Cpu.onePair ∧
      ¬ NegatesPair doDMOVNM Cpu.acPair Cpu.memPair Cpu.onePair := by
  obtain ⟨r, t, hrun, hdest, hflags⟩ := run_doDMOVN (s := Cpu.onePair) (by decide)
  obtain ⟨r', t', hrun', hdest', hflags'⟩ := run_doDMOVNM (s := Cpu.onePair) (by decide)
  refine ⟨by decide, by decide, ⟨r, t, hrun, hdest⟩, ?_, ?_⟩
  · rw [negatesPair_iff hrun hdest hflags]
    decide
  · rw [negatesPair_iff hrun' hdest' hflags']
    decide

end KM10
