import KM10.Arith.Shift

/-!
The logical shifts of words and double words.

`doLSH` takes the count modulo 36, and `doLSHC` shifts by the low eight bits of the count, or by
minus these.

* `Composes`: an instruction by two counts is the same as by their sum;
* `composes_iff`, `composes_pair_iff`: what that takes of the words;
* `ShiftsLogically`, `ShiftsPairLogically`: what LSH and LSHC promise;
* `logical_shifts_iff`: when they keep the promise;
* `logical_shifts_fail`: counts for which they do not.
-/

namespace KM10

open StateExcept Shifts

/-! ### Counts -/

/-- The machine with an effective address, from which a shift takes its count. -/
def Cpu.withEa (s : Cpu) (ea : W36) : Cpu := { s with ea := ea }

/-- An instruction at two effective addresses, one after the other, does what it does at a third
one. -/
def Composes (insn : Handler) (s : Cpu) (e e' sum : W36) : Prop :=
  ∃ t u, insn.run (s.withEa e) = .ok (.iNormal, t) ∧
    insn.run (t.withEa e') = .ok (.iNormal, u) ∧
    insn.run (s.withEa sum) = .ok (.iNormal, u.withEa sum)

/-- It does so if it leads from the first two to where it leads from the third. -/
lemma composes_iff_of_run {insn : Handler} {s t u v : Cpu} {e e' sum : W36}
    (ht : insn.run (s.withEa e) = .ok (.iNormal, t))
    (hu : insn.run (t.withEa e') = .ok (.iNormal, u))
    (hv : insn.run (s.withEa sum) = .ok (.iNormal, v)) :
    Composes insn s e e' sum ↔ v = u.withEa sum := by
  constructor
  · rintro ⟨t', u', ht', hu', hv'⟩
    rw [ht, Except.ok.injEq, Prod.mk.injEq] at ht'
    rw [← ht'.2, hu, Except.ok.injEq, Prod.mk.injEq] at hu'
    rw [← hu'.2, hv, Except.ok.injEq, Prod.mk.injEq] at hv'
    exact hv'.2
  · exact fun h => ⟨t, u, ht, hu, h ▸ hv⟩

/-- An instruction that changes the accumulator alone composes if the change does. -/
lemma composes_iff {insn : Handler} {f : W36 → ℤ → W36} (hrun : ∀ s : Cpu, insn.run s =
    .ok (.iNormal, s.setAC (f s.acOperand s.ea.rhs) s.iw.ac)) (s : Cpu) (e e' sum : W36) :
    Composes insn s e e' sum ↔ f (f s.acOperand e.rhs) e'.rhs = f s.acOperand sum.rhs := by
  let t := (s.withEa e).setAC (f s.acOperand e.rhs) s.iw.ac
  have hacs : (t.withEa e').acOperand = f s.acOperand e.rhs := by
    change t.acs s.iw.ac = _
    rw [acs_setAC, if_pos rfl]
  have hu := hrun (t.withEa e')
  rw [hacs] at hu
  rw [composes_iff_of_run (hrun (s.withEa e)) hu (hrun (s.withEa sum))]
  have htwice : ((t.withEa e').setAC (f (f s.acOperand e.rhs) e'.rhs) s.iw.ac).withEa sum =
      (s.withEa sum).setAC (f (f s.acOperand e.rhs) e'.rhs) s.iw.ac :=
    setAC_setAC (s.withEa sum) _ _ s.iw.ac
  change (s.withEa sum).setAC (f s.acOperand sum.rhs) s.iw.ac =
    ((t.withEa e').setAC (f (f s.acOperand e.rhs) e'.rhs) s.iw.ac).withEa sum ↔ _
  rw [htwice, setAC_eq_iff, eq_comm]

/-! ### What a shift promises -/

/-- LSH leaves the shifted word in the accumulator and changes nothing else. -/
def ShiftsLogically (s : Cpu) : Prop :=
  (ops 0o242).run s = .ok (.iNormal, s.setAC (logical s.acOperand s.ea.rhs) s.iw.ac)

/-- LSHC leaves the shifted double word in the accumulators and changes nothing else. -/
def ShiftsPairLogically (s : Cpu) : Prop :=
  (ops 0o246).run s = .ok (.iNormal, s.setPair (.ofBits (logical s.acPair.u s.ea.rhs)))

/-! ### Words -/

/-- The word that `doLSH` shifts to. -/
def lshWord (a : W36) (n : ℤ) : W36 :=
  if 0 < n then a <<< n.natAbs else if n < 0 then a >>> n.natAbs else a

lemma lshWord_eq (a : W36) (n : ℤ) : lshWord a n = logical a n := by
  rcases lt_trichotomy n 0 with hneg | rfl | hpos
  · obtain ⟨m, rfl⟩ := Int.exists_eq_neg_ofNat hneg.le
    rw [lshWord, if_neg (by omega), if_pos hneg, logical_neg, Int.natAbs_neg, Int.natAbs_natCast]
  · exact (logical_natCast a 0).symm ▸ (BitVec.shiftLeft_zero a).symm
  · lift n to ℕ using hpos.le
    rw [lshWord, if_pos hpos, logical_natCast, Int.natAbs_natCast]

lemma run_doLSH (s : Cpu) : (ops 0o242).run s =
    .ok (.iNormal, s.setAC (logical s.acOperand (s.ea.rhs.tmod 36)) s.iw.ac) := by
  have hop : ops 0o242 = doLSH := ops_of_mem (by simp [installs, installIntBinGroup])
  have hcount : (shiftCount 36).run s = .ok (s.ea.rhs.tmod 36, s) := rfl
  rw [hop, doLSH, run_bind_of_ok hcount, run_bind_of_ok (run_acGet s), ← lshWord_eq]
  exact run_bind_of_ok (run_acPut _ _)

/-- A shift by the remainder of a count leaves nothing. -/
def LeavesNothing (a : W36) (n : ℤ) : Prop :=
  let p := n.natAbs % 36
  if 0 ≤ n then 2 ^ (36 - p) ∣ a.toNat else a.toNat < 2 ^ p

instance (a : W36) (n : ℤ) : Decidable (LeavesNothing a n) :=
  inferInstanceAs (Decidable (ite _ _ _))

lemma leavesNothing_iff (a : W36) (n : ℤ) : LeavesNothing a n ↔ logical a (n.tmod 36) = 0 := by
  rcases le_or_gt 0 n with hn | hn
  · lift n to ℕ using hn
    rw [natCast_tmod_36, logical_natCast_eq_zero_iff _ (Nat.mod_lt n (by decide)).le, LeavesNothing,
      if_pos (Int.natCast_nonneg n), Int.natAbs_natCast]
  · obtain ⟨m, rfl⟩ := Int.exists_eq_neg_ofNat hn.le
    rw [Int.neg_tmod, natCast_tmod_36, logical_neg_eq_zero_iff, LeavesNothing,
      if_neg (not_le.mpr hn), Int.natAbs_neg, Int.natAbs_natCast]

/-- A count beyond the word must leave nothing. -/
lemma shiftsLogically_iff (s : Cpu) :
    ShiftsLogically s ↔ s.ea.rhs.natAbs < 36 ∨ LeavesNothing s.acOperand s.ea.rhs := by
  rw [ShiftsLogically, run_doLSH, Except.ok.injEq, Prod.mk.injEq, and_iff_right rfl, setAC_eq_iff,
    leavesNothing_iff]
  by_cases hn : s.ea.rhs.natAbs < 36
  · have hcount : s.ea.rhs.tmod 36 = s.ea.rhs := tmod_eq_self hn
    rw [hcount]
    exact iff_of_true rfl (.inl hn)
  · rw [logical_far s.acOperand (not_lt.mp hn), or_iff_right hn]

/-- Counts in the same direction. -/
def SameDirection (m n : ℤ) : Prop := (0 ≤ m ∧ 0 ≤ n) ∨ (m ≤ 0 ∧ n ≤ 0)

/-- Their remainders are such counts too, and add up as long as they do not reach the modulus. -/
lemma SameDirection.tmod {m n : ℤ} (h : SameDirection m n) :
    SameDirection (m.tmod 36) (n.tmod 36) ∧
      (m.tmod 36 + n.tmod 36).natAbs = m.natAbs % 36 + n.natAbs % 36 ∧
      (m.natAbs % 36 + n.natAbs % 36 < 36 → (m + n).tmod 36 = m.tmod 36 + n.tmod 36) := by
  rcases h with ⟨hm, hn⟩ | ⟨hm, hn⟩
  · lift m to ℕ using hm
    lift n to ℕ using hn
    rw [← Int.natCast_add, natCast_tmod_36, natCast_tmod_36, natCast_tmod_36, SameDirection]
    omega
  · obtain ⟨m, rfl⟩ := Int.exists_eq_neg_ofNat hm
    obtain ⟨n, rfl⟩ := Int.exists_eq_neg_ofNat hn
    rw [← Int.neg_add, ← Int.natCast_add, Int.neg_tmod, Int.neg_tmod, Int.neg_tmod, natCast_tmod_36,
      natCast_tmod_36, natCast_tmod_36, SameDirection]
    omega

/-- Two counts must not reach beyond the word together, or the shift by their sum must leave
nothing. -/
lemma lsh_composes_iff (s : Cpu) {e e' sum : W36} (hsum : sum.rhs = e.rhs + e'.rhs)
    (hdir : SameDirection e.rhs e'.rhs) :
    Composes (ops 0o242) s e e' sum ↔
      e.rhs.natAbs % 36 + e'.rhs.natAbs % 36 < 36 ∨ LeavesNothing s.acOperand sum.rhs := by
  obtain ⟨hdir', habs, hadd⟩ := hdir.tmod
  rw [composes_iff (f := fun a n => logical a (n.tmod 36)) run_doLSH, leavesNothing_iff,
    logical_add _ hdir', hsum]
  by_cases hfit : e.rhs.natAbs % 36 + e'.rhs.natAbs % 36 < 36
  · rw [hadd hfit]
    exact iff_of_true rfl (.inl hfit)
  · rw [logical_far _ (by rw [habs]; exact not_lt.mp hfit), or_iff_right hfit, eq_comm]

/-! ### Pairs -/

/-- The bits of a double word in its two words. -/
lemma u_ofBits (b : BitVec 72) : (W72.ofBits b).u = b := by
  refine BitVec.eq_of_getLsbD_eq fun i hi => ?_
  rw [W72.u, W72.ofBits, BitVec.getLsbD_append, BitVec.getLsbD_extractLsb',
    BitVec.getLsbD_extractLsb']
  split
  case isTrue h => rw [decide_eq_true h, Bool.true_and, Nat.zero_add]
  case isFalse h =>
    rw [decide_eq_true (show i - 36 < 36 by omega), Bool.true_and, Nat.add_sub_cancel' (by omega)]

lemma ofBits_inj {b c : BitVec 72} : W72.ofBits b = W72.ofBits c ↔ b = c :=
  ⟨fun h => by rw [← u_ofBits b, h, u_ofBits], fun h => h ▸ rfl⟩

/-- An instruction that changes a pair of accumulators alone, where it is defined, composes if the
change does. -/
lemma composes_pair_iff {insn : Handler} {f : BitVec 72 → ℤ → Option (BitVec 72)}
    (hrun : ∀ s : Cpu, s.iw.ac.toNat + 1 < 16 → ∀ r, insn.run s = .ok r ↔
      ∃ b, f s.acPair.u s.ea.rhs = some b ∧ r = (.iNormal, s.setPair (.ofBits b)))
    {s : Cpu} (hac : s.iw.ac.toNat + 1 < 16) (e e' sum : W36) :
    Composes insn s e e' sum ↔ ∃ b, f s.acPair.u e.rhs = some b ∧
      ∃ c, f b e'.rhs = some c ∧ f s.acPair.u sum.rhs = some c := by
  have hfirst (r : IResult × Cpu) : insn.run (s.withEa e) = .ok r ↔
      ∃ b, f s.acPair.u e.rhs = some b ∧ r = (.iNormal, (s.withEa e).setPair (.ofBits b)) :=
    hrun (s.withEa e) hac r
  have hsum (r : IResult × Cpu) : insn.run (s.withEa sum) = .ok r ↔
      ∃ c, f s.acPair.u sum.rhs = some c ∧ r = (.iNormal, (s.withEa sum).setPair (.ofBits c)) :=
    hrun (s.withEa sum) hac r
  have hsecond (b : BitVec 72) (r : IResult × Cpu) :
      insn.run (((s.withEa e).setPair (.ofBits b)).withEa e') = .ok r ↔
      ∃ c, f b e'.rhs = some c ∧
        r = (.iNormal, ((s.withEa e').setPair (.ofBits b)).setPair (.ofBits c)) := by
    have hpair : (((s.withEa e).setPair (.ofBits b)).withEa e').acPair.u = b :=
      (congrArg W72.u (acPair_setPair s (.ofBits b))).trans (u_ofBits b)
    have h := hrun (((s.withEa e).setPair (.ofBits b)).withEa e') hac r
    rwa [hpair] at h
  constructor
  · rintro ⟨t, u, ht, hu, hv⟩
    obtain ⟨b, hb, ht⟩ := (hfirst _).mp ht
    obtain ⟨c', hc', hv⟩ := (hsum _).mp hv
    rw [Prod.mk.injEq, and_iff_right rfl] at ht hv
    rw [ht] at hu
    obtain ⟨c, hc, hu⟩ := (hsecond b _).mp hu
    rw [Prod.mk.injEq, and_iff_right rfl, setPair_setPair] at hu
    rw [hu] at hv
    change (s.withEa sum).setPair (.ofBits c) = (s.withEa sum).setPair (.ofBits c') at hv
    have hsame : c = c' := ofBits_inj.mp (setPair_eq_iff.mp hv)
    exact ⟨b, hb, c, hc, hsame ▸ hc'⟩
  · rintro ⟨b, hb, c, hc, hc'⟩
    refine ⟨_, _, (hfirst _).mpr ⟨b, hb, rfl⟩, (hsecond b _).mpr ⟨c, hc, rfl⟩,
      (hsum _).mpr ⟨c, hc', ?_⟩⟩
    rw [setPair_setPair]
    rfl

/-- What LSHC leaves, where the shift that it makes is defined. -/
def lshcResult (a : BitVec 72) (n : ℤ) : Option (BitVec 72) :=
  if (0 ≤ n ∧ n % 256 < 128) ∨ n % 256 = 0 then some (logical a (n % 256)) else none

/-- The code that returns a result, unless that is undefined. -/
def returnDefined : Option (BitVec 72) → Exec (BitVec 72)
  | some b => pure b
  | none => throw .undefined

lemma lshcResult_eq (a : BitVec 72) {n : ℤ} (hn : 0 ≤ n) (hlt : n < 128) :
    lshcResult a n = some (logical a n) := by
  have hcount : n % 256 = n := by omega
  rw [lshcResult, hcount, if_pos (.inl ⟨hn, hlt⟩)]

/-- The low eight bits of a right half, whichever way it is read. -/
lemma toNat_and_377 (x : BitVec 18) : ((x &&& 0o377).toNat : ℤ) = x.toInt % 256 := by
  have hlow : (x &&& 0o377).toNat = x.toNat % 2 ^ 8 := by
    rw [BitVec.toNat_and]
    exact Nat.and_two_pow_sub_one_eq_mod x.toNat 8
  have hlt := x.isLt
  rw [hlow, BitVec.toInt_eq_toNat_cond]
  split <;> omega

lemma lshcWord_eq (a : BitVec 72) {n : ℤ} {count : ℕ} (hcount : (count : ℤ) = n % 256) :
    lshcWord a n count = returnDefined (lshcResult a n) := by
  rw [lshcWord, lshcResult, ← hcount, logical_natCast]
  rcases lt_trichotomy n 0 with hneg | hzero | hpos
  · rw [if_neg hneg.not_gt, if_pos hneg]
    by_cases hc : count = 0
    · rw [if_pos hc, if_pos (.inr (by omega)), hc, BitVec.shiftLeft_zero,
        returnDefined]
    · rw [if_neg hc, if_neg (by omega), returnDefined]
  · have hc : count = 0 := by omega
    rw [hzero, if_neg (lt_irrefl 0), if_neg (lt_irrefl 0), if_pos (.inr (by omega)), hc,
      BitVec.shiftLeft_zero, returnDefined]
  · rw [if_pos hpos]
    by_cases hc : count < 128
    · rw [if_pos hc, if_pos (.inl (by omega)), returnDefined]
    · rw [if_neg hc, if_neg (by omega), returnDefined]

lemma run_doLSHC {s : Cpu} (hac : s.iw.ac.toNat + 1 < 16) (r : IResult × Cpu) :
    (ops 0o246).run s = .ok r ↔
      ∃ b, lshcResult s.acPair.u s.ea.rhs = some b ∧ r = (.iNormal, s.setPair (.ofBits b)) := by
  have hop : ops 0o246 = doLSHC := ops_of_mem (by simp [installs, installIntBinGroup])
  have hget := run_acGetPlus (s := s) (k := 1) hac
  have hcount : ((s.ea.rhu &&& 0o377).toNat : ℤ) = s.ea.rhs % 256 := toNat_and_377 s.ea.rhu
  have hea : (gets Cpu.ea : Exec W36).run s = .ok (s.ea, s) := rfl
  rw [hop, doLSHC, run_bind_of_ok (run_acGet s), run_bind_of_ok hget, run_bind_of_ok hea,
    lshcWord_eq _ hcount]
  change (returnDefined (lshcResult s.acPair.u s.ea.rhs)).run s >>= _ = _ ↔ _
  cases lshcResult s.acPair.u s.ea.rhs with
  | none =>
    constructor
    · intro h
      cases h
    · rintro ⟨b, hb, -⟩
      cases hb
  | some b =>
    have hput : (do
        acPut2 (.ofBits b)
        return IResult.iNormal : Exec IResult).run s = .ok (.iNormal, s.setPair (.ofBits b)) :=
      run_bind_of_ok (run_acPut2 (.ofBits b) hac)
    simp only [Option.some.injEq, exists_eq_left']
    change (do
        acPut2 (.ofBits b)
        return IResult.iNormal : Exec IResult).run s = _ ↔ _
    rw [hput, Except.ok.injEq, eq_comm]

/-- LSHC keeps its promise for counts to the left that the shift of a double word allows. -/
lemma shiftsPairLogically_iff {s : Cpu} (hac : s.iw.ac.toNat + 1 < 16)
    (hn : s.ea.rhs.natAbs ≤ 255) : ShiftsPairLogically s ↔ 0 ≤ s.ea.rhs ∧ s.ea.rhs < 128 := by
  rw [ShiftsPairLogically, run_doLSHC hac]
  constructor
  · rintro ⟨b, hb, -⟩
    rw [lshcResult] at hb
    split at hb
    case isTrue hdef => omega
    case isFalse => cases hb
  · exact fun h => ⟨_, lshcResult_eq _ h.1 h.2, rfl⟩

/-- Two counts must not reach beyond it together. -/
lemma lshc_composes_iff {s : Cpu} (hac : s.iw.ac.toNat + 1 < 16) {e e' sum : W36}
    (hsum : sum.rhs = e.rhs + e'.rhs) (hdir : SameDirection e.rhs e'.rhs)
    (hn : sum.rhs.natAbs ≤ 255) :
    Composes (ops 0o246) s e e' sum ↔ 0 ≤ sum.rhs ∧ sum.rhs < 128 := by
  rw [@composes_pair_iff _ lshcResult (fun _ ht => run_doLSHC ht) s hac]
  constructor
  · rintro ⟨b, -, c, -, hc⟩
    rw [lshcResult] at hc
    split at hc
    case isTrue hdef => omega
    case isFalse => cases hc
  · intro h
    rw [SameDirection] at hdir
    refine ⟨_, lshcResult_eq _ (by omega) (by omega), _, lshcResult_eq _ (by omega) (by omega), ?_⟩
    rw [lshcResult_eq _ h.1 h.2, hsum, logical_add _ hdir]

/-- The logical shifts: a word may be shifted by less than its width, or by a count whose remainder
leaves nothing of it; a double word may be shifted to the left by less than 128. -/
theorem logical_shifts_iff (s : Cpu) (hn : s.ea.rhs.natAbs ≤ 255) :
    (ShiftsLogically s ↔ s.ea.rhs.natAbs < 36 ∨ LeavesNothing s.acOperand s.ea.rhs) ∧
      (s.iw.ac.toNat + 1 < 16 →
        (ShiftsPairLogically s ↔ 0 ≤ s.ea.rhs ∧ s.ea.rhs < 128)) ∧
      ∀ e e' sum : W36, sum.rhs = e.rhs + e'.rhs → SameDirection e.rhs e'.rhs →
        sum.rhs.natAbs ≤ 255 →
        (Composes (ops 0o242) s e e' sum ↔
          e.rhs.natAbs % 36 + e'.rhs.natAbs % 36 < 36 ∨ LeavesNothing s.acOperand sum.rhs) ∧
        (s.iw.ac.toNat + 1 < 16 →
          (Composes (ops 0o246) s e e' sum ↔ 0 ≤ sum.rhs ∧ sum.rhs < 128)) :=
  ⟨shiftsLogically_iff s, fun hac => shiftsPairLogically_iff hac hn,
    fun _ _ _ hsum hdir hn => ⟨lsh_composes_iff s hsum hdir,
      fun hac => lshc_composes_iff hac hsum hdir hn⟩⟩

/-- A machine with the words 1 and 1, whose instruction shifts by the count. -/
def shiftMachine (n : ℤ) : Cpu :=
  { (Cpu.initial.setAC 1 0).setAC 1 1 with ea := W36.ofInt n }

/-- By one to the left, and once more. -/
theorem logical_shifts_one :
    let s := shiftMachine 1
    (ShiftsLogically s ↔ s.ea.rhs.natAbs < 36 ∨ LeavesNothing s.acOperand s.ea.rhs) ∧
      (ShiftsPairLogically s ↔ 0 ≤ s.ea.rhs ∧ s.ea.rhs < 128) ∧
      (Composes (ops 0o242) s 1 1 2 ↔ 1 % 36 + 1 % 36 < 36 ∨ LeavesNothing s.acOperand 2) ∧
      (Composes (ops 0o246) s 1 1 2 ↔ (0 : ℤ) ≤ 2 ∧ (2 : ℤ) < 128) :=
  have h := logical_shifts_iff (shiftMachine 1) (by decide)
  have h' := h.2.2 1 1 2 (by decide) (.inl (by decide)) (by decide)
  ⟨h.1, h.2.1 (by decide), h'.1, h'.2 (by decide)⟩

/-- A shift by the whole word leaves it as it is, and double words cannot be shifted to the
right. -/
theorem logical_shifts_fail :
    ¬ ShiftsLogically (shiftMachine 36) ∧ ¬ ShiftsPairLogically (shiftMachine (-1)) := by
  rw [shiftsLogically_iff, shiftsPairLogically_iff (by decide) (by decide)]
  decide

end KM10
