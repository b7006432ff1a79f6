import KM10.Arith.Product
import KM10.Arith.Shift

/-!
The arithmetic shift of a double word.

`doASHC` shifts in the right direction, but sets the flags for the bits that a shift to the right
loses, and takes the count modulo 72.

* `ashcResult`, `ashcFlags`, `ShiftsPair`: what ASHC promises;
* `W72.fused`, `ashcShifted`: the double word as one number, and what the code makes of it;
* `shiftsPair_iff_agrees`: what it takes;
* `ashc_iff`: when ASHC keeps the promise;
* `ashc_largest`: a double word for which it does not.
-/

namespace KM10

open StateExcept Shifts

/-! ### What a shift promises -/

/-- The double word that an arithmetic shift leaves: to the left the sign and the low magnitude bits
of a multiple, and to the right a quotient, rounded down.  Both words have the sign. -/
def ashcResult (d : W72) (n : ℤ) : W72 :=
  if 0 ≤ n then
    let shifted := d.num.toInt * 2 ^ n.natAbs
    ⟨(W36.ofInt (shifted / 2 ^ 35)).setSign d.hiSign, (W36.ofInt shifted).setSign d.hiSign⟩
  else W72.ofInt (d.num.toInt / 2 ^ n.natAbs)

/-- The flags after an arithmetic shift, which overflows if a multiple is no double word. -/
def ashcFlags (d : W72) (n : ℤ) (f : ProgramFlags) : ProgramFlags :=
  if 0 ≤ n ∧ overflowsPair (d.num.toInt * 2 ^ n.natAbs) then f.overflow else f

/-- ASHC leaves the shifted double word in the accumulators, sets these flags and changes nothing
else. -/
def ShiftsPair (s : Cpu) : Prop :=
  let r := ashcResult s.acPair s.ea.rhs
  (ops 0o244).run s = .ok (.iNormal,
    { (s.setAC r.hi s.iw.ac).setAC r.lo (s.iw.ac + 1) with
        flags := ashcFlags s.acPair s.ea.rhs s.flags })

/-! ### The code -/

/-- The double word as one signed number, as the code fuses it. -/
def W72.fused (d : W72) : BitVec 128 := (d.hi.signExtend 128 <<< 35) ||| d.lo.mag.setWidth 128

/-- The bits that a shift to the right by `n` loses. -/
def ashcLost (n : ℤ) : BitVec 128 := (1 <<< n.natAbs) - 1

/-- The condition on which the code sets the flags. -/
def ashcOverflows (d : W72) (n : ℤ) : Prop :=
  n < 0 ∧ d.fused &&& ashcLost n ≠ if d.hiSign then ashcLost n else 0

instance (d : W72) (n : ℤ) : Decidable (ashcOverflows d n) :=
  inferInstanceAs (Decidable (n < 0 ∧ d.fused &&& ashcLost n ≠ if d.hiSign then ashcLost n else 0))

/-- The double word that the code stores, unless the count is zero. -/
def ashcWord (d : W72) (n : ℤ) : W72 :=
  let w70 := if 0 < n then d.fused <<< n.natAbs
    else if n < 0 then d.fused.sshiftRight n.natAbs
    else d.fused
  W72.ofMags ((w70.sshiftRight 35).setWidth 64) ((w70.setWidth 35).setWidth 64) d.hiSign

/-- The double word that the code leaves. -/
def ashcShifted (d : W72) (n : ℤ) : W72 := if n = 0 then d else ashcWord d n

/-- The store of the code, which is left out if the count is zero. -/
lemma run_ashcStore {s : Cpu} (hac : s.iw.ac.toNat + 1 < 16) (n : ℤ) (f : ProgramFlags) :
    let r := ashcShifted s.acPair n
    (if n ≠ 0 then acPut2 (ashcWord s.acPair n) else pure () : Exec Unit).run
      { s with flags := f } =
      .ok ((), { (s.setAC r.hi s.iw.ac).setAC r.lo (s.iw.ac + 1) with flags := f }) := by
  dsimp only
  rw [ashcShifted]
  by_cases hn : n = 0
  · have hsame : (s.setAC s.acPair.hi s.iw.ac).setAC s.acPair.lo (s.iw.ac + 1) = s := by
      change (s.setAC (s.acs s.iw.ac) s.iw.ac).setAC (s.acs (s.iw.ac + 1)) (s.iw.ac + 1) = s
      rw [setAC_self, setAC_self]
    rw [if_pos hn, hsame, if_neg (not_not.mpr hn)]
    rfl
  · rw [if_neg hn, if_pos hn]
    exact run_acPut2 (ashcWord s.acPair n) (s := { s with flags := f }) hac

lemma run_doASHC {s : Cpu} (hac : s.iw.ac.toNat + 1 < 16) :
    let n := s.ea.rhs.tmod 72
    let r := ashcShifted s.acPair n
    (ops 0o244).run s = .ok (.iNormal,
      { (s.setAC r.hi s.iw.ac).setAC r.lo (s.iw.ac + 1) with
          flags := if ashcOverflows s.acPair n then s.flags.overflow else s.flags }) := by
  have hop : ops 0o244 = doASHC := ops_of_mem (by simp [installs, installIntBinGroup])
  have hget := run_acGetPlus (s := s) (k := 0) s.iw.ac.isLt
  have hget' := run_acGetPlus (s := s) (k := 1) hac
  have hcount : (shiftCount 72).run s = .ok (s.ea.rhs.tmod 72, s) := rfl
  have hflags := run_overflowIf (ashcOverflows s.acPair (s.ea.rhs.tmod 72)) s
  have hstore := run_ashcStore hac (s.ea.rhs.tmod 72)
    (if ashcOverflows s.acPair (s.ea.rhs.tmod 72) then s.flags.overflow else s.flags)
  rw [BitVec.add_zero] at hget
  dsimp only
  rw [hop, doASHC, run_bind_of_ok hget, run_bind_of_ok hget', run_bind_of_ok hcount]
  exact (run_bind_of_ok hflags).trans (run_bind_of_ok hstore)

/-! ### Fields and signs -/

/-- The fused number is the double word with its sign in front. -/
lemma fused_eq (d : W72) : d.fused = d.num.signExtend 128 := by
  have hmsb : d.num.msb = d.hi.msb := by rw [W72.msb_num, msb_eq_sign]
  refine BitVec.eq_of_getLsbD_eq fun i hi => ?_
  rw [W72.fused, BitVec.getLsbD_or, BitVec.getLsbD_shiftLeft, BitVec.getLsbD_setWidth,
    BitVec.getLsbD_signExtend, BitVec.getLsbD_signExtend, hmsb, W72.num, BitVec.getLsbD_append]
  simp only [hi, decide_true, Bool.true_and]
  -- the magnitude of the low word below, and copies of the sign beyond the high word
  by_cases hlow : i < 35
  · rw [if_pos (show i < 71 by omega), if_pos hlow, decide_eq_true hlow]
    rfl
  · have hmag : d.lo.mag.getLsbD i = false := BitVec.getLsbD_of_ge _ _ (not_lt.mp hlow)
    rw [if_neg hlow, decide_eq_false hlow, hmag, decide_eq_true (show i - 35 < 128 by omega),
      Bool.or_false, Bool.not_false, Bool.true_and, Bool.true_and]
    by_cases hhigh : i < 71
    · rw [if_pos hhigh, if_pos (by omega)]
    · rw [if_neg hhigh, if_neg (by omega)]

lemma toInt_fused (d : W72) : d.fused.toInt = d.num.toInt := by
  rw [fused_eq, BitVec.toInt_signExtend_of_le (by decide)]

/-- The magnitude field of the double word that the code splits a number into. -/
lemma mag_ofMags (w : BitVec 128) (b : Bool) :
    (W72.ofMags ((w.sshiftRight 35).setWidth 64) ((w.setWidth 35).setWidth 64) b).mag =
      w.toNat % 2 ^ 70 := by
  have hhi : ((w.sshiftRight 35).setWidth 64).setWidth 35 = w.extractLsb' 35 35 := by
    refine BitVec.eq_of_getLsbD_eq fun i hi => ?_
    rw [BitVec.getLsbD_setWidth, BitVec.getLsbD_setWidth, BitVec.getLsbD_sshiftRight,
      BitVec.getLsbD_extractLsb', if_pos (by omega)]
    simp only [hi, show i < 64 by omega, show ¬ 128 ≤ i by omega, decide_true, decide_false,
      Bool.not_false, Bool.true_and]
  rw [W72.mag, W72.ofMags, W72.hi35, W72.lo35, mag_fromMag, mag_fromMag, hhi,
    BitVec.extractLsb'_toNat, BitVec.toNat_setWidth, BitVec.toNat_setWidth, BitVec.toNat_setWidth,
    Nat.shiftRight_eq_div_pow]
  omega

lemma signs_ashcWord (d : W72) (n : ℤ) :
    (ashcWord d n).hiSign = d.hiSign ∧ (ashcWord d n).loSign = d.hiSign :=
  ⟨sign_fromMag _ _, sign_fromMag _ _⟩

/-- What the code stores is a multiple or a quotient. -/
lemma mag_ashcWord (d : W72) (n : ℤ) :
    ((ashcWord d n).mag : ℤ) =
      (if 0 < n then d.num.toInt * 2 ^ n.natAbs else d.num.toInt / 2 ^ n.natAbs) % 2 ^ 70 := by
  have hfield (x : ℤ) : (((BitVec.ofInt 128 x).toNat % 2 ^ 70 : ℕ) : ℤ) = x % 2 ^ 70 := by
    rw [BitVec.toNat_ofInt]
    omega
  have hshift : (if 0 < n then d.fused <<< n.natAbs else if n < 0 then d.fused.sshiftRight n.natAbs
      else d.fused) = BitVec.ofInt 128
        (if 0 < n then d.num.toInt * 2 ^ n.natAbs else d.num.toInt / 2 ^ n.natAbs) := by
    rw [← toInt_fused]
    split
    case isTrue => exact shiftLeft_eq_ofInt d.fused n.natAbs
    case isFalse hpos =>
      split
      case isTrue => exact sshiftRight_eq_ofInt d.fused n.natAbs
      case isFalse hneg =>
        have hzero : n = 0 := by omega
        rw [hzero, Int.natAbs_zero, pow_zero, Int.ediv_one, BitVec.ofInt_toInt]
  rw [ashcWord, mag_ofMags, hshift, hfield]

lemma signs_ashcResult (d : W72) (n : ℤ) :
    (ashcResult d n).hiSign = d.hiSign ∧ (ashcResult d n).loSign = d.hiSign := by
  rw [ashcResult]
  split
  case isTrue => exact ⟨sign_setSign _ _, sign_setSign _ _⟩
  case isFalse =>
    obtain ⟨hle, hlt⟩ := d.bounds_num
    obtain ⟨hle', hlt', hneg⟩ := ediv_pow_bounds hle hlt n.natAbs
    have hnum := toInt_num_ofInt hle' hlt'
    have hsign : (W72.ofInt (d.num.toInt / 2 ^ n.natAbs)).hiSign = d.hiSign := by
      rw [W72.hiSign_eq, W72.hiSign_eq, hnum, decide_eq_decide]
      exact hneg
    exact ⟨hsign, (sign_setSign _ _).trans hsign⟩

lemma mag_ashcResult (d : W72) (n : ℤ) :
    ((ashcResult d n).mag : ℤ) =
      (if 0 ≤ n then d.num.toInt * 2 ^ n.natAbs else d.num.toInt / 2 ^ n.natAbs) % 2 ^ 70 := by
  have hfields (x : ℤ) (hi lo : W36) (hhi : (hi.mag.toNat : ℤ) = x / 2 ^ 35 % 2 ^ 35)
      (hlo : (lo.mag.toNat : ℤ) = x % 2 ^ 35) : ((W72.mk hi lo).mag : ℤ) = x % 2 ^ 70 := by
    rw [W72.mag, Nat.cast_add, Nat.cast_mul, W72.hi35, W72.lo35, hhi, hlo]
    omega
  rw [ashcResult]
  split
  case isTrue =>
    refine hfields _ _ _ ?_ ?_
    · rw [W72.mag_setSign, mag_ofInt]
    · rw [W72.mag_setSign, mag_ofInt]
  case isFalse =>
    refine hfields _ _ _ (mag_ofInt _) ?_
    rw [W72.mag_setSign, mag_ofInt]

/-- Two stores to different accumulators, with flags. -/
lemma setPair_with_flags_inj {s : Cpu} {d e : W72} {f g : ProgramFlags} :
    ({ s.setPair d with flags := f } : Cpu) = { s.setPair e with flags := g } ↔ d = e ∧ f = g := by
  constructor
  · intro h
    have hpair := congrArg Cpu.acPair h
    have hflags := congrArg Cpu.flags h
    change (s.setPair d).acPair = (s.setPair e).acPair at hpair
    rw [acPair_setPair, acPair_setPair] at hpair
    exact ⟨hpair, hflags⟩
  · rintro ⟨rfl, rfl⟩
    rfl

/-- The double word is right, and so are the flags unless they are set already. -/
def AshcAgrees (d : W72) (n : ℤ) (flagged : Prop) : Prop :=
  ashcShifted d (n.tmod 72) = ashcResult d n ∧
    ((ashcOverflows d (n.tmod 72) ↔ 0 ≤ n ∧ overflowsPair (d.num.toInt * 2 ^ n.natAbs)) ∨ flagged)

lemma shiftsPair_iff_agrees {s : Cpu} (hac : s.iw.ac.toNat + 1 < 16) :
    ShiftsPair s ↔ AshcAgrees s.acPair s.ea.rhs (s.flags.ov ∧ s.flags.tr1) := by
  have hinj := @setPair_with_flags_inj s (ashcShifted s.acPair (s.ea.rhs.tmod 72))
    (ashcResult s.acPair s.ea.rhs)
  rw [Cpu.setPair, Cpu.setPair] at hinj
  rw [ShiftsPair, run_doASHC hac, Except.ok.injEq, Prod.mk.injEq, and_iff_right rfl, hinj,
    ashcFlags, overflowIf_eq_iff, AshcAgrees]

/-! ### The cases -/

/-- The double words by their magnitude fields. -/
lemma eq_ashcResult_iff {d e : W72} {n : ℤ} (hhi : e.hiSign = d.hiSign) :
    e = ashcResult d n ↔ e.loSign = d.hiSign ∧
      (e.mag : ℤ) =
        (if 0 ≤ n then d.num.toInt * 2 ^ n.natAbs else d.num.toInt / 2 ^ n.natAbs) % 2 ^ 70 := by
  obtain ⟨hhi', hlo'⟩ := signs_ashcResult d n
  rw [← mag_ashcResult]
  constructor
  · intro h
    rw [h]
    exact ⟨hlo', rfl⟩
  · rintro ⟨hlo, hmag⟩
    exact W72.ext_mag (hhi.trans hhi'.symm) (hlo.trans hlo'.symm) (Int.natCast_inj.mp hmag)

/-- What the code stores, against the result. -/
lemma ashcShifted_eq_iff {d : W72} {m n : ℤ} (hm : m ≠ 0) :
    ashcShifted d m = ashcResult d n ↔
      (if 0 < m then d.num.toInt * 2 ^ m.natAbs else d.num.toInt / 2 ^ m.natAbs) % 2 ^ 70 =
        (if 0 ≤ n then d.num.toInt * 2 ^ n.natAbs else d.num.toInt / 2 ^ n.natAbs) % 2 ^ 70 := by
  obtain ⟨hhi, hlo⟩ := signs_ashcWord d m
  rw [ashcShifted, if_neg hm, eq_ashcResult_iff hhi, and_iff_right hlo, mag_ashcWord]

/-- A count that is a multiple of 72 leaves the double word as it is. -/
lemma ashcShifted_zero_eq_iff {d : W72} {n : ℤ} :
    ashcShifted d 0 = ashcResult d n ↔ d.loSign = d.hiSign ∧
      d.num.toInt % 2 ^ 70 =
        (if 0 ≤ n then d.num.toInt * 2 ^ n.natAbs else d.num.toInt / 2 ^ n.natAbs) % 2 ^ 70 := by
  rw [ashcShifted, if_pos rfl, eq_ashcResult_iff rfl, W72.mag_eq_emod]

lemma ashcLost_eq (p : ℕ) : ashcLost (-p) = BitVec.ofNat 128 (2 ^ p - 1) := by
  rw [ashcLost, Int.natAbs_neg, Int.natAbs_natCast, Nat.shiftLeft_eq, Nat.one_mul]
  exact BitVec.ofNat_sub_ofNat_of_le _ _ (by decide) Nat.one_le_two_pow

/-- A shift to the right sets the flags unless the bits that it loses are all like the sign. -/
lemma ashcOverflows_neg (d : W72) {p : ℕ} (hp : 0 < p) (hlt : p < 72) :
    ashcOverflows d (-p) ↔
      d.num.toInt % 2 ^ p ≠ if d.num.toInt < 0 then 2 ^ p - 1 else 0 := by
  have hneg : (-p : ℤ) < 0 := by omega
  have hand := toNat_and_lowBits d.fused (show p ≤ 128 by omega)
  have hmask : ((BitVec.ofNat 128 (2 ^ p - 1)).toNat : ℤ) = 2 ^ p - 1 := by
    have hle : 1 ≤ 2 ^ p := Nat.one_le_two_pow
    have hlt128 : 2 ^ p < 2 ^ 128 := Nat.pow_lt_pow_right (by decide) (by omega)
    rw [BitVec.toNat_ofNat, Nat.mod_eq_of_lt (by omega), Nat.cast_sub hle, Nat.cast_pow]
    rfl
  have hlost : ((if d.hiSign then ashcLost (-p) else 0 : BitVec 128).toNat : ℤ) =
      if d.num.toInt < 0 then 2 ^ p - 1 else 0 := by
    rw [W72.hiSign_eq, ashcLost_eq]
    by_cases hsign : d.num.toInt < 0
    · rw [decide_eq_true hsign, if_pos rfl, if_pos hsign, hmask]
    · rw [decide_eq_false hsign, if_neg Bool.false_ne_true, if_neg hsign]
      rfl
  rw [ashcOverflows, and_iff_right hneg, Ne, ← BitVec.toNat_inj, ← Int.natCast_inj, hlost,
    ashcLost_eq, hand, toInt_fused]

/-- A shift to the left does not set them. -/
lemma not_ashcOverflows (d : W72) {m : ℤ} (hm : 0 ≤ m) : ¬ ashcOverflows d m :=
  fun h => absurd h.1 (not_lt.mpr hm)

lemma not_left_overflow (d : W72) {n : ℤ} (hn : ¬ 0 ≤ n) :
    ¬ (0 ≤ n ∧ overflowsPair (d.num.toInt * 2 ^ n.natAbs) = true) := fun h => hn h.1

section Cases

variable {d : W72} {flagged : Prop}

/-- Within the double word, a shift to the left is right but for its flags. -/
lemma ashcAgrees_left {m : ℕ} (hm : 0 < m) (hlt : m < 72) :
    AshcAgrees d m flagged ↔ overflowsPair (d.num.toInt * 2 ^ m) = false ∨ flagged := by
  have hcount : (m : ℤ).tmod 72 = m := tmod_eq_self (show (m : ℤ).natAbs < 72 by omega)
  have hnonneg : (0 : ℤ) ≤ m := by omega
  have hpos : (0 : ℤ) < m := by omega
  rw [AshcAgrees, hcount, ashcShifted_eq_iff hpos.ne', if_pos hpos, if_pos hnonneg,
    and_iff_right rfl, and_iff_right hnonneg, iff_false_left (not_ashcOverflows d hnonneg),
    Bool.not_eq_true, Int.natAbs_natCast]

/-- And so is a shift to the right. -/
lemma ashcAgrees_right {m : ℕ} (hm : 0 < m) (hlt : m < 72) :
    AshcAgrees d (-m) flagged ↔
      (d.num.toInt % 2 ^ m = if d.num.toInt < 0 then 2 ^ m - 1 else 0) ∨ flagged := by
  have hcount : (-m : ℤ).tmod 72 = -m :=
    tmod_eq_self (show (-m : ℤ).natAbs < 72 by omega)
  have hneg : ¬ (0 : ℤ) ≤ -m := by omega
  have hnotpos : ¬ (0 : ℤ) < -m := by omega
  rw [AshcAgrees, hcount, ashcShifted_eq_iff (by omega), if_neg hneg, if_neg hnotpos,
    and_iff_right rfl, ashcOverflows_neg d hm hlt, iff_false_right (not_left_overflow d hneg),
    not_not]

/-- The count that the code takes. -/
lemma natCast_tmod_72 (n : ℕ) : (n : ℤ).tmod 72 = (n % 72 : ℕ) := (Int.ofNat_tmod n 72).symm

/-- A shift to the left beyond the double word. -/
lemma ashcAgrees_far_left {n : ℕ} (hn : 72 ≤ n) :
    AshcAgrees d n flagged ↔
      if n % 72 = 0 then d.loSign = d.hiSign ∧
        (d.num.toInt = 0 ∨ (d.num.toInt = -2 ^ 70 ∧ flagged))
      else d.num.toInt = 0 ∨ (2 ^ (70 - n % 72) ∣ d.num.toInt ∧ flagged) := by
  obtain ⟨hle, hlt⟩ := d.bounds_num
  obtain ⟨hfield, hover⟩ := multiple_far d.num.toInt (show 70 < n by omega)
  have hnonneg : (0 : ℤ) ≤ n := by omega
  have hflags : ¬ ashcOverflows d (n % 72 : ℕ) := not_ashcOverflows d (by omega)
  rw [AshcAgrees, natCast_tmod_72, Int.natAbs_natCast, overflowsPair_iff, hover,
    and_iff_right hnonneg, iff_false_left hflags, not_not]
  split
  case isTrue hm =>
    rw [hm, Nat.cast_zero, ashcShifted_zero_eq_iff, if_pos hnonneg, Int.natAbs_natCast, hfield,
      and_assoc]
    refine and_congr_right fun _ => ?_
    constructor
    · rintro ⟨h, hzero | hflagged⟩
      · exact .inl hzero
      · exact (show _ ∨ _ by omega).imp id (fun h => ⟨h, hflagged⟩)
    · rintro (h | ⟨h, hflagged⟩)
      · exact ⟨by omega, .inl h⟩
      · exact ⟨by omega, .inr hflagged⟩
  case isFalse hm =>
    have hpos : (0 : ℤ) < (n % 72 : ℕ) := by omega
    rw [ashcShifted_eq_iff hpos.ne', if_pos hpos, if_pos hnonneg, Int.natAbs_natCast,
      Int.natAbs_natCast, hfield, multiple_field_eq_zero_iff]
    constructor
    · rintro ⟨h, hzero | hflagged⟩
      · exact .inl hzero
      · exact .inr ⟨h, hflagged⟩
    · rintro (h | h)
      · exact ⟨h ▸ dvd_zero _, .inl h⟩
      · exact ⟨h.1, .inr h.2⟩

/-- A shift to the right beyond the double word. -/
lemma ashcAgrees_far_right {n : ℕ} (hn : 72 ≤ n) :
    AshcAgrees d (-n) flagged ↔
      if n % 72 = 0 then d.loSign = d.hiSign ∧ (d.num.toInt = 0 ∨ d.num.toInt = -1)
      else d.num.toInt = 0 ∨ d.num.toInt = -1 ∨
        (-2 ^ (n % 72) ≤ d.num.toInt ∧ d.num.toInt < 2 ^ (n % 72) ∧ flagged) := by
  obtain ⟨hle, hlt⟩ := d.bounds_num
  have hquot := quotient_far hle hlt (show 70 ≤ n by omega)
  have hneg : ¬ (0 : ℤ) ≤ -n := by omega
  rw [AshcAgrees, Int.neg_tmod, natCast_tmod_72, iff_false_right (not_left_overflow d hneg)]
  split
  case isTrue hm =>
    rw [hm, Nat.cast_zero, Int.neg_zero, ashcShifted_zero_eq_iff, if_neg hneg, Int.natAbs_neg,
      Int.natAbs_natCast, hquot, and_assoc]
    refine and_congr_right fun _ => ?_
    rw [and_iff_left (.inl (not_ashcOverflows d le_rfl))]
    split <;> omega
  case isFalse hm =>
    have hpos := Nat.pos_of_ne_zero hm
    have hlt72 := Nat.mod_lt n (show 0 < 72 by decide)
    generalize n % 72 = p at *
    have hnotpos : ¬ (0 : ℤ) < -p := by omega
    rw [ashcShifted_eq_iff (by omega), if_neg hnotpos, if_neg hneg, Int.natAbs_neg, Int.natAbs_neg,
      Int.natAbs_natCast, Int.natAbs_natCast, hquot,
      quotient_field_eq_far_iff (by decide) hle hlt hpos, ashcOverflows_neg d hpos hlt72, not_not]
    have htwo := two_le_pow hpos
    constructor
    · rintro ⟨⟨hle', hlt'⟩, hexact | hflagged⟩
      · exact ((emod_pow_eq_far_iff hpos hle' hlt').mp hexact).imp id .inl
      · exact .inr (.inr ⟨hle', hlt', hflagged⟩)
    · rintro (h | h | ⟨hle', hlt', hflagged⟩)
      · have hrange : -2 ^ p ≤ d.num.toInt ∧ d.num.toInt < 2 ^ p := by omega
        exact ⟨hrange, .inl ((emod_pow_eq_far_iff hpos hrange.1 hrange.2).mpr (.inl h))⟩
      · have hrange : -2 ^ p ≤ d.num.toInt ∧ d.num.toInt < 2 ^ p := by omega
        exact ⟨hrange, .inl ((emod_pow_eq_far_iff hpos hrange.1 hrange.2).mpr (.inr h))⟩
      · exact ⟨⟨hle', hlt'⟩, .inr hflagged⟩

end Cases

/-! ### When the promise is kept -/

/-- The shifts that the code does right, where `flagged` says that OV and TR1 are set already.
To the left nothing may overflow, and to the right the bits that are lost must be like the sign.
Beyond 71 places the remainder `p` of the count must make no difference either. -/
def AshcRight (d : W72) (n : ℤ) (flagged : Prop) : Prop :=
  let a := d.num.toInt
  let p := n.natAbs % 72
  if n.natAbs < 72 then
    if 0 < n then overflowsPair (a * 2 ^ p) = false ∨ flagged
    else (a % 2 ^ p = if a < 0 then 2 ^ p - 1 else 0) ∨ flagged
  else if 0 < n then
    if p = 0 then d.loSign = d.hiSign ∧ (a = 0 ∨ (a = -2 ^ 70 ∧ flagged))
    else a = 0 ∨ (2 ^ (70 - p) ∣ a ∧ flagged)
  else
    if p = 0 then d.loSign = d.hiSign ∧ (a = 0 ∨ a = -1)
    else a = 0 ∨ a = -1 ∨ (-2 ^ p ≤ a ∧ a < 2 ^ p ∧ flagged)

lemma ashcAgrees_iff (d : W72) {n : ℤ} (hn : n ≠ 0) (flagged : Prop) :
    AshcAgrees d n flagged ↔ AshcRight d n flagged := by
  obtain ⟨m, rfl | rfl⟩ := n.eq_nat_or_neg
  · have hpos : (0 : ℤ) < m := by omega
    rw [AshcRight, Int.natAbs_natCast, if_pos hpos, if_pos hpos]
    split
    case isTrue hlt =>
      rw [Nat.mod_eq_of_lt hlt]
      exact ashcAgrees_left (by omega) hlt
    case isFalse hle => exact ashcAgrees_far_left (not_lt.mp hle)
  · have hneg : ¬ (0 : ℤ) < -m := by omega
    rw [AshcRight, Int.natAbs_neg, Int.natAbs_natCast, if_neg hneg, if_neg hneg]
    split
    case isTrue hlt =>
      rw [Nat.mod_eq_of_lt hlt]
      exact ashcAgrees_right (by omega) hlt
    case isFalse hle => exact ashcAgrees_far_right (not_lt.mp hle)

/-- **ASHC** keeps its promise exactly for the shifts above. -/
theorem ashc_iff (s : Cpu) (hac : s.iw.ac.toNat < 15) (hn : s.ea.rhs ≠ 0) :
    ShiftsPair s ↔ AshcRight s.acPair s.ea.rhs (s.flags.ov ∧ s.flags.tr1) := by
  rw [shiftsPair_iff_agrees (by omega), ashcAgrees_iff _ hn]

/-- The double word 1 in accumulators 0 and 1, to be shifted to the left by one. -/
def Cpu.shiftingPair : Cpu := { Cpu.initial.setAC 1 1 with ea := 1 }

/-- A one is shifted as promised. -/
theorem ashc_iff_one : ShiftsPair Cpu.shiftingPair := by
  have hexact : overflowsPair (Cpu.shiftingPair.acPair.num.toInt * 2 ^ 1) = false := by decide
  exact (ashc_iff Cpu.shiftingPair (by decide) (by decide)).mpr (Or.inl hexact)

/-- The largest double word in accumulators 0 and 1, to be shifted to the left by one. -/
def Cpu.shiftingLargest : Cpu :=
  { (Cpu.initial.setAC 0o377777777777 0).setAC 0o377777777777 1 with ea := 1 }

/-- **The flags of the wrong direction**: a shift to the left never sets the flags. -/
theorem ashc_largest :
    (ops 0o244).run Cpu.shiftingLargest = .ok (.iNormal,
      { (Cpu.shiftingLargest.setAC 0o377777777777 0).setAC 0o377777777776 1 with
          flags := ProgramFlags.none }) ∧
      overflowsPair (Cpu.shiftingLargest.acPair.num.toInt * 2) ∧
      ¬ ShiftsPair Cpu.shiftingLargest := by
  have hac : Cpu.shiftingLargest.iw.ac.toNat + 1 < 16 := by decide
  refine ⟨run_doASHC hac, by decide, ?_⟩
  rw [shiftsPair_iff_agrees hac]
  rintro ⟨-, h⟩
  exact absurd h (by decide)

end KM10
