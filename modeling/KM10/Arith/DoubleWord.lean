import KM10.Arith.Addition
import KM10.Effects.Operands

/-!
Addition and subtraction of double words.

A double word counts as the 71-bit number of its high word and the 35 low bits of its low word,
whose own sign is ignored.  A result has the sign of the high word in both.

* `W72.num`, `W72.ofNum`: the 71-bit number of a double word, and back;
* `LeavesPair`: what a double word instruction leaves;
* `ofNum_add`, `ofNum_sub`: the two halves of the result, as the code computes them;
* `doubles`: DADD and DSUB leave the sum and the difference.
-/

namespace KM10

open StateExcept Carry

/-! ### The number of a double word -/

@[simp] lemma sign_setSign (w : W36) (b : Bool) : (w.setSign b).sign = b := by
  rw [← msb_eq_sign, W36.setSign, BitVec.msb_append]
  cases b <;> rfl

/-- A word is its sign and its magnitude field. -/
lemma ext_mag {w v : W36} (hsign : w.sign = v.sign) (hmag : w.mag.toNat = v.mag.toNat) :
    w = v := by
  rw [← BitVec.toNat_inj, toNat_eq_mag, toNat_eq_mag, hsign, hmag]

/-- The magnitude field of a signed number. -/
lemma mag_ofInt (n : ℤ) : ((W36.ofInt n).mag.toNat : ℤ) = n % 2 ^ 35 := by
  rw [W36.ofInt, W36.mag, BitVec.extractLsb'_toNat, BitVec.toNat_ofInt, Nat.shiftRight_zero]
  omega

namespace W72

/-- The 71-bit number of a double word. -/
def num (d : W72) : BitVec 71 := d.hi ++ d.lo35

/-- The double word of a 71-bit number, its sign in both words. -/
def ofNum (n : BitVec 71) : W72 :=
  ⟨n.extractLsb' 35 36, W36.setSign (n.setWidth 36) n.msb⟩

lemma toNat_num (d : W72) : d.num.toNat = d.hi.toNat * 2 ^ 35 + d.lo35.toNat := by
  have hlt := d.lo35.isLt
  rw [num, BitVec.toNat_append, ← Nat.shiftLeft_add_eq_or_of_lt hlt, Nat.shiftLeft_eq]

@[simp] lemma msb_num (d : W72) : d.num.msb = d.hi.sign := by
  rw [num, BitVec.msb_append, if_neg (by decide), msb_eq_sign]

/-- The signed number of a double word by its fields. -/
lemma toInt_num (d : W72) :
    d.num.toInt = (d.hi35.toNat * 2 ^ 35 + d.lo35.toNat : ℕ) - if d.hiSign then 2 ^ 70 else 0 := by
  have hnat := toNat_num d
  have hhi := toNat_eq_mag d.hi
  have hmag := d.hi35.isLt
  have hlo := d.lo35.isLt
  rw [W72.hi35] at hmag ⊢
  rw [W72.hiSign, BitVec.toInt_eq_toNat_cond]
  split at hhi
  case isTrue hsign =>
    rw [if_pos hsign]
    omega
  case isFalse hsign =>
    rw [if_neg hsign]
    omega

/-- The magnitude fields of a double word in a row. -/
def mag (d : W72) : ℕ := d.hi35.toNat * 2 ^ 35 + d.lo35.toNat

lemma mag_lt (d : W72) : d.mag < 2 ^ 70 := by
  have hhi := d.hi35.isLt
  have hlo := d.lo35.isLt
  rw [mag]
  omega

/-- The signed number of a double word by its magnitude fields. -/
lemma toInt_num_mag (d : W72) : d.num.toInt = d.mag - if d.hiSign then 2 ^ 70 else 0 := d.toInt_num

/-- And the number without regard to its sign. -/
lemma toNat_num_mag (d : W72) : d.num.toNat = (if d.hiSign then 2 ^ 70 else 0) + d.mag := by
  rw [toNat_num, toNat_eq_mag, hiSign, mag, hi35]
  split <;> omega

lemma bounds_num (d : W72) : -2 ^ 70 ≤ d.num.toInt ∧ d.num.toInt < 2 ^ 70 :=
  ⟨BitVec.le_toInt d.num, BitVec.toInt_lt⟩

lemma mag_eq_emod (d : W72) : (d.mag : ℤ) = d.num.toInt % 2 ^ 70 := by
  have hlt := d.mag_lt
  rw [toInt_num_mag]
  split <;> omega

lemma hiSign_eq (d : W72) : d.hiSign = decide (d.num.toInt < 0) := by
  have hlt := d.mag_lt
  rw [toInt_num_mag]
  cases d.hiSign with
  | false => exact (decide_eq_false (by rw [if_neg Bool.false_ne_true]; omega)).symm
  | true => exact (decide_eq_true (by rw [if_pos rfl]; omega)).symm

/-- Double words with the same signs and magnitude fields. -/
lemma ext_mag {d e : W72} (hhi : d.hiSign = e.hiSign) (hlo : d.loSign = e.loSign)
    (hmag : d.mag = e.mag) : d = e := by
  have hd := d.lo35.isLt
  have he := e.lo35.isLt
  rw [mag, mag] at hmag
  have hhi' : d.hi = e.hi := KM10.ext_mag hhi (show d.hi35.toNat = e.hi35.toNat by omega)
  have hlo' : d.lo = e.lo := KM10.ext_mag hlo (show d.lo35.toNat = e.lo35.toNat by omega)
  exact congrArg₂ W72.mk hhi' hlo'

lemma sign_extract (n : BitVec 71) : W36.sign (n.extractLsb' 35 36) = n.msb := by
  rw [msb_eq_getLsbD (w := 70), W36.sign, BitVec.getLsbD_extractLsb']
  rfl

lemma mag_setSign (w : W36) (b : Bool) : (w.setSign b).mag = w.mag :=
  BitVec.extractLsb'_append_eq_right

/-- The high word of the double word of a number. -/
@[simp] lemma hi_ofNum (n : BitVec 71) : (ofNum n).hi = n.extractLsb' 35 36 := rfl

/-- The number of the double word of a number. -/
lemma num_ofNum (n : BitVec 71) : (ofNum n).num = n := by
  have hlo : (ofNum n).lo35 = n.extractLsb' 0 35 := by
    rw [lo35, ofNum, mag_setSign, W36.mag, BitVec.extractLsb'_setWidth_of_le (by decide)]
  have hlt := n.isLt
  apply BitVec.eq_of_toNat_eq
  rw [toNat_num, hlo, hi_ofNum, BitVec.extractLsb'_toNat, BitVec.extractLsb'_toNat,
    Nat.shiftRight_eq_div_pow, Nat.shiftRight_zero]
  omega

/-- The double word of a number in two parts, of which the low one may reach into the high one. -/
lemma ofNum_ofInt (hi lo : ℤ) :
    ofNum (BitVec.ofInt 71 (hi * 2 ^ 35 + lo)) =
      ⟨W36.ofInt (hi + lo / 2 ^ 35),
        (W36.ofInt lo).setSign (W36.ofInt (hi + lo / 2 ^ 35)).sign⟩ := by
  have hhi : (BitVec.ofInt 71 (hi * 2 ^ 35 + lo)).extractLsb' 35 36 =
      W36.ofInt (hi + lo / 2 ^ 35) := by
    apply BitVec.eq_of_toNat_eq
    rw [W36.ofInt, BitVec.extractLsb'_toNat, BitVec.toNat_ofInt, BitVec.toNat_ofInt,
      Nat.shiftRight_eq_div_pow]
    omega
  have hlo : W36.mag ((BitVec.ofInt 71 (hi * 2 ^ 35 + lo)).setWidth 36) =
      (W36.ofInt lo).mag := by
    apply BitVec.eq_of_toNat_eq
    rw [W36.ofInt, W36.mag, W36.mag, BitVec.extractLsb'_toNat, BitVec.extractLsb'_toNat,
      BitVec.toNat_setWidth, BitVec.toNat_ofInt, BitVec.toNat_ofInt]
    omega
  rw [ofNum, ← sign_extract, hhi, W36.setSign, W36.setSign, hlo]

/-- The number of a double word as an integer. -/
lemma num_eq_ofInt (d : W72) : d.num = BitVec.ofInt 71 (d.hi.toNat * 2 ^ 35 + d.lo35.toNat) := by
  apply BitVec.eq_of_toNat_eq
  have hlt := d.num.isLt
  rw [BitVec.toNat_ofInt, toNat_num]
  rw [toNat_num] at hlt
  omega

end W72

/-! ### The code -/

/-- A number that does not fit a double word. -/
def overflowsPair (n : ℤ) : Bool := n < -2 ^ 70 ∨ 2 ^ 70 ≤ n

lemma overflowsPair_iff (n : ℤ) : overflowsPair n = true ↔ n < -2 ^ 70 ∨ 2 ^ 70 ≤ n :=
  decide_eq_true_iff

/-- A double word instruction leaves a number in the accumulators, newly sets flags, and traps on
overflow in user mode only.  At most it stops at a breakpoint beyond that. -/
def LeavesPair (insn : Handler) (result : BitVec 71) (cy0 cy1 overflow : Bool) (s : Cpu) : Prop :=
  let r := W72.ofNum result
  let trap := s.flags.usr && overflow
  ∃ running, insn.run s = .ok (if trap then .iTrap else .iNormal,
    { (s.setAC r.hi s.iw.ac).setAC r.lo (s.iw.ac + 1) with
        flags := s.flags.sum cy0 cy1 trap, running := running })

lemma ofInt_natCast (n : ℕ) : W36.ofInt n = W36.ofNat n := BitVec.ofInt_natCast 36 n

lemma ofNum_add (a b : W72) :
    let rHi := W36.ofNat (a.hi.toNat + b.hi.toNat + (a.lo35.toNat + b.lo35.toNat) / 2 ^ 35)
    W72.ofNum (a.num + b.num) =
      ⟨rHi, (W36.ofNat (a.lo35.toNat + b.lo35.toNat)).setSign rHi.sign⟩ := by
  have hsum : a.num + b.num = BitVec.ofInt 71
      ((a.hi.toNat + b.hi.toNat : ℕ) * 2 ^ 35 + (a.lo35.toNat + b.lo35.toNat : ℕ)) := by
    rw [W72.num_eq_ofInt a, W72.num_eq_ofInt b, ← BitVec.ofInt_add]
    exact congrArg (BitVec.ofInt 71) (by omega)
  have hcarry : ((a.hi.toNat + b.hi.toNat : ℕ) : ℤ) + (a.lo35.toNat + b.lo35.toNat : ℕ) / 2 ^ 35 =
      (a.hi.toNat + b.hi.toNat + (a.lo35.toNat + b.lo35.toNat) / 2 ^ 35 : ℕ) := by
    omega
  rw [hsum, W72.ofNum_ofInt, hcarry, ofInt_natCast, ofInt_natCast]

lemma ofNum_sub (a b : W72) :
    let lo64 : ℤ := a.lo35.toNat - b.lo35.toNat
    let rHi := W36.ofInt (a.hi.toNat - b.hi.toNat - (if lo64 < 0 then 1 else 0))
    W72.ofNum (a.num - b.num) = ⟨rHi, (W36.ofInt lo64).setSign rHi.sign⟩ := by
  have hdiff : a.num - b.num = BitVec.ofInt 71
      ((a.hi.toNat - b.hi.toNat) * 2 ^ 35 + (a.lo35.toNat - b.lo35.toNat)) := by
    rw [W72.num_eq_ofInt a, W72.num_eq_ofInt b, BitVec.sub_eq_add_neg, ← BitVec.ofInt_neg,
      ← BitVec.ofInt_add]
    exact congrArg (BitVec.ofInt 71) (by omega)
  have hborrow : ((a.lo35.toNat : ℤ) - b.lo35.toNat) / 2 ^ 35 =
      -(if (a.lo35.toNat : ℤ) - b.lo35.toNat < 0 then 1 else 0) := by
    have ha := a.lo35.isLt
    have hb := b.lo35.isLt
    omega
  rw [hdiff, W72.ofNum_ofInt, hborrow, ← Int.sub_eq_add_neg]

/-- Overflow is a difference between the carries out of bits 0 and 1 of the high word. -/
lemma overflowsPair_value (x y : BitVec 71) (c : Bool) :
    overflowsPair (value (w := 70) x y c) = (BitVec.carry 71 x y c ^^ BitVec.carry 70 x y c) := by
  have h := carry_ne_iff (w := 70) (x := x) (y := y) (c := c)
  rw [Bool.eq_iff_iff, overflowsPair, decide_eq_true_iff, h]
  cases BitVec.carry (70 + 1) x y c <;> cases BitVec.carry 70 x y c <;> decide

/-- The carry out of bit 1 of a sum follows from the signs of the high words. -/
lemma run_setADDFlags_pair (a b : W72) (s : Cpu) :
    let cy0 := BitVec.carry 71 a.num b.num false
    let cy1 := BitVec.carry 70 a.num b.num false
    let trap := s.flags.usr && overflowsPair (a.num.toInt + b.num.toInt)
    (setADDFlags a.hi b.hi (W72.ofNum (a.num + b.num)).hi).run s =
      .ok (if trap then .iTrap else .iNormal, { s with flags := s.flags.sum cy0 cy1 trap }) := by
  have hcy1 := carry_add_eq_xor (w := 70) a.num b.num
  have hcy0 := carry_succ_eq (w := 70) a.num b.num false
  have hoverflow := overflowsPair_value a.num b.num false
  rw [value_add] at hoverflow
  rw [W72.msb_num, W72.msb_num, ← W72.sign_extract] at hcy1
  rw [W72.msb_num, W72.msb_num, hcy1] at hcy0
  rw [hoverflow, hcy0, hcy1]
  exact run_setADDFlags a.hi b.hi _ s

/-- The same of a difference. -/
lemma run_setSUBFlags_pair (a b : W72) (s : Cpu) :
    let cy0 := BitVec.carry 71 a.num (~~~ b.num) true
    let cy1 := BitVec.carry 70 a.num (~~~ b.num) true
    let trap := s.flags.usr && overflowsPair (a.num.toInt - b.num.toInt)
    (setSUBFlags a.hi b.hi (W72.ofNum (a.num - b.num)).hi).run s =
      .ok (if trap then .iTrap else .iNormal, { s with flags := s.flags.sum cy0 cy1 trap }) := by
  have hcy1 := carry_sub_eq_xor (w := 70) a.num b.num
  have hcy0 := carry_succ_eq (w := 70) a.num (~~~ b.num) true
  have hoverflow := overflowsPair_value a.num (~~~ b.num) true
  rw [value_not] at hoverflow
  rw [W72.msb_num, W72.msb_num, ← W72.sign_extract] at hcy1
  rw [BitVec.msb_not, W72.msb_num, W72.msb_num, hcy1] at hcy0
  simp only [Nat.succ_pos, decide_true, Bool.true_and] at hcy0
  rw [hoverflow, hcy0, hcy1]
  exact run_setSUBFlags a.hi b.hi _ s

/-- A double word instruction from its operands, its flags and its result. -/
lemma leavesPair_of_run {flag : W72 → W72 → Exec IResult} (result : W72 → W72 → BitVec 71)
    {cy0 cy1 overflow : W72 → W72 → Bool}
    (hflag : ∀ a b (s : Cpu), (flag a b).run s =
      .ok (if s.flags.usr && overflow a b then .iTrap else .iNormal,
        { s with flags := s.flags.sum (cy0 a b) (cy1 a b) (s.flags.usr && overflow a b) }))
    {s : Cpu} (hac : s.iw.ac.toNat < 15) :
    LeavesPair (do
        let a ← acGet2
        let b ← memGetPairU
        let r ← flag a b
        acPut2 (W72.ofNum (result a b))
        return r)
      (result s.acPair s.memPair) (cy0 s.acPair s.memPair) (cy1 s.acPair s.memPair)
      (overflow s.acPair s.memPair) s := by
  obtain ⟨running, hmem⟩ := reads_memGetPairU.out s
  have hac : s.iw.ac.toNat + 1 < 16 := by omega
  have hflags := hflag s.acPair s.memPair { s with running := running }
  let f := s.flags.sum (cy0 s.acPair s.memPair) (cy1 s.acPair s.memPair)
    (s.flags.usr && overflow s.acPair s.memPair)
  have hput := run_acPut2 (W72.ofNum (result s.acPair s.memPair))
    (s := { s with flags := f, running := running }) hac
  refine ⟨running, ?_⟩
  rw [run_bind_of_ok (run_acGet2 hac), run_bind_of_ok hmem, run_bind_of_ok hflags,
    run_bind_of_ok hput]
  rfl

/-- **DADD and DSUB** leave the sum and the difference of the 71-bit numbers of their operands, and
newly set the carries out of bits 0 and 1 of the high word.  In user mode they trap exactly if the
result does not fit. -/
theorem doubles (s : Cpu) (hac : s.iw.ac.toNat < 15) :
    let a := s.acPair.num
    let b := s.memPair.num
    LeavesPair (ops 0o114) (a + b) (BitVec.carry 71 a b false) (BitVec.carry 70 a b false)
        (overflowsPair (a.toInt + b.toInt)) s ∧
      LeavesPair (ops 0o115) (a - b) (BitVec.carry 71 a (~~~ b) true)
        (BitVec.carry 70 a (~~~ b) true) (overflowsPair (a.toInt - b.toInt)) s := by
  have hadd : ops 0o114 = doDADD := ops_of_mem (by simp [installs, installDWordGroup])
  have hsub : ops 0o115 = doDSUB := ops_of_mem (by simp [installs, installDWordGroup])
  rw [hadd, hsub]
  constructor
  · have h := leavesPair_of_run (fun a b => a.num + b.num) run_setADDFlags_pair hac
    simp only [ofNum_add] at h
    exact h
  · have h := leavesPair_of_run (fun a b => a.num - b.num) run_setSUBFlags_pair hac
    simp only [ofNum_sub] at h
    exact h

/-- The largest double word in accumulators 0 and 1, which are the memory operand too. -/
def Cpu.largestPair : Cpu :=
  (Cpu.inUserMode.setAC (W36.ofNat (2 ^ 35 - 1)) 0).setAC (W36.ofNat (2 ^ 35 - 1)) 1

theorem doubles_largestPair :
    LeavesPair (ops 0o114) (BitVec.ofInt 71 (-2)) false true true Cpu.largestPair ∧
      LeavesPair (ops 0o115) 0 true true false Cpu.largestPair := by
  have hac : Cpu.largestPair.acPair.num = BitVec.ofNat 71 (2 ^ 70 - 1) := by decide
  have hmem : Cpu.largestPair.memPair.num = BitVec.ofNat 71 (2 ^ 70 - 1) := by decide
  have h := doubles Cpu.largestPair (by decide)
  rw [hac, hmem] at h
  exact h

end KM10
