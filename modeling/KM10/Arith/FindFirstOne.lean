import KM10.Arith.Addition
import KM10.Effects.Operands

/-!
The search for the first one bit of a word.

`doJFFO` counts the shifts to the left until the sign bit of a word appears, and jumps if the count
is not zero.

* `jffoResult`, `FindsFirstOne`: what JFFO promises;
* `clz_eq_iff`: the number of leading zeros by the powers of two that a number lies between;
* `jffoCount_eq`: the loop counts the leading zeros and ends by itself;
* `jffo_iff`: when JFFO keeps the promise;
* `jffo_bit0`: a word for which it does not.
-/

namespace KM10

open StateExcept

/-! ### What the search promises -/

/-- The word that JFFO stores: the number of leading zeros, or zero if there is no one bit. -/
def jffoResult (a : W36) : W36 := if a = 0 then 0 else a.clz

/-- JFFO stores this in the next accumulator, jumps unless the word is zero, and changes nothing
else. -/
def FindsFirstOne (s : Cpu) : Prop :=
  (ops 0o243).run s = .ok (if s.acOperand = 0 then .iNormal else .iJump,
    s.setAC (jffoResult s.acOperand) (s.iw.ac + 1))

/-! ### Leading zeros -/

section Leading

variable {w : ℕ} {x : BitVec w}

lemma toNat_clz_lt (hx : x ≠ 0) : x.clz.toNat < w := by
  have hlt : x.clz.toNat < (BitVec.ofNat w w).toNat :=
    BitVec.lt_def.mp (BitVec.clz_lt_iff_ne_zero.mpr hx)
  rw [BitVec.toNat_ofNat] at hlt
  exact hlt.trans_le (Nat.mod_le _ _)

/-- A number with `k` leading zeros is at least the power of two of the bit after these, and below
the next one. -/
lemma clz_eq_iff (hx : x ≠ 0) {k : ℕ} (hk : k < w) :
    x.clz.toNat = k ↔ 2 ^ (w - 1 - k) ≤ x.toNat ∧ x.toNat < 2 ^ (w - k) := by
  have hle := BitVec.two_pow_sub_clz_le_toNat_of_ne_zero (Nat.zero_lt_of_lt hk) hx
  have hlt : x.toNat < 2 ^ (w - x.clz.toNat) := BitVec.toNat_lt_two_pow_sub_clz
  have hclz := toNat_clz_lt hx
  constructor
  · rintro rfl
    exact ⟨hle, hlt⟩
  · rintro ⟨hle', hlt'⟩
    have h := (Nat.pow_lt_pow_iff_right (by decide)).mp (hle.trans_lt hlt')
    have h' := (Nat.pow_lt_pow_iff_right (by decide)).mp (hle'.trans_lt hlt)
    omega

/-- A shift to the left takes away one leading zero. -/
lemma clz_shiftLeft (hx : x ≠ 0) (hpos : 0 < x.clz.toNat) :
    x <<< 1 ≠ 0 ∧ (x <<< 1).clz.toNat + 1 = x.clz.toNat := by
  have hclz := toNat_clz_lt hx
  obtain ⟨hle, hlt⟩ := (clz_eq_iff hx hclz).mp rfl
  generalize x.clz.toNat = c at *
  obtain ⟨c, rfl⟩ := Nat.exists_eq_add_of_lt hpos
  have hpow : 2 ^ (w - 1 - c) = 2 ^ (w - 1 - (0 + c + 1)) * 2 := by
    rw [← pow_succ]
    congr 1
    omega
  have hpow' : 2 ^ (w - c) = 2 ^ (w - (0 + c + 1)) * 2 := by
    rw [← pow_succ]
    congr 1
    omega
  have hdouble : (x <<< 1).toNat = x.toNat * 2 := by
    have hfits : x.toNat * 2 < 2 ^ w := by
      have hmono : 2 ^ (w - c) ≤ 2 ^ w := Nat.pow_le_pow_right (by decide) (Nat.sub_le _ _)
      omega
    rw [BitVec.toNat_shiftLeft, Nat.shiftLeft_eq, pow_one, Nat.mod_eq_of_lt hfits]
  have hne : x <<< 1 ≠ 0 := by
    intro h
    have hzero : (x <<< 1).toNat = 0 := by rw [h]; exact Nat.zero_mod _
    have hpos := Nat.two_pow_pos (w - 1 - (0 + c + 1))
    omega
  refine ⟨hne, ?_⟩
  rw [(clz_eq_iff hne (show c < w by omega)).mpr (by omega)]
  omega

end Leading

/-! ### The code -/

/-- The loop goes on as long as there is a leading zero. -/
lemma ext64_pos_iff {a : W36} (ha : a ≠ 0) : 0 < a.ext64 ↔ 0 < a.clz.toNat := by
  have hzero : a.ext64 ≠ 0 := mt ext64_eq_zero_iff.mp ha
  have hsign := BitVec.clz_eq_zero_iff (x := a) (by decide)
  rw [Nat.pos_iff_ne_zero, Ne, hsign, W36.ext64, BitVec.toInt_eq_toNat_cond] at *
  split at hzero <;> omega

/-- **The count**: with enough rounds the loop ends by itself. -/
lemma jffoCount_eq {n : ℕ} {a : W36} {count : ℕ} (ha : a ≠ 0) (hn : a.clz.toNat ≤ n) :
    jffoCount n a count = count + a.clz.toNat := by
  induction n generalizing a count with
  | zero =>
    rw [jffoCount, Nat.le_zero.mp hn, Nat.add_zero]
  | succ n ih =>
    rw [jffoCount]
    by_cases hpos : 0 < a.clz.toNat
    · obtain ⟨hne, hclz⟩ := clz_shiftLeft ha hpos
      rw [if_pos ((ext64_pos_iff ha).mpr hpos), ih hne (by omega)]
      omega
    · rw [if_neg (mt (ext64_pos_iff ha).mp hpos)]
      omega

lemma run_doJFFO {s : Cpu} (hac : s.iw.ac.toNat + 1 < 16) :
    (ops 0o243).run s = .ok (if jffoResult s.acOperand = 0 then .iNormal else .iJump,
      s.setAC (jffoResult s.acOperand) (s.iw.ac + 1)) := by
  have hop : ops 0o243 = doJFFO := ops_of_mem (by simp [installs, installIntBinGroup])
  have hword : (if s.acOperand ≠ 0 then W36.ofNat (jffoCount 36 s.acOperand 0) else s.acOperand) =
      jffoResult s.acOperand := by
    rw [jffoResult]
    by_cases ha : s.acOperand = 0
    · rw [if_neg (not_not.mpr ha), if_pos ha, ha]
    · rw [if_pos ha, if_neg ha, jffoCount_eq ha (toNat_clz_lt ha).le, Nat.zero_add]
      exact BitVec.ofNat_toNat _ _
  have hget : acGet.run s = .ok (s.acOperand, s) := run_acGet s
  have hput := run_acPutPlus (jffoResult s.acOperand) hac
  rw [hop, doJFFO, run_bind_of_ok hget]
  dsimp only
  rw [hword, run_bind_of_ok hput, ite_not]
  rfl

/-- The code jumps on the count, which is zero too for a word with its first bit set. -/
lemma jffoResult_eq_zero_iff (a : W36) : jffoResult a = 0 ↔ a = 0 ∨ a.sign = true := by
  rw [jffoResult]
  by_cases ha : a = 0
  · rw [if_pos ha]
    exact iff_of_true rfl (.inl ha)
  · have hsign : a.clz.toNat = 0 ↔ a.sign = true := by
      rw [← Nat.le_zero, ← not_lt, ← ext64_pos_iff ha, sign_eq, decide_eq_true_iff, not_lt]
      exact (Int.lt_iff_le_and_ne.trans (and_iff_left (mt ext64_eq_zero_iff.mp ha))).symm
    rw [if_neg ha, or_iff_right ha, ← hsign, ← BitVec.toNat_inj]
    rfl

/-- JFFO keeps its promise if bit 0 of the word is clear.  The loop ends in any case, after at most
35 rounds. -/
theorem jffo_iff {s : Cpu} (hac : s.iw.ac.toNat + 1 < 16) :
    (FindsFirstOne s ↔ s.acOperand.sign = false) ∧
      ∀ rounds, 35 ≤ rounds →
        jffoCount rounds s.acOperand 0 = jffoCount 35 s.acOperand 0 := by
  constructor
  · rw [FindsFirstOne, run_doJFFO hac, Except.ok.injEq, Prod.mk.injEq, and_iff_left rfl]
    by_cases ha : s.acOperand = 0
    · rw [if_pos ha, if_pos ((jffoResult_eq_zero_iff _).mpr (.inl ha)), ha]
      exact iff_of_true rfl rfl
    · rw [if_neg ha]
      by_cases hsign : s.acOperand.sign = true
      · rw [if_pos ((jffoResult_eq_zero_iff _).mpr (.inr hsign)), hsign]
        exact iff_of_false nofun nofun
      · rw [if_neg (mt (jffoResult_eq_zero_iff _).mp (not_or.mpr ⟨ha, hsign⟩))]
        exact iff_of_true rfl (Bool.not_eq_true _ ▸ hsign)
  · intro rounds hrounds
    by_cases ha : s.acOperand = 0
    · have hzero (n : ℕ) : jffoCount n 0 0 = 0 := by cases n <;> rfl
      rw [ha, hzero, hzero]
    · have hclz := toNat_clz_lt ha
      rw [jffoCount_eq ha (by omega), jffoCount_eq ha (by omega)]

/-- A machine with a word in its first accumulator. -/
def jffoMachine (a : W36) : Cpu := Cpu.initial.setAC a 0

/-- The first one bit of the word 1. -/
theorem jffo_one :
    let s := jffoMachine 1
    (FindsFirstOne s ↔ s.acOperand.sign = false) ∧
      ∀ rounds, 35 ≤ rounds →
        jffoCount rounds s.acOperand 0 = jffoCount 35 s.acOperand 0 :=
  jffo_iff (by decide)

/-- No jump is made for a word with its first bit set. -/
theorem jffo_bit0 : ¬ FindsFirstOne (jffoMachine 0o400000000000) := by
  rw [FindsFirstOne, run_doJFFO (by decide), Except.ok.injEq, Prod.mk.injEq]
  exact fun h => absurd h.1 (by decide)

end KM10
