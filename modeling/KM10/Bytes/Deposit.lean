import KM10.Bytes.Pointers

/-!
Deposits of bytes.

`putByte` clears the byte with a mask of its size, but cuts the new byte with a mask of its
position.  `getByte` loads it through an `unsigned` of 32 bits.

* `DepositsByte`: what a deposit promises, with a load after it;
* `getLsbD_deposited`: the bits of the word with a byte deposited;
* `OutsideKept`, `ByteComesBack`, `deposit_iff`: when a deposit keeps the promise;
* `deposit_right_end`: a deposit that does not.
-/

namespace KM10

open BytePointer StateExcept

/-! ### What a deposit promises -/

/-- A deposit changes nothing but the word at the address, and of that nothing but the byte of `S`
bits at position `P`.  A load through the same pointer then returns the deposited word modulo
`2^S`. -/
def DepositsByte (bp : BytePointer) (P S : ℕ) (a : BitVec 18) (v : W36) (s : Cpu) : Prop :=
  ∃ w running, (bp.putByte v).run s = .ok ((), { s.setWord w a with running := running }) ∧
    (∀ k < 36, k < P ∨ P + S ≤ k → w.getLsbD k = (s.word a).getLsbD k) ∧
    ∃ b u, bp.getByte.run { s.setWord w a with running := running } = .ok (b, u) ∧
      b.toNat = v.toNat % 2 ^ S

/-- The bits beyond the byte that the code deposits as well are in the word already. -/
def OutsideKept (w v : W36) (P S : ℕ) : Prop :=
  ∀ k, S ≤ k → k < P → P + k < 36 → v.getLsbD k = true → w.getLsbD (P + k) = true

/-- The pointer still names a byte after the deposit.  If it is the same one, it has no more bits
than the position, or than an `unsigned`; and another one is there already. -/
def ByteComesBack (bp : BytePointer) (P S : ℕ) (a : BitVec 18) (v : W36) (s : Cpu) : Prop :=
  ∃ a', Names (s.setWord ((s.word a).deposited v P S) a) bp P S a' ∧
    if a' = a then v.toNat % 2 ^ S < 2 ^ min P 32
    else ((s.word a').loaded P S).toNat = v.toNat % 2 ^ S

/-! ### Bits -/

section Bits

variable {P S : ℕ} (w v : W36)

/-- The code deposits as many bits as the position says, over those that it has cleared. -/
lemma getLsbD_deposited (hfit : P + S ≤ 36) {k : ℕ} (hk : k < 36) :
    (w.deposited v P S).getLsbD k =
      ((w.getLsbD k && (decide (k < P) || decide (P + S ≤ k))) ||
        (decide (P ≤ k) && (v.getLsbD (k - P) && decide (k - P < P)))) := by
  simp only [W36.deposited, W36.bMask, BitVec.getLsbD_setWidth, BitVec.getLsbD_or,
    BitVec.getLsbD_and, BitVec.getLsbD_not, BitVec.getLsbD_shiftLeft,
    W36.getLsbD_rMask (show S < 64 by omega), W36.getLsbD_rMask (show P < 64 by omega), hk,
    show k < 64 by omega, show k - P < 64 by omega, decide_true, Bool.true_and]
  by_cases hP : k < P
  · simp only [hP, not_le.mpr hP, decide_true, decide_false, Bool.not_true, Bool.not_false,
      Bool.false_and, Bool.true_or, Bool.or_false]
  · have hbyte : (!decide (k - P < S)) = decide (P + S ≤ k) := by
      rw [← decide_not, decide_eq_decide]
      omega
    simp only [hP, not_lt.mp hP, hbyte, decide_true, decide_false, Bool.not_false, Bool.true_and,
      Bool.false_or]

lemma outsideKept_iff (hfit : P + S ≤ 36) :
    (∀ k < 36, k < P ∨ P + S ≤ k → (w.deposited v P S).getLsbD k = w.getLsbD k) ↔
      OutsideKept w v P S := by
  constructor
  · intro h k hS hP hk hv
    rw [← h (P + k) hk (.inr (by omega)), getLsbD_deposited w v hfit hk, Nat.add_sub_cancel_left,
      hv, decide_eq_true hP, decide_eq_true (Nat.le_add_right P k)]
    exact Bool.or_true _
  · intro h k hk hout
    rw [getLsbD_deposited w v hfit hk]
    rcases hout with hlow | hhigh
    · rw [decide_eq_true hlow, decide_eq_false (not_le.mpr hlow), Bool.true_or, Bool.and_true,
        Bool.false_and, Bool.or_false]
    · rw [decide_eq_true hhigh, Bool.or_true, Bool.and_true, Bool.or_eq_left_iff_imp,
        Bool.and_eq_true, Bool.and_eq_true, decide_eq_true_iff, decide_eq_true_iff]
      rintro ⟨hP, hv, hlt⟩
      have hkept := h (k - P) (by omega) hlt (by omega) hv
      rwa [Nat.add_sub_of_le hP] at hkept

/-- The byte that comes back is the deposited one if it fits. -/
lemma loaded_deposited_eq_iff (hfit : P + S ≤ 36) :
    ((w.deposited v P S).loaded P S).toNat = v.toNat % 2 ^ S ↔
      v.toNat % 2 ^ S < 2 ^ min P 32 := by
  have hmin (n a b : ℕ) : n < 2 ^ min a b ↔ n < 2 ^ a ∧ n < 2 ^ b := by
    rcases le_total a b with hab | hab
    · have hpow := Nat.pow_le_pow_right (show 0 < 2 by decide) hab
      rw [min_eq_left hab]
      omega
    · have hpow := Nat.pow_le_pow_right (show 0 < 2 by decide) hab
      rw [min_eq_right hab]
      omega
  have hcut : v.toNat % 2 ^ min P S = v.toNat % 2 ^ S % 2 ^ min P S :=
    (Nat.mod_mod_of_dvd _ (Nat.pow_dvd_pow 2 (min_le_right P S))).symm
  have hlt : v.toNat % 2 ^ S < 2 ^ S := Nat.mod_lt _ (Nat.two_pow_pos S)
  rw [loaded_deposited w v hfit, BitVec.toNat_ofNat, hcut, hmin]
  generalize v.toNat % 2 ^ S = n at *
  have hsmall : n % 2 ^ min P S % 2 ^ 32 % 2 ^ 36 = n % 2 ^ min P S % 2 ^ 32 := by omega
  rw [hsmall]
  constructor
  · intro h
    have hle : n ≤ n % 2 ^ min P S := h.symm.le.trans (Nat.mod_le _ _)
    have hlt' := hle.trans_lt (Nat.mod_lt n (Nat.two_pow_pos (min P S)))
    exact ⟨((hmin _ _ _).mp hlt').1, by omega⟩
  · rintro ⟨hP, h32⟩
    rw [Nat.mod_eq_of_lt ((hmin _ _ _).mpr ⟨hP, hlt⟩), Nat.mod_eq_of_lt h32]

end Bits

/-! ### Names -/

section Named

variable {s : Cpu} {bp : BytePointer} {P S : ℕ} {a : BitVec 18}

/-- The byte of the deposit, or another one after it. -/
lemma loaded_after_deposit (hfit : P + S ≤ 36) (v : W36) (a' : BitVec 18) :
    (((s.setWord ((s.word a).deposited v P S) a).word a').loaded P S).toNat = v.toNat % 2 ^ S ↔
      if a' = a then v.toNat % 2 ^ S < 2 ^ min P 32
      else ((s.word a').loaded P S).toNat = v.toNat % 2 ^ S := by
  split
  case isTrue ha => rw [ha, word_setWord, loaded_deposited_eq_iff _ _ hfit]
  case isFalse ha => rw [word_setWord_of_ne ha]

section Deposited

variable (h : Names s bp P S a) (hfit : P + S ≤ 36) (v : W36)
include h hfit

/-- What a deposit that keeps its promise takes. -/
lemma kept_of_depositsByte (hdeposit : DepositsByte bp P S a v s) :
    OutsideKept (s.word a) v P S ∧ ByteComesBack bp P S a v s := by
  obtain ⟨w, running', hput', hout, hload⟩ := hdeposit
  obtain ⟨running, hput⟩ := run_putByte_of_names h v
  obtain rfl : (s.word a).deposited v P S = w := by
    rw [hput, Except.ok.injEq, Prod.mk.injEq] at hput'
    have hword := congrArg (fun t : Cpu => t.word a) hput'.2
    change (s.setWord _ a).word a = (s.setWord w a).word a at hword
    rwa [word_setWord, word_setWord] at hword
  obtain ⟨a', ha', hloaded⟩ := (getByte_returns_iff h.positionSize _).mp hload
  let t := s.setWord ((s.word a).deposited v P S) a
  exact ⟨(outsideKept_iff _ _ hfit).mp hout, a', ha'.with_running t.running,
    (loaded_after_deposit hfit v a').mp hloaded⟩

/-- A deposit keeps its promise if the bits beyond the byte are in the word already, and the byte
comes back. -/
theorem deposit_iff :
    DepositsByte bp P S a v s ↔
      OutsideKept (s.word a) v P S ∧ ByteComesBack bp P S a v s := by
  refine ⟨kept_of_depositsByte h hfit v, ?_⟩
  rintro ⟨hout, a', ha', hload⟩
  obtain ⟨running, hput⟩ := run_putByte_of_names h v
  refine ⟨_, running, hput, (outsideKept_iff _ _ hfit).mpr hout,
    (getByte_returns_iff h.positionSize _).mpr ?_⟩
  exact ⟨a', ha'.with_running running, (loaded_after_deposit hfit v a').mpr hload⟩

end Deposited

end Named

/-- A character at the right end of the word at 0100, where the next three bits are ones. -/
theorem deposit_six :
    DepositsByte (.L1 (localPointer 6 6 0o100)) 6 6 0o100 0o41 Cpu.initial ↔
      OutsideKept (Cpu.initial.word 0o100) 0o41 6 6 ∧
        ByteComesBack (.L1 (localPointer 6 6 0o100)) 6 6 0o100 0o41 Cpu.initial :=
  deposit_iff (names_localPointer Cpu.initial 6 6 0o100) (by decide) 0o41

/-- Nothing is deposited at the right end of a word. -/
theorem deposit_right_end :
    ¬ DepositsByte (.L1 (localPointer 0 6 0o100)) 0 6 0o100 1 Cpu.initial := by
  intro h
  obtain ⟨-, a, ha, hbyte⟩ :=
    kept_of_depositsByte (names_localPointer Cpu.initial 0 6 0o100) (by decide) 1 h
  rw [if_pos (ha.address.unique (names_localPointer _ 0 6 0o100).address)] at hbyte
  exact absurd hbyte (by decide)

end KM10
