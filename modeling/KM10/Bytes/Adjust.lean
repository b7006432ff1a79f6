import KM10.Bytes.Places
import KM10.Bytes.Pointers
import KM10.Effects.Operands

/-!
The adjustment of a byte pointer.

`BytePointerL1::adjust` should step a pointer over as many bytes as the accumulator says, back if
that is negative.  It finds the word from the bytes that it counts in one, where a byte that is cut
counts too, moves the position the wrong way, and lets it wrap around in its six bits.

* `adjustTraps`: `adjust` with its result;
* `StepsTo`: the pointer that a number of steps makes, or from which they lead back;
* `AdjustFits`: when the code finds it;
* `adjustFits_forward_iff`: what that is for a count forward over bytes that fill the word;
* `adjust_iff`: `adjust` against the steps.
-/

namespace KM10

open BytePointer StateExcept

/-! ### The code -/

/-- `adjust` with its result, which says that trap1, overflow and no-divide should be set. -/
def BytePointer.adjustTraps : BytePointer → Exec Bool
  | .L1 u =>
      if s u = 0 then do
        acPut u
        return false
      else if 36 - (p u).toNat < (s u).toNat then return true
      else do
        let a ← acGet
        let delta := (a.setWidth 32).toInt
        if bpw u = 0 then return true
        else if adjustOverflows u delta then throw .undefined
        else do
          acPut (adjusted u delta)
          return false
  | _ => return false

/-- A byte that fits in a word counts. -/
lemma bpw_pos {u : W36} (hs : s u ≠ 0) (hfit : ¬ 36 - (p u).toNat < (s u).toNat) : 0 < bpw u := by
  have hsize : 0 < (s u).toNat := by
    rw [Nat.pos_iff_ne_zero]
    exact fun h => hs (BitVec.eq_of_toNat_eq h)
  rw [bpw, bpwR]
  have hdiv : 1 ≤ (36 - (p u).toNat + (s u).toNat - 1) / (s u).toNat :=
    (Nat.one_le_div_iff hsize).mpr (by omega)
  omega

/-- The handler drops the result. -/
lemma adjust_eq (bp : BytePointer) : bp.adjust = (do let _ ← bp.adjustTraps) := by
  cases bp with
  | L1 u =>
      rw [BytePointer.adjust, BytePointer.adjustTraps]
      by_cases hs : s u = 0
      · rw [if_pos hs, if_pos hs, bind_assoc]
        exact bind_pure_unit.symm
      by_cases hfit : 36 - (p u).toNat < (s u).toNat
      · rw [if_neg hs, if_neg hs, if_pos hfit, if_pos hfit]
        rfl
      simp only [if_neg hs, if_neg hfit, if_neg (bpw_pos hs hfit).ne', bind_assoc]
      refine congrArg _ (funext fun a => ?_)
      by_cases hover : adjustOverflows u (a.setWidth 32).toInt
      · rw [if_pos hover, if_pos hover]
        rfl
      · rw [if_neg hover, if_neg hover, bind_assoc]
        exact bind_pure_unit.symm
  | G1 => rfl
  | G2 => rfl

/-! ### The adjustment -/

/-- The pointer that `n` steps make.  For a negative count it has its byte inside the word, and the
steps lead back from it. -/
def StepsTo (n : ℤ) (u r : W36) : Prop :=
  if 0 ≤ n then BytePointer.inc^[n.toNat] (.L1 u) = .L1 r
  else (p r).toNat + (s r).toNat ≤ 36 ∧ BytePointer.inc^[n.natAbs] (.L1 r) = .L1 u

namespace LocalPointer

variable {S : ℕ} (q : LocalPointer S) (n delta : ℤ)

/-- The words that the quotient of a count leads to are the right ones. -/
def WordsFit : Prop :=
  (delta - bpwL (p q.u).toNat S).tdiv (bpw q.u) ≡ q.wordsTo n [ZMOD 0o1000000]

instance : Decidable (q.WordsFit n delta) := inferInstanceAs (Decidable (_ ≡ _ [ZMOD _]))

/-- The position that its remainder leads to is that of the right place. -/
def PlaceFits : Prop := 64 ∣ S * (delta.tmod (bpw q.u) + q.placeTo n - q.place)

instance : Decidable (q.PlaceFits n delta) := inferInstanceAs (Decidable (_ ∣ _))

/-- On the way back it may be another one with as many bytes behind it, if the steps lead past the
end of the word. -/
def PastFits : Prop :=
  let position := ((p q.u).toNat + S * delta.tmod (bpw q.u)) % 64
  n < 0 ∧ perWord S - q.placeTo n < -n ∧ position + S ≤ 36 ∧ position / S = perWord S - q.placeTo n

instance : Decidable (q.PastFits n delta) := inferInstanceAs (Decidable (_ ∧ _))

end LocalPointer

/-- The count `n` of which the code takes `delta` leads to the right pointer. -/
structure AdjustFits {S : ℕ} (q : LocalPointer S) (n delta : ℤ) : Prop where
  fits : adjustOverflows q.u delta = false
  words : q.WordsFit n delta
  place : q.PlaceFits n delta ∨ q.PastFits n delta

section Adjusted

open LocalPointer

variable {S : ℕ} (q : LocalPointer S) (n delta : ℤ)

/-- The position of the adjusted pointer. -/
def adjustedP : BitVec 6 := p q.u + BitVec.ofInt 6 (S * delta.tmod (bpw q.u))

/-- And its word. -/
def adjustedY : BitVec 18 := q.u.y + BitVec.ofInt 18 (deltaW q.u delta)

lemma adjusted_eq : adjusted q.u delta = withPY q.u (adjustedP q delta) (adjustedY q delta) := by
  rw [adjusted, adjustedP, adjustedY, q.size]

lemma toNat_adjustedP : ((adjustedP q delta).toNat : ℤ) =
    ((p q.u).toNat + S * delta.tmod (bpw q.u)) % 64 := by
  rw [adjustedP, BitVec.toNat_add, BitVec.toNat_ofInt]
  change (((_ + (_ % 64 : ℤ).toNat) % 64 : ℕ) : ℤ) = _
  omega

lemma adjustedY_eq_iff : adjustedY q delta = q.u.y + BitVec.ofInt 18 (q.wordsTo n) ↔
    q.WordsFit n delta := by
  rw [adjustedY, WordsFit, deltaW, q.size, BitVec.add_right_inj, ← BitVec.toNat_inj,
    BitVec.toNat_ofInt, BitVec.toNat_ofInt, Int.ModEq]
  change (_ % 262144 : ℤ).toNat = (_ % 262144 : ℤ).toNat ↔ _ % 262144 = _ % 262144
  omega

lemma adjustedP_eq_iff : adjustedP q delta = BitVec.ofNat 6 (36 - q.placeTo n * S) ↔
    q.PlaceFits n delta := by
  have hcast := toNat_adjustedP q delta
  have hplace := q.place_mul
  have hp := q.position_le
  have hle := (Nat.mul_le_mul_right S (q.placeTo_le n)).trans (Nat.div_mul_le_self 36 S)
  rw [← BitVec.toNat_inj, PlaceFits, BitVec.toNat_ofNat, Nat.mod_eq_of_lt (by omega), mul_sub,
    mul_add, mul_comm (S : ℤ) (q.placeTo n), mul_comm (S : ℤ) q.place]
  generalize (S : ℤ) * delta.tmod (bpw q.u) = r at hcast ⊢
  have hplace' : (q.place * S : ℤ) = 36 - (p q.u).toNat := by
    rw [← Nat.cast_mul, hplace]
    omega
  have hplaceTo : ((q.placeTo n * S : ℕ) : ℤ) = q.placeTo n * S := Nat.cast_mul _ _
  omega

lemma withPY_inj {u : W36} {p' p'' : BitVec 6} {y y' : BitVec 18} :
    withPY u p' y = withPY u p'' y' ↔ y = y' ∧ p' = p'' := by
  constructor
  · intro h
    refine ⟨?_, ?_⟩
    · rw [← y_withPY u p' y, h, y_withPY]
    · rw [← p_withPY u p' y, h, p_withPY]
  · rintro ⟨rfl, rfl⟩
    rfl

/-- The adjusted pointer is that `n` places on. -/
lemma adjusted_eq_moved_iff : (q.moved n).u = adjusted q.u delta ↔
    q.WordsFit n delta ∧ q.PlaceFits n delta := by
  rw [← adjustedY_eq_iff, ← adjustedP_eq_iff, adjusted_eq, eq_comm]
  exact withPY_inj

/-- The pointer with as many bytes behind it is that `n` places on. -/
lemma align_eq_moved_iff (hfit : (adjustedP q delta).toNat + S ≤ 36) :
    q.align (adjustedP q delta) (adjustedY q delta) = q.moved n ↔
      q.WordsFit n delta ∧ (adjustedP q delta).toNat / S = perWord S - q.placeTo n := by
  have hlt := q.div_lt_perWord _ hfit
  have hle := q.placeTo_le n
  rw [← adjustedY_eq_iff]
  constructor
  · intro h
    have hy := congrArg (fun r => r.u.y) h
    have hplace := congrArg place h
    simp only [align, moved, y_toPlace, place_toPlace] at hy hplace
    exact ⟨hy, by omega⟩
  · rintro ⟨hy, hdiv⟩
    refine eq_of_place ((frame_toPlace _ _ _).trans (frame_toPlace _ _ _).symm) ?_ ?_
    · rw [align, moved, place_toPlace, place_toPlace]
      omega
    · rw [align, moved, y_toPlace, y_toPlace, hy]

/-- The right place is a position at one with as many bytes behind it. -/
lemma placeFits_iff : q.PlaceFits n delta ↔
    (adjustedP q delta).toNat + S ≤ 36 ∧ S ∣ 36 - (adjustedP q delta).toNat ∧
      (adjustedP q delta).toNat / S = perWord S - q.placeTo n := by
  have hle := q.placeTo_le n
  have hmul := (Nat.mul_le_mul_right S hle).trans (Nat.div_mul_le_self 36 S)
  rw [← adjustedP_eq_iff]
  constructor
  · intro h
    have hposition : (adjustedP q delta).toNat = 36 - q.placeTo n * S := by
      rw [h, BitVec.toNat_ofNat, Nat.mod_eq_of_lt (by omega)]
    have hone : 1 * S ≤ q.placeTo n * S := Nat.mul_le_mul_right S (q.one_le_placeTo n)
    rw [hposition, Nat.sub_sub_self hmul]
    exact ⟨by omega, Nat.dvd_mul_left S _, position_div q.size_pos hle⟩
  · rintro ⟨hfit, hdvd, hdiv⟩
    have hposition := q.position_of_dvd _ hfit hdvd
    rwa [hdiv, Nat.sub_sub_self hle, eq_comm] at hposition

/-- Forward the adjusted pointer must be that of the steps. -/
lemma stepsTo_forward_iff (hq : 1 ≤ q.place) (hn : 0 ≤ n) :
    StepsTo n q.u (adjusted q.u delta) ↔ q.WordsFit n delta ∧ q.PlaceFits n delta := by
  have hmoved : next^[n.toNat] q = q.moved n := by
    conv_lhs => rw [← moved_zero hq]
    rw [iterate_moved, Int.toNat_of_nonneg hn, zero_add]
  rw [StepsTo, if_pos hn, inc_iterate, hmoved, BytePointer.L1.injEq, adjusted_eq_moved_iff]

/-- Back it must be one from which they lead back. -/
lemma stepsTo_back_iff (hq : 1 ≤ q.place) (hn : n < 0) : StepsTo n q.u (adjusted q.u delta) ↔
    q.WordsFit n delta ∧ (q.PlaceFits n delta ∨ q.PastFits n delta) := by
  have hback : -(n.natAbs : ℤ) = n := by omega
  have hcast := toNat_adjustedP q delta
  have hle := q.placeTo_le n
  have hdiv : ((adjustedP q delta).toNat / S : ℤ) = ((adjustedP q delta).toNat / S : ℕ) :=
    (Int.natCast_div _ _).symm
  rw [StepsTo, if_neg (not_le.mpr hn), adjusted_eq, p_withPY, s_withPY, q.size, placeFits_iff,
    PastFits, ← hcast, hdiv]
  by_cases hfit : (adjustedP q delta).toNat + S ≤ 36
  · have hsteps := q.iterate_unaligned (adjustedP q delta) (adjustedY q delta) hfit hq n.natAbs
    rw [and_iff_right hfit, hsteps, hback, align_eq_moved_iff q n delta hfit, and_assoc]
    refine and_congr_right fun _ => ?_
    constructor
    · rintro ⟨hplace, hdvd | hlt⟩
      · exact .inl ⟨hfit, hdvd, hplace⟩
      · exact .inr ⟨by omega, by omega, by omega, by omega⟩
    · rintro (⟨-, hdvd, hplace⟩ | ⟨-, hlt, -, hplace⟩)
      · exact ⟨hplace, .inl hdvd⟩
      · exact ⟨by omega, .inr (by omega)⟩
  · constructor
    · rintro ⟨h, -⟩
      exact absurd h hfit
    · rintro ⟨-, ⟨h, -⟩ | ⟨-, -, h, -⟩⟩
      · exact absurd h hfit
      · exact absurd (by exact_mod_cast h) hfit

/-- **The adjusted pointer** is the right one if its word and its place are. -/
lemma stepsTo_adjusted_iff (hq : 1 ≤ q.place) : StepsTo n q.u (adjusted q.u delta) ↔
    q.WordsFit n delta ∧ (q.PlaceFits n delta ∨ q.PastFits n delta) := by
  rcases le_or_gt 0 n with hn | hn
  · have hpast : ¬ q.PastFits n delta := fun h => absurd h.1 (not_lt.mpr hn)
    rw [stepsTo_forward_iff q n delta hq hn, or_iff_left hpast]
  · exact stepsTo_back_iff q n delta hq hn

end Adjusted

section Filled

open LocalPointer

variable {S : ℕ} {q : LocalPointer S} (hfill : perWord S * S = 36)
include hfill

/-- Bytes that fill the word lie to the right of a position without a rest. -/
lemma position_filled : (p q.u).toNat = (perWord S - q.place) * S := by
  have hplace := q.place_mul
  have hp := q.position_le
  rw [Nat.sub_mul, hfill]
  omega

lemma bpwL_filled : bpwL (p q.u).toNat S = perWord S - q.place := by
  have hpos := q.size_pos
  rw [bpwL, position_filled hfill, Nat.add_sub_assoc hpos, Nat.add_comm,
    Nat.add_mul_div_right _ _ hpos, Nat.div_eq_of_lt (by omega), Nat.zero_add]

lemma bpw_filled : bpw q.u = perWord S := by
  have hpos := q.size_pos
  have hle := q.place_le
  rw [bpw, q.size, bpwL_filled hfill, bpwR, ← q.place_mul, Nat.add_sub_assoc hpos,
    Nat.add_comm (q.place * S), Nat.add_mul_div_right _ _ hpos, Nat.div_eq_of_lt (by omega)]
  omega

/-- The quotient is right within the word, and else at the last byte of a word alone. -/
lemma wordsFit_filled_iff (hq : 1 ≤ q.place) (n : ℕ) :
    q.WordsFit n n ↔ q.place + n ≤ perWord S ∨ perWord S ∣ q.place + n := by
  have hle := q.place_le
  have hpos := q.perWord_pos
  have hcast : ((perWord S - q.place : ℕ) : ℤ) = perWord S - q.place := by omega
  rw [WordsFit, wordsTo, bpwL_filled hfill, bpw_filled hfill, hcast, ← Int.natCast_dvd_natCast,
    Nat.cast_add]
  by_cases hword : q.place + n ≤ perWord S
  · have hquotient : (n - (perWord S - q.place) : ℤ).tdiv (perWord S) = 0 := by
      rw [show (n - (perWord S - q.place) : ℤ) = -(perWord S - (q.place + n)) by ring,
        Int.neg_tdiv, Int.tdiv_eq_zero_of_lt (by omega) (by omega), Int.neg_zero]
    rw [hquotient, Int.ediv_eq_zero_of_lt (by omega) (by omega)]
    exact iff_of_true rfl (.inl hword)
  · have hquotient : (n - (perWord S - q.place) : ℤ).tdiv (perWord S) =
        (q.place + n : ℤ) / perWord S - 1 := by
      rw [Int.tdiv_eq_ediv_of_nonneg (by omega),
        show (n - (perWord S - q.place) : ℤ) = q.place + n + -1 * perWord S by ring,
        Int.add_mul_ediv_right _ _ (by omega)]
      rfl
    rw [hquotient, or_iff_right hword]
    by_cases hlast : (q.place + n - 1 : ℤ) % perWord S = perWord S - 1
    · obtain ⟨hdiv, hmod⟩ := Odometer.tick_of_last (show 0 < (perWord S : ℤ) by omega) hlast
      rw [sub_add_cancel] at hdiv hmod
      rw [hdiv, add_sub_cancel_right]
      exact iff_of_true rfl (Int.dvd_of_emod_eq_zero hmod)
    · obtain ⟨hdiv, hmod⟩ := Odometer.tick_of_not_last (show 0 < (perWord S : ℤ) by omega) hlast
      have hnonneg := Int.emod_nonneg (q.place + n - 1 : ℤ) (show (perWord S : ℤ) ≠ 0 by omega)
      rw [sub_add_cancel] at hdiv hmod
      rw [hdiv, Int.dvd_iff_emod_eq_zero, hmod, Int.ModEq]
      omega

/-- Within the word the remainder moves the position as far in the other direction. -/
lemma placeFits_filled_iff (hq : 1 ≤ q.place) {n : ℕ} (h : q.place + n ≤ perWord S) :
    q.PlaceFits n n ↔ 32 ∣ S * n := by
  obtain ⟨-, hplace⟩ := Odometer.ediv_emod_of_eq (a := 0) (B := perWord S)
    (c := q.place + n - 1) (show (0 : ℤ) ≤ q.place + n - 1 by omega) (by omega) (by ring)
  have hcast := q.natCast_placeTo n
  rw [hplace] at hcast
  have hbits : (S * ((n : ℤ).tmod (perWord S) + q.placeTo n - q.place) : ℤ) =
      2 * (S * n : ℕ) := by
    rw [Int.tmod_eq_of_lt (by omega) (by omega), hcast, Nat.cast_mul]
    ring
  rw [PlaceFits, bpw_filled hfill, hbits]
  omega

lemma placeFits_last_iff (hq : 1 ≤ q.place) {n : ℕ} (h : perWord S ∣ q.place + n) :
    q.PlaceFits n n ↔ 32 ∣ (p q.u).toNat := by
  obtain ⟨k, hk⟩ := h
  have hle := q.place_le
  have hcast := q.natCast_placeTo n
  have hreading : (k * perWord S : ℤ) = q.place + n := by
    rw [← Nat.cast_add, hk, Nat.cast_mul, mul_comm]
  obtain ⟨-, hplace⟩ := Odometer.ediv_emod_of_eq (a := k - 1) (B := perWord S)
    (c := q.place + n - 1) (show (0 : ℤ) ≤ perWord S - 1 by omega) (by omega)
    (by rw [← hreading]; ring)
  obtain ⟨-, hrest⟩ := Odometer.ediv_emod_of_eq (a := k - 1) (B := perWord S) (c := n)
    (show (0 : ℤ) ≤ perWord S - q.place by omega) (by omega) (by linarith)
  rw [hplace] at hcast
  have hposition : ((p q.u).toNat : ℤ) = (perWord S - q.place) * S := by
    rw [position_filled hfill, Nat.cast_mul, Nat.cast_sub hle]
  have hbits : (S * ((n : ℤ).tmod (perWord S) + q.placeTo n - q.place) : ℤ) =
      2 * (p q.u).toNat := by
    rw [Int.tmod_eq_emod_of_nonneg (by omega), hrest, hcast, hposition]
    ring
  rw [PlaceFits, bpw_filled hfill, hbits]
  omega

/-- **Forward over bytes that fill the word** the code is right within the word if 32 divides the
number of bits, and besides at the last byte of a word if 32 divides the position. -/
lemma adjustFits_forward_iff (hq : 1 ≤ q.place) (n : ℕ) :
    AdjustFits q n n ↔ adjustOverflows q.u n = false ∧
      ((q.place + n ≤ perWord S ∧ 32 ∣ S * n) ∨
        (perWord S ∣ q.place + n ∧ 32 ∣ (p q.u).toNat)) := by
  have hpast : ¬ q.PastFits n n := fun h => absurd h.1 (by omega)
  constructor
  · rintro ⟨hover, hwords, hplace⟩
    have hplace := hplace.resolve_right hpast
    refine ⟨hover, ?_⟩
    rcases (wordsFit_filled_iff hfill hq n).mp hwords with hword | hlast
    · exact .inl ⟨hword, (placeFits_filled_iff hfill hq hword).mp hplace⟩
    · exact .inr ⟨hlast, (placeFits_last_iff hfill hq hlast).mp hplace⟩
  · rintro ⟨hover, ⟨hword, hplace⟩ | ⟨hlast, hplace⟩⟩
    · exact ⟨hover, (wordsFit_filled_iff hfill hq n).mpr (.inl hword),
        .inl ((placeFits_filled_iff hfill hq hword).mpr hplace)⟩
    · exact ⟨hover, (wordsFit_filled_iff hfill hq n).mpr (.inr hlast),
        .inl ((placeFits_last_iff hfill hq hlast).mpr hplace)⟩

end Filled

section Run

variable {S : ℕ} {q : LocalPointer S} (hfit : (p q.u).toNat + S ≤ 36) (s : Cpu)
include hfit

/-- `adjust` returns the adjusted pointer unless its arithmetic overflows. -/
lemma run_adjustTraps : (BytePointer.L1 q.u).adjustTraps.run s =
    if adjustOverflows q.u (s.acOperand.setWidth 32).toInt then .error .undefined
    else .ok (false, s.setAC (adjusted q.u (s.acOperand.setWidth 32).toInt) s.iw.ac) := by
  have hs : BytePointer.s q.u ≠ 0 := by
    intro h
    have hsize := q.size
    have hpos := q.size_pos
    rw [h] at hsize
    change 0 = S at hsize
    omega
  have hroom : ¬ 36 - (p q.u).toNat < (BytePointer.s q.u).toNat := by
    rw [q.size]
    omega
  rw [BytePointer.adjustTraps, if_neg hs, if_neg hroom, run_bind_of_ok (run_acGet s)]
  change (if bpw q.u = 0 then _ else if adjustOverflows q.u (s.acOperand.setWidth 32).toInt then _
    else _ : Exec Bool).run s = _
  rw [if_neg (bpw_pos hs hroom).ne']
  split
  case isTrue => rfl
  case isFalse => exact run_bind_of_ok (run_acPut _ s)

/-- **ADJBP against the steps.**  The adjusted pointer is that of the steps if no arithmetic
overflows, the truncated quotient by the bytes that the code counts in a word is the number of words
to go but for whole turns, and the remainder leads to the right place although it moves the wrong
way; or on the way back, past the end of a word, to a position with as many bytes behind it. -/
theorem adjust_iff :
    (∃ t, (BytePointer.L1 q.u).adjustTraps.run s = .ok (false, t) ∧
      StepsTo s.acOperand.toInt q.u t.acOperand) ↔
    AdjustFits q s.acOperand.toInt (s.acOperand.setWidth 32).toInt := by
  have hput : (s.setAC (adjusted q.u (s.acOperand.setWidth 32).toInt) s.iw.ac).acOperand =
      adjusted q.u (s.acOperand.setWidth 32).toInt :=
    (acs_setAC s _ _ _).trans (if_pos rfl)
  have hsteps := stepsTo_adjusted_iff q s.acOperand.toInt (s.acOperand.setWidth 32).toInt
    (LocalPointer.one_le_place hfit)
  rw [run_adjustTraps hfit]
  constructor
  · rintro ⟨t, hrun, hto⟩
    split at hrun
    case isTrue => cases hrun
    case isFalse hover =>
      cases hrun
      rw [hput] at hto
      obtain ⟨hwords, hplace⟩ := hsteps.mp hto
      exact ⟨Bool.eq_false_iff.mpr hover, hwords, hplace⟩
  · rintro ⟨hover, hwords, hplace⟩
    refine ⟨_, if_neg (Bool.eq_false_iff.mp hover), ?_⟩
    rw [hput]
    exact hsteps.mpr ⟨hwords, hplace⟩

end Run

/-- The pointer before the first byte of a word. -/
def LocalPointer.start {S : ℕ} (hpos : 1 ≤ S) (hle : S ≤ 36) (y : BitVec 18) : LocalPointer S where
  u := localPointer 36 (BitVec.ofNat 6 S) y
  isLocal := bit_localPointer _ _ _
  size := by rw [s_localPointer, toNat_field (hle.trans_lt (by decide))]
  size_pos := hpos
  size_le := hle
  position_le := by rw [p_localPointer]; exact le_rfl
  aligned := by rw [p_localPointer]; exact dvd_zero S

/-- A pointer to a character. -/
def characterPointer (k : ℕ) (hk : k ≤ 6) : LocalPointer 6 :=
  (LocalPointer.start (Nat.le_add_left 1 5) (Nat.le_add_left 6 30) 0o100).toPlace k hk 0o100

/-- From the last character of a word six more lead to that of the next word. -/
theorem adjust_last :
    ∃ t, (BytePointer.L1 (characterPointer 6 le_rfl).u).adjustTraps.run
        (Cpu.initial.setAC 6 0) = .ok (false, t) ∧
      StepsTo 6 (characterPointer 6 le_rfl).u t.acOperand :=
  (adjust_iff (by decide) (Cpu.initial.setAC 6 0)).mpr
    ⟨by decide, by decide, .inl (by decide)⟩

/-- One more than the first character of a word should be the second, but is before the first. -/
theorem adjust_one :
    ¬ ∃ t, (BytePointer.L1 (characterPointer 1 (by decide)).u).adjustTraps.run
        (Cpu.initial.setAC 1 0) = .ok (false, t) ∧
      StepsTo 1 (characterPointer 1 (by decide)).u t.acOperand := by
  rintro ⟨t, hrun, hsteps⟩
  rw [run_adjustTraps (by decide), if_neg (by decide)] at hrun
  cases hrun
  obtain ⟨-, hplace | hpast⟩ :=
    (stepsTo_adjusted_iff (characterPointer 1 (by decide)) 1 1 (by decide)).mp hsteps
  · exact absurd hplace (by decide)
  · exact absurd hpast.1 (by decide)

end KM10
