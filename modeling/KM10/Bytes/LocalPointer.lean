import KM10.Instr.DWord
import Mathlib.Algebra.Group.End
import Mathlib.Data.ZMod.Basic

/-!
One word local byte pointers and the order in which they step through memory.

A pointer to bytes of `S` bits is at one of the `36 / S` places of a word, or before the first
of them.  Numbering the places of all words of the address space, one after the other, the
pointer steps like an odometer: by one place, and from the last one back to the first.

* `LocalPointer S`: the local pointers to bytes of `S` bits whose position is a place;
* `LocalPointer.next`: the pointer that `inc` makes (`inc_eq_next`);
* `LocalPointer.count`: the number of its place, and `count_iterate`, its steps;
* `LocalPointer.exists_y`: a whole turn of the odometer reaches every word;
* `LocalPointer.iterate_eq_self`: only whole turns lead a pointer back to itself.
-/

namespace KM10

open BytePointer

/-- A one word local byte pointer to bytes of `S` bits, the left ends of which lie `S` bits
apart from the left end of the word on. -/
@[ext] structure LocalPointer (S : ℕ) where
  u : W36
  isLocal : u.getLsbD 23 = false
  size : (s u).toNat = S
  size_pos : 1 ≤ S
  size_le : S ≤ 36
  position_le : (p u).toNat ≤ 36
  aligned : S ∣ 36 - (p u).toNat

section Fields

variable (u : W36) (p' : BitVec 6) (y : BitVec 18)

@[simp] lemma p_withPY : p (withPY u p' y) = p' := by
  apply BitVec.eq_of_getLsbD_eq
  intro n hn
  simp only [p, withPY, BitVec.getLsbD_extractLsb', BitVec.getLsbD_append, hn, decide_true,
    Bool.true_and]
  rw [if_neg (by omega), if_neg (by omega)]
  congr 1
  omega

@[simp] lemma y_withPY : (withPY u p' y).y = y := by
  apply BitVec.eq_of_getLsbD_eq
  intro n hn
  simp only [W36.y, withPY, BitVec.getLsbD_extractLsb', BitVec.getLsbD_append, hn, decide_true,
    Bool.true_and]
  rw [if_pos (by omega), Nat.zero_add]

/-- The fields between them stay. -/
lemma getLsbD_withPY {n : ℕ} (h : 18 ≤ n) (hn : n < 30) :
    (withPY u p' y).getLsbD n = u.getLsbD n := by
  simp only [withPY, BitVec.getLsbD_extractLsb', BitVec.getLsbD_append]
  rw [if_neg (by omega), if_pos (by omega), decide_eq_true (by omega), Bool.true_and]
  congr 1
  omega

@[simp] lemma s_withPY : s (withPY u p' y) = s u := by
  apply BitVec.eq_of_getLsbD_eq
  intro n hn
  simp only [s, BitVec.getLsbD_extractLsb', hn, decide_true, Bool.true_and]
  exact getLsbD_withPY u p' y (by omega) (by omega)

@[simp] lemma x_withPY : (withPY u p' y).x = u.x := by
  apply BitVec.eq_of_getLsbD_eq
  intro n hn
  simp only [W36.x, BitVec.getLsbD_extractLsb', hn, decide_true, Bool.true_and]
  exact getLsbD_withPY u p' y (by omega) (by omega)

@[simp] lemma i_withPY : (withPY u p' y).i = u.i :=
  getLsbD_withPY u p' y (by omega) (by omega)

end Fields

namespace LocalPointer

variable {S : ℕ}

/-- The bytes of a word. -/
def perWord (S : ℕ) : ℕ := 36 / S

/-- The places of all words. -/
def places (S : ℕ) : ℕ := 2 ^ 18 * perWord S

/-- The place of the pointer in its word: 0 is before the first byte. -/
def place (q : LocalPointer S) : ℕ := (36 - (p q.u).toNat) / S

/-- The position from the place. -/
lemma place_mul (q : LocalPointer S) : q.place * S = 36 - (p q.u).toNat :=
  Nat.div_mul_cancel q.aligned

/-- A place is one of the word. -/
lemma place_le (q : LocalPointer S) : q.place ≤ perWord S :=
  Nat.div_le_div_right (Nat.sub_le _ _)

lemma perWord_pos (q : LocalPointer S) : 1 ≤ perWord S :=
  (Nat.one_le_div_iff q.size_pos).mpr q.size_le

/-- The bytes that are left of a word do not make another one. -/
lemma lt_perWord_succ_mul (q : LocalPointer S) : 36 < (perWord S + 1) * S := by
  have h := Nat.div_add_mod 36 S
  have hmod := Nat.mod_lt 36 (show 0 < S from q.size_pos)
  rw [perWord, Nat.add_mul, Nat.mul_comm]
  omega

/-- The pointer is at the last place of its word exactly if no byte follows. -/
lemma place_eq_perWord_iff (q : LocalPointer S) :
    q.place = perWord S ↔ (p q.u).toNat < S := by
  have hplace := q.place_mul
  have hp := q.position_le
  constructor
  · intro h
    have hlt := q.lt_perWord_succ_mul
    rw [Nat.add_mul, ← h] at hlt
    omega
  · intro h
    refine le_antisymm q.place_le ?_
    by_contra hlt
    have hmul : (q.place + 1) * S ≤ perWord S * S := Nat.mul_le_mul_right S (by omega)
    have hword : perWord S * S ≤ 36 := Nat.div_mul_le_self 36 S
    rw [Nat.add_mul] at hmul
    omega

/-! ### The next pointer -/

/-- The pointer that `inc` makes. -/
def next (q : LocalPointer S) : LocalPointer S where
  u := if (p q.u).toNat < S then withPY q.u (BitVec.ofNat 6 (36 - S)) (q.u.y + 1)
    else withPY q.u (p q.u - s q.u) q.u.y
  isLocal := by split <;> rw [getLsbD_withPY _ _ _ (by omega) (by omega)] <;> exact q.isLocal
  size := by split <;> rw [s_withPY] <;> exact q.size
  size_pos := q.size_pos
  size_le := q.size_le
  position_le := by
    have := q.size_le
    split
    · rw [p_withPY, BitVec.toNat_ofNat]
      omega
    · rw [p_withPY, BitVec.toNat_sub_of_le (by rw [BitVec.le_def, q.size]; omega)]
      have := q.position_le
      omega
  aligned := by
    have := q.size_le
    split
    · rw [p_withPY, BitVec.toNat_ofNat, Nat.mod_eq_of_lt (by omega), Nat.sub_sub_self q.size_le]
    · rw [p_withPY, BitVec.toNat_sub_of_le (by rw [BitVec.le_def, q.size]; omega), q.size]
      have hp := q.position_le
      rw [show 36 - ((p q.u).toNat - S) = 36 - (p q.u).toNat + S by omega]
      exact Nat.dvd_add q.aligned dvd_rfl

lemma next_u (q : LocalPointer S) :
    q.next.u = if (p q.u).toNat < S then withPY q.u (BitVec.ofNat 6 (36 - S)) (q.u.y + 1)
      else withPY q.u (p q.u - s q.u) q.u.y := rfl

/-- The position of the first byte of a word. -/
lemma ofInt_first (hle : S ≤ 36) : BitVec.ofInt 6 (36 - (S : ℤ)) = BitVec.ofNat 6 (36 - S) := by
  have hcast : 36 - (S : ℤ) = ((36 - S : ℕ) : ℤ) := by omega
  rw [hcast, BitVec.ofInt_natCast]

/-- `inc` makes the next pointer. -/
lemma inc_eq_next (q : LocalPointer S) : (BytePointer.L1 q.u).inc = .L1 q.next.u := by
  have hlt : p q.u < s q.u ↔ (p q.u).toNat < S := by rw [BitVec.lt_def, q.size]
  have hfirst : BitVec.ofInt 6 (36 - ((s q.u).toNat : ℤ)) = BitVec.ofNat 6 (36 - S) := by
    rw [q.size, ofInt_first q.size_le]
  simp only [BytePointer.inc, next_u, hlt, hfirst]
  split <;> rfl

/-- The next pointer has the index register and the indirect bit of this one. -/
lemma next_x (q : LocalPointer S) : q.next.u.x = q.u.x := by
  rw [next_u]
  split <;> exact x_withPY _ _ _

lemma next_i (q : LocalPointer S) : q.next.u.i = q.u.i := by
  rw [next_u]
  split <;> exact i_withPY _ _ _

/-- Behind the last byte of a word comes the first one of the next word. -/
lemma next_of_last {q : LocalPointer S} (h : q.place = perWord S) :
    q.next.u.y = q.u.y + 1 ∧ q.next.place = 1 := by
  have hlt := q.place_eq_perWord_iff.mp h
  have := q.size_le
  have hu : q.next.u = withPY q.u (BitVec.ofNat 6 (36 - S)) (q.u.y + 1) := if_pos hlt
  have hp : (p q.next.u).toNat = 36 - S := by
    rw [hu, p_withPY, BitVec.toNat_ofNat]
    omega
  refine ⟨by rw [hu, y_withPY], ?_⟩
  rw [place, hp, Nat.sub_sub_self q.size_le]
  exact Nat.div_self q.size_pos

/-- Behind the others comes the next byte of the word. -/
lemma next_of_not_last {q : LocalPointer S} (h : q.place ≠ perWord S) :
    q.next.u.y = q.u.y ∧ q.next.place = q.place + 1 := by
  have hle := not_lt.mp (mt q.place_eq_perWord_iff.mpr h)
  have := q.position_le
  have hlt : ¬ (p q.u).toNat < S := not_lt.mpr hle
  have hu : q.next.u = withPY q.u (p q.u - s q.u) q.u.y := if_neg hlt
  have hp : 36 - (p q.next.u).toNat = 36 - (p q.u).toNat + S := by
    rw [hu, p_withPY, BitVec.toNat_sub_of_le (by rw [BitVec.le_def, q.size]; exact hle), q.size]
    omega
  refine ⟨by rw [hu, y_withPY], ?_⟩
  rw [place, hp, Nat.add_div_right _ q.size_pos]
  rfl

/-- The next pointer is at a byte. -/
lemma one_le_place_next (q : LocalPointer S) : 1 ≤ q.next.place := by
  by_cases h : q.place = perWord S
  · exact (next_of_last h).2.ge
  · rw [(next_of_not_last h).2]
    exact Nat.le_add_left 1 _

/-- Its byte lies in the word. -/
lemma next_byte_fits (q : LocalPointer S) : (p q.next.u).toNat + S ≤ 36 := by
  have hmul : 1 * S ≤ q.next.place * S := Nat.mul_le_mul_right S q.one_le_place_next
  rw [q.next.place_mul] at hmul
  have := q.next.position_le
  have := q.size_pos
  omega

/-! ### The odometer -/

/-- The number of the place among all places. -/
def count (q : LocalPointer S) : ZMod (places S) :=
  ((q.u.y.toNat * perWord S + q.place : ℕ) : ZMod (places S))

/-- **The pointer steps by one place.** -/
lemma count_next (q : LocalPointer S) : q.next.count = q.count + 1 := by
  rw [count, count]
  by_cases h : q.place = perWord S
  · obtain ⟨hy, hplace⟩ := next_of_last h
    rw [hy, hplace, h]
    by_cases hwrap : q.u.y.toNat + 1 = 2 ^ 18
    · -- from the last word of the address space to the first
      have hzero : (q.u.y + 1).toNat = 0 := by
        rw [BitVec.toNat_add]
        change (q.u.y.toNat + 1) % 2 ^ 18 = 0
        rw [hwrap, Nat.mod_self]
      have hturn : q.u.y.toNat * perWord S + perWord S = places S := by
        rw [places, ← hwrap, Nat.add_mul, Nat.one_mul]
      rw [hzero, hturn, ZMod.natCast_self, Nat.zero_mul, Nat.zero_add, Nat.cast_one, zero_add]
    · have hnext : (q.u.y + 1).toNat = q.u.y.toNat + 1 := by
        have := q.u.y.isLt
        rw [BitVec.toNat_add]
        change (q.u.y.toNat + 1) % 2 ^ 18 = _
        omega
      rw [hnext, Nat.add_mul, Nat.one_mul, Nat.cast_add _ 1, Nat.cast_one]
  · obtain ⟨hy, hplace⟩ := next_of_not_last h
    rw [hy, hplace, ← Nat.add_assoc, Nat.cast_add _ 1, Nat.cast_one]

/-- A number of steps, by induction on it. -/
lemma count_iterate (q : LocalPointer S) (n : ℕ) : (next^[n] q).count = q.count + n := by
  induction n with
  | zero => rw [Function.iterate_zero_apply, Nat.cast_zero, add_zero]
  | succ n ih =>
      rw [Function.iterate_succ_apply', count_next, ih, Nat.cast_add, Nat.cast_one, add_assoc]

/-- **Only whole turns lead back.** -/
lemma iterate_eq_self {q : LocalPointer S} {n : ℕ} (h : next^[n] q = q) : places S ∣ n := by
  have hcount := q.count_iterate n
  rw [h, left_eq_add] at hcount
  exact (ZMod.natCast_eq_zero_iff n _).mp hcount

/-- The number of a place with a byte determines its word. -/
lemma y_of_count {q : LocalPointer S} (hplace : 1 ≤ q.place) {y : BitVec 18}
    (h : q.count = ((y.toNat * perWord S + 1 : ℕ) : ZMod (places S))) : q.u.y = y := by
  have hle := q.place_le
  have hpos := q.perWord_pos
  have hbound (z : BitVec 18) : z.toNat * perWord S + perWord S ≤ places S := by
    have hz : (z.toNat + 1) * perWord S ≤ 2 ^ 18 * perWord S := Nat.mul_le_mul_right _ z.isLt
    rw [Nat.add_mul, Nat.one_mul] at hz
    exact hz
  have hq := hbound q.u.y
  have hy := hbound y
  have hcount : q.u.y.toNat * perWord S + q.place = y.toNat * perWord S + 1 := by
    refine ((ZMod.natCast_eq_natCast_iff _ _ _).mp h).eq_of_abs_lt ?_
    rw [abs_lt]
    omega
  have hplace' : q.place = q.place - 1 + 1 := by omega
  rw [hplace', ← Nat.add_assoc, Nat.add_right_cancel_iff] at hcount
  have hdiv := congrArg (· / perWord S) hcount
  simp only [Nat.mul_comm _ (perWord S), Nat.mul_add_div hpos] at hdiv
  rw [Nat.div_eq_of_lt (by omega), Nat.mul_div_cancel_left _ hpos, Nat.add_zero] at hdiv
  exact BitVec.eq_of_toNat_eq hdiv

/-- **A whole turn reaches every word.** -/
lemma exists_y (q : LocalPointer S) (y : BitVec 18) :
    ∃ n, 1 ≤ n ∧ n ≤ places S ∧ (next^[n] q).u.y = y := by
  have : NeZero (places S) := ⟨by have := q.perWord_pos; rw [places]; omega⟩
  let target : ZMod (places S) := ((y.toNat * perWord S + 1 : ℕ) : ZMod (places S))
  let steps : ZMod (places S) := target - q.count - 1
  refine ⟨steps.val + 1, Nat.le_add_left 1 _, ZMod.val_lt steps, y_of_count ?_ ?_⟩
  · rw [Function.iterate_succ_apply']
    exact one_le_place_next _
  · rw [count_iterate, Nat.cast_add, ZMod.natCast_val, ZMod.cast_id, Nat.cast_one]
    change q.count + (target - q.count - 1 + 1) = target
    rw [sub_add_cancel, add_sub_cancel]

end LocalPointer

end KM10
