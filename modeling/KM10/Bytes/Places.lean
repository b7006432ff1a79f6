import KM10.Bytes.LocalPointer
import KM10.Library.Odometer
import Mathlib.Data.Set.Function

/-!
Steps of a byte pointer forward and back.

The pointer a number of places on is that of as many steps, and the only one at a place from which
they lead back.  From a position between the places the steps lead to the places of the next word.

* `LocalPointer.toPlace`: the pointer at a place of a word;
* `LocalPointer.moved`: the pointer a number of places on, or back;
* `iterate_moved`, `iterate_eq_iff`: the steps from there, and to a pointer;
* `LocalPointer.align`, `iterate_unaligned`: the steps from another position.
-/

namespace KM10

open BytePointer

/-! ### Pointers at a place -/

/-- The fields of a local pointer between its position and its address. -/
def frame (u : W36) : BitVec 12 := u.extractLsb' 18 12

lemma frame_withPY (u : W36) (p' : BitVec 6) (y : BitVec 18) : frame (withPY u p' y) = frame u := by
  apply BitVec.eq_of_getLsbD_eq
  intro n hn
  simp only [frame, BitVec.getLsbD_extractLsb', hn, decide_true, Bool.true_and]
  exact getLsbD_withPY u p' y (by omega) (by omega)

lemma withPY_withPY (u : W36) (p' p'' : BitVec 6) (y y' : BitVec 18) :
    withPY (withPY u p' y) p'' y' = withPY u p'' y' := by
  change p'' ++ frame (withPY u p' y) ++ y' = p'' ++ frame u ++ y'
  rw [frame_withPY]

/-- A pointer from its fields. -/
lemma eq_withPY {u v : W36} (h : frame u = frame v) : u = withPY v (p u) u.y := by
  have hself : u = withPY u (p u) u.y := by
    apply BitVec.eq_of_getLsbD_eq
    intro n hn
    simp only [withPY, p, W36.y, BitVec.getLsbD_append, BitVec.getLsbD_extractLsb']
    split
    case isTrue hlow => rw [decide_eq_true hlow, Bool.true_and, Nat.zero_add]
    case isFalse hlow =>
      split
      case isTrue hmid =>
        rw [decide_eq_true hmid, Bool.true_and]
        congr 1
        omega
      case isFalse hmid =>
        rw [decide_eq_true (by omega), Bool.true_and]
        congr 1
        omega
  have hwith : withPY u (p u) u.y = withPY v (p u) u.y := by
    change p u ++ frame u ++ u.y = p u ++ frame v ++ u.y
    rw [h]
  exact hself.trans hwith

namespace LocalPointer

variable {S : ℕ}

/-- Pointers with the same fields are equal if they are at the same place of the same word. -/
lemma eq_of_place {q r : LocalPointer S} (hframe : frame q.u = frame r.u)
    (hplace : q.place = r.place) (hy : q.u.y = r.u.y) : q = r := by
  have hposition : p q.u = p r.u := by
    have hq := q.place_mul
    have hr := r.place_mul
    have := q.position_le
    have := r.position_le
    rw [hplace] at hq
    exact BitVec.eq_of_toNat_eq (by omega)
  ext1
  rw [eq_withPY hframe, hposition, hy]
  exact (eq_withPY rfl).symm

/-- The pointer at a place of a word. -/
def toPlace (q : LocalPointer S) (j : ℕ) (hj : j ≤ perWord S) (y : BitVec 18) : LocalPointer S where
  u := withPY q.u (BitVec.ofNat 6 (36 - j * S)) y
  isLocal := by rw [getLsbD_withPY _ _ _ (by omega) (by omega)]; exact q.isLocal
  size := by rw [s_withPY]; exact q.size
  size_pos := q.size_pos
  size_le := q.size_le
  position_le := by
    rw [p_withPY, BitVec.toNat_ofNat]
    omega
  aligned := by
    have hle := (Nat.mul_le_mul_right S hj).trans (Nat.div_mul_le_self 36 S)
    rw [p_withPY, BitVec.toNat_ofNat, Nat.mod_eq_of_lt (by omega), Nat.sub_sub_self hle]
    exact Nat.dvd_mul_left S j

section ToPlace

variable (q : LocalPointer S) {j : ℕ} (hj : j ≤ perWord S) (y : BitVec 18)

lemma frame_toPlace : frame (q.toPlace j hj y).u = frame q.u := frame_withPY _ _ _

lemma y_toPlace : (q.toPlace j hj y).u.y = y := y_withPY _ _ _

lemma position_toPlace : (p (q.toPlace j hj y).u).toNat = 36 - j * S := by
  rw [toPlace, p_withPY, BitVec.toNat_ofNat, Nat.mod_eq_of_lt (by omega)]

lemma place_toPlace : (q.toPlace j hj y).place = j := by
  have hle := (Nat.mul_le_mul_right S hj).trans (Nat.div_mul_le_self 36 S)
  rw [place, position_toPlace, Nat.sub_sub_self hle, Nat.mul_div_cancel j q.size_pos]

end ToPlace

lemma frame_next (q : LocalPointer S) : frame q.next.u = frame q.u := by
  rw [next_u]
  split <;> exact frame_withPY _ _ _

/-! ### A number of places on -/

/-- The words to the pointer `n` places on. -/
def wordsTo (q : LocalPointer S) (n : ℤ) : ℤ := (q.place + n - 1) / perWord S

/-- Its place there. -/
def placeTo (q : LocalPointer S) (n : ℤ) : ℕ := ((q.place + n - 1) % perWord S).toNat + 1

lemma natCast_placeTo (q : LocalPointer S) (n : ℤ) :
    (q.placeTo n : ℤ) = (q.place + n - 1) % perWord S + 1 := by
  have hpos := q.perWord_pos
  rw [placeTo, Nat.cast_add, Int.toNat_of_nonneg (Int.emod_nonneg _ (by omega)), Nat.cast_one]

lemma one_le_placeTo (q : LocalPointer S) (n : ℤ) : 1 ≤ q.placeTo n := Nat.le_add_left 1 _

lemma placeTo_le (q : LocalPointer S) (n : ℤ) : q.placeTo n ≤ perWord S := by
  have hpos := q.perWord_pos
  have hcast := q.natCast_placeTo n
  have hlt := Int.emod_lt_of_pos (q.place + n - 1) (show 0 < (perWord S : ℤ) by omega)
  omega

/-- The pointer `n` places on, or back. -/
def moved (q : LocalPointer S) (n : ℤ) : LocalPointer S :=
  q.toPlace (q.placeTo n) (q.placeTo_le n) (q.u.y + BitVec.ofInt 18 (q.wordsTo n))

/-- No places on is the pointer itself. -/
lemma moved_zero {q : LocalPointer S} (h : 1 ≤ q.place) : q.moved 0 = q := by
  have hle := q.place_le
  obtain ⟨hwords, hplace⟩ : q.wordsTo 0 = 0 ∧ (q.place + 0 - 1 : ℤ) % perWord S = q.place - 1 :=
    Odometer.ediv_emod_of_eq (by omega) (by omega) (by omega)
  refine eq_of_place (frame_toPlace _ _ _) ?_ ?_
  · have hcast := q.natCast_placeTo 0
    rw [moved, place_toPlace]
    omega
  · rw [moved, y_toPlace, hwords]
    exact BitVec.add_zero _

/-- **One place on** is the next pointer. -/
lemma next_moved (q : LocalPointer S) (n : ℤ) : (q.moved n).next = q.moved (n + 1) := by
  have hpos : 0 < (perWord S : ℤ) := by exact_mod_cast q.perWord_pos
  have hcast := q.natCast_placeTo n
  have hcast' := q.natCast_placeTo (n + 1)
  have hreading : (q.place + (n + 1) - 1 : ℤ) = q.place + n - 1 + 1 := by omega
  have hframe : frame (q.moved n).next.u = frame (q.moved (n + 1)).u := by
    rw [frame_next]
    exact (frame_toPlace _ _ _).trans (frame_toPlace _ _ _).symm
  have hplace : (q.moved n).place = q.placeTo n := place_toPlace _ _ _
  rw [hreading] at hcast'
  by_cases h : (q.moved n).place = perWord S
  · obtain ⟨hy, hfirst⟩ := next_of_last h
    obtain ⟨hwords, hdigit⟩ := Odometer.tick_of_last hpos
      (show (q.place + n - 1 : ℤ) % perWord S = perWord S - 1 by omega)
    refine eq_of_place hframe ?_ ?_
    · rw [hfirst, moved, place_toPlace]
      omega
    · rw [hy, moved, y_toPlace, moved, y_toPlace, wordsTo, wordsTo, hreading, hwords,
        BitVec.ofInt_add, BitVec.add_assoc]
      rfl
  · obtain ⟨hy, hfirst⟩ := next_of_not_last h
    obtain ⟨hwords, hdigit⟩ := Odometer.tick_of_not_last hpos
      (show (q.place + n - 1 : ℤ) % perWord S ≠ perWord S - 1 by omega)
    refine eq_of_place hframe ?_ ?_
    · rw [hfirst, hplace, moved, place_toPlace]
      omega
    · rw [hy, moved, y_toPlace, moved, y_toPlace, wordsTo, wordsTo, hreading, hwords]

/-- A number of steps, by induction on it. -/
lemma iterate_moved (q : LocalPointer S) (n : ℤ) (k : ℕ) :
    next^[k] (q.moved n) = q.moved (n + k) := by
  induction k with
  | zero => rw [Function.iterate_zero_apply, Nat.cast_zero, Int.add_zero]
  | succ k ih => rw [Function.iterate_succ_apply', ih, next_moved, Nat.cast_succ, Int.add_assoc]

/-! ### Steps back -/

lemma one_le_place {q : LocalPointer S} (hfit : (p q.u).toNat + S ≤ 36) : 1 ≤ q.place := by
  have hpos := q.size_pos
  exact (Nat.one_le_div_iff hpos).mpr (by omega)

/-- Pointers at bytes with the same fields step to different pointers. -/
lemma injOn_next (f : BitVec 12) :
    Set.InjOn (next : LocalPointer S → LocalPointer S) {r | 1 ≤ r.place ∧ frame r.u = f} := by
  rintro q ⟨hq, hqf⟩ r ⟨hr, hrf⟩ h
  have hplace : q.next.place = r.next.place := by rw [h]
  have hy : q.next.u.y = r.next.u.y := by rw [h]
  by_cases hlast : q.place = perWord S
  · obtain ⟨hqy, hqp⟩ := next_of_last hlast
    by_cases hlast' : r.place = perWord S
    · obtain ⟨hry, hrp⟩ := next_of_last hlast'
      rw [hqy, hry] at hy
      exact eq_of_place (hqf.trans hrf.symm) (hlast.trans hlast'.symm)
        ((BitVec.add_left_inj 1).mp hy)
    · have hrp := (next_of_not_last hlast').2
      omega
  · obtain ⟨hqy, hqp⟩ := next_of_not_last hlast
    by_cases hlast' : r.place = perWord S
    · have hrp := (next_of_last hlast').2
      omega
    · obtain ⟨hry, hrp⟩ := next_of_not_last hlast'
      exact eq_of_place (hqf.trans hrf.symm) (by omega) (by rw [← hqy, ← hry, hy])

lemma mapsTo_next (f : BitVec 12) :
    Set.MapsTo (next : LocalPointer S → LocalPointer S) {r | 1 ≤ r.place ∧ frame r.u = f}
      {r | 1 ≤ r.place ∧ frame r.u = f} :=
  fun r ⟨_, hrf⟩ => ⟨r.one_le_place_next, r.frame_next.trans hrf⟩

/-- **The pointer from which steps lead back** is that a number of places back. -/
lemma iterate_eq_iff {q r : LocalPointer S} (hq : 1 ≤ q.place) (hr : 1 ≤ r.place)
    (hframe : frame r.u = frame q.u) (k : ℕ) : next^[k] r = q ↔ r = q.moved (-k) := by
  have hback : next^[k] (q.moved (-k)) = q := by
    rw [iterate_moved, Int.add_left_neg, moved_zero hq]
  constructor
  · intro h
    refine (injOn_next (frame q.u)).iterate (mapsTo_next _) k ⟨hr, hframe⟩ ⟨?_, ?_⟩
      (h.trans hback.symm)
    · exact (q.one_le_placeTo _).trans_eq (place_toPlace _ _ _).symm
    · exact frame_toPlace _ _ _
  · rintro rfl
    exact hback

/-- The steps of `inc`. -/
lemma inc_iterate (q : LocalPointer S) (k : ℕ) :
    BytePointer.inc^[k] (.L1 q.u) = .L1 (next^[k] q).u :=
  (Function.Semiconj.iterate_right (f := fun r : LocalPointer S => BytePointer.L1 r.u)
    (fun r => (inc_eq_next r).symm) k q).symm

/-! ### Steps from other positions -/

section Unaligned

variable (q : LocalPointer S) (p' : BitVec 6) (y : BitVec 18)

lemma inc_withPY_of_lt (h : p'.toNat < S) :
    (BytePointer.L1 (withPY q.u p' y)).inc =
      .L1 (withPY q.u (BitVec.ofNat 6 (36 - S)) (y + 1)) := by
  have hlt : p (withPY q.u p' y) < s (withPY q.u p' y) := by
    rw [p_withPY, s_withPY, BitVec.lt_def, q.size]
    exact h
  rw [BytePointer.inc, if_pos hlt, s_withPY, q.size, ofInt_first q.size_le, y_withPY,
    withPY_withPY]

lemma inc_withPY_of_le (h : S ≤ p'.toNat) :
    (BytePointer.L1 (withPY q.u p' y)).inc =
      .L1 (withPY q.u (BitVec.ofNat 6 (p'.toNat - S)) y) := by
  have hle : ¬ p (withPY q.u p' y) < s (withPY q.u p' y) := by
    rw [p_withPY, s_withPY, BitVec.lt_def, q.size]
    exact not_lt.mpr h
  have hsub : p' - s q.u = BitVec.ofNat 6 (p'.toNat - S) := by
    apply BitVec.eq_of_toNat_eq
    rw [BitVec.toNat_sub_of_le (by rw [BitVec.le_def, q.size]; exact h), q.size,
      BitVec.toNat_ofNat, Nat.mod_eq_of_lt (by omega)]
  rw [BytePointer.inc, if_neg hle, p_withPY, s_withPY, hsub, y_withPY, withPY_withPY]

/-- Steps within a word, by induction on their number. -/
lemma iterate_within {k : ℕ} (h : k * S ≤ p'.toNat) :
    BytePointer.inc^[k] (.L1 (withPY q.u p' y)) =
      .L1 (withPY q.u (BitVec.ofNat 6 (p'.toNat - k * S)) y) := by
  induction k with
  | zero => rw [Function.iterate_zero_apply, Nat.zero_mul, Nat.sub_zero, BitVec.ofNat_toNat,
      BitVec.setWidth_eq]
  | succ k ih =>
      rw [Nat.succ_mul] at h
      have htoNat : (BitVec.ofNat 6 (p'.toNat - k * S)).toNat = p'.toNat - k * S := by
        rw [BitVec.toNat_ofNat, Nat.mod_eq_of_lt (by omega)]
      rw [Function.iterate_succ_apply', ih (by omega), inc_withPY_of_le _ _ _ (by omega), htoNat,
        Nat.succ_mul, Nat.sub_sub]

/-- Steps to the next word. -/
lemma iterate_past :
    BytePointer.inc^[p'.toNat / S + 1] (.L1 (withPY q.u p' y)) =
      .L1 (withPY q.u (BitVec.ofNat 6 (36 - S)) (y + 1)) := by
  have hdiv := Nat.div_add_mod p'.toNat S
  have hmod := Nat.mod_lt p'.toNat (show 0 < S from q.size_pos)
  rw [Nat.mul_comm] at hdiv
  rw [Function.iterate_succ_apply', iterate_within q p' y (by omega),
    inc_withPY_of_lt _ _ _ (by rw [BitVec.toNat_ofNat, Nat.mod_eq_of_lt (by omega)]; omega)]

/-- The pointer with as many bytes behind it at a place. -/
def align : LocalPointer S := q.toPlace (perWord S - p'.toNat / S) (Nat.sub_le _ _) y

/-- The bytes behind a place. -/
lemma position_div {j : ℕ} (hS : 1 ≤ S) (hj : j ≤ perWord S) :
    (36 - j * S) / S = perWord S - j := by
  have hword : perWord S * S + 36 % S = 36 := by
    rw [perWord, Nat.mul_comm]
    exact Nat.div_add_mod 36 S
  have hsub : (perWord S - j) * S = perWord S * S - j * S := Nat.sub_mul _ _ _
  have hmul : j * S ≤ perWord S * S := Nat.mul_le_mul_right S hj
  have heq : 36 - j * S = 36 % S + (perWord S - j) * S := by omega
  rw [heq, Nat.add_mul_div_right _ _ hS, Nat.div_eq_of_lt (Nat.mod_lt 36 hS), Nat.zero_add]

variable (hfit : p'.toNat + S ≤ 36)
include q hfit

lemma div_lt_perWord : p'.toNat / S < perWord S := by
  have hle := Nat.div_le_div_right (c := S) hfit
  rwa [Nat.add_div_right _ q.size_pos] at hle

lemma align_position : (p (q.align p' y).u).toNat / S = p'.toNat / S := by
  have hlt := q.div_lt_perWord p' hfit
  rw [align, position_toPlace, position_div q.size_pos (Nat.sub_le _ _), Nat.sub_sub_self hlt.le]

/-- A position at a place is that of the place with as many bytes behind it. -/
lemma position_of_dvd (hdvd : S ∣ 36 - p'.toNat) :
    BitVec.ofNat 6 (36 - (perWord S - p'.toNat / S) * S) = p' := by
  obtain ⟨j, hj⟩ := hdvd
  rw [Nat.mul_comm] at hj
  have hjle : j ≤ perWord S := (Nat.le_div_iff_mul_le q.size_pos).mpr (hj ▸ Nat.sub_le _ _)
  have hdiv : p'.toNat / S = perWord S - j := by
    rw [← position_div q.size_pos hjle, ← hj, Nat.sub_sub_self (by omega)]
  apply BitVec.eq_of_toNat_eq
  rw [BitVec.toNat_ofNat, hdiv, Nat.sub_sub_self hjle, ← hj]
  omega

/-- At a place it is the pointer itself. -/
lemma align_eq (hdvd : S ∣ 36 - p'.toNat) : (q.align p' y).u = withPY q.u p' y :=
  congrArg (fun position => withPY q.u position y) (q.position_of_dvd p' hfit hdvd)

/-- Past the end of the word it does not matter where the pointer was. -/
lemma iterate_align {k : ℕ} (h : S ∣ 36 - p'.toNat ∨ p'.toNat / S < k) :
    BytePointer.inc^[k] (.L1 (withPY q.u p' y)) = BytePointer.inc^[k] (.L1 (q.align p' y).u) := by
  rcases h with hdvd | hlt
  · rw [align_eq q p' y hfit hdvd]
  · obtain ⟨m, rfl⟩ := Nat.exists_eq_add_of_lt hlt
    have hsteps : p'.toNat / S + m + 1 = m + (p'.toNat / S + 1) := by omega
    have halign := eq_withPY (frame_toPlace q (Nat.sub_le (perWord S) (p'.toNat / S)) y)
    rw [y_toPlace] at halign
    have hpast := q.iterate_past (p (q.align p' y).u) y
    rw [align_position q p' y hfit] at hpast
    rw [hsteps, Function.iterate_add_apply _ m, Function.iterate_add_apply _ m, iterate_past]
    exact congrArg _ (hpast.symm.trans (congrArg (fun u => inc^[_] (.L1 u)) halign.symm))

/-- **Steps back to a pointer** start from that a number of places back, or past the end of a word
from another position with as many bytes behind it. -/
lemma iterate_unaligned (hq : 1 ≤ q.place) (k : ℕ) :
    BytePointer.inc^[k] (.L1 (withPY q.u p' y)) = .L1 q.u ↔
      q.align p' y = q.moved (-k) ∧ (S ∣ 36 - p'.toNat ∨ p'.toNat / S < k) := by
  have hlt := q.div_lt_perWord p' hfit
  have hplace : 1 ≤ (q.align p' y).place := by
    rw [align, place_toPlace]
    omega
  by_cases h : S ∣ 36 - p'.toNat ∨ p'.toNat / S < k
  · rw [iterate_align q p' y hfit h, inc_iterate, and_iff_left h, BytePointer.L1.injEq,
      ← LocalPointer.ext_iff, iterate_eq_iff hq hplace (frame_toPlace _ _ _)]
  · -- within a word the steps keep the position off the places
    rw [iff_false_right (mt And.right h)]
    rw [not_or, not_lt] at h
    intro heq
    have hsteps : k * S ≤ p'.toNat := (Nat.le_div_iff_mul_le q.size_pos).mp h.2
    rw [iterate_within q p' y hsteps, BytePointer.L1.injEq] at heq
    have hposition := congrArg (fun u => (p u).toNat) heq
    simp only [p_withPY, BitVec.toNat_ofNat] at hposition
    rw [Nat.mod_eq_of_lt (by omega)] at hposition
    refine h.1 ((Nat.dvd_add_left (Nat.dvd_mul_left S k)).mp ?_)
    rw [show 36 - p'.toNat + k * S = 36 - (p q.u).toNat by omega]
    exact q.aligned

end Unaligned

end LocalPointer

end KM10
