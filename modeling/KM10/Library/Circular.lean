import Mathlib.Data.List.Rotate
import Mathlib.Tactic.Common

/-!
A list written round and round into `N` slots.

Element `i` of the list goes into slot `i % N`, so that the slots hold the last `N` elements.

* `Holds N xs slot`: they do; `holds_nil`, `Holds.concat`: by writing one element after another;
* `Holds.map_range`: reading `k` slots from the right one on gives the last `k` elements;
* `Holds.map_slots_eq_iff`: reading all slots in their own order gives the last `N` elements
  exactly when these are the same when rotated.
-/

namespace Circular

variable {α : Type*} {N : ℕ} {xs : List α} {slot : ℕ → α}

/-- The slots hold the last `N` elements of the list. -/
def Holds (N : ℕ) (xs : List α) (slot : ℕ → α) : Prop :=
  ∀ i < xs.length, xs.length ≤ i + N → xs[i]? = some (slot (i % N))

lemma holds_nil (slot : ℕ → α) : Holds N [] slot := fun _ h => absurd h (Nat.not_lt_zero _)

/-- Numbers less than `N` apart have different slots. -/
lemma mod_ne_mod {i j : ℕ} (hlt : i < j) (hnear : j < i + N) : i % N ≠ j % N := by
  intro h
  have hzero : (j - i) % N = 0 := Nat.sub_mod_eq_zero_of_mod_eq h.symm
  rw [Nat.mod_eq_of_lt (by omega)] at hzero
  omega

/-- Writing one more element into its slot. -/
lemma Holds.concat (h : Holds N xs slot) {x : α} {slot' : ℕ → α}
    (hnew : slot' (xs.length % N) = x)
    (hold : ∀ i < N, i ≠ xs.length % N → slot' i = slot i) : Holds N (xs ++ [x]) slot' := by
  intro i hi hnear
  rw [List.length_append, List.length_singleton] at hi hnear
  rcases Nat.lt_or_eq_of_le (Nat.le_of_lt_succ hi) with hlt | rfl
  · have hslot := hold (i % N) (Nat.mod_lt i (by omega)) (mod_ne_mod hlt (by omega))
    rw [List.getElem?_append_left hlt, h i hlt (by omega), hslot]
  · rw [List.getElem?_concat_length, hnew]

/-- **The last `k` elements**, read from the slot of the first of them on. -/
lemma Holds.map_range (h : Holds N xs slot) {k : ℕ} (hN : k ≤ N) (hlen : k ≤ xs.length) :
    (List.range k).map (fun j => slot ((xs.length - k + j) % N)) = xs.drop (xs.length - k) := by
  apply List.ext_getElem?
  intro j
  rw [List.getElem?_map, List.getElem?_drop]
  by_cases hj : j < k
  · rw [List.getElem?_range hj, h _ (by omega) (by omega)]
    rfl
  · have hnone : xs[xs.length - k + j]? = none := List.getElem?_eq_none (by omega)
    have hrange : (List.range k)[j]? = none :=
      List.getElem?_eq_none (by rw [List.length_range]; omega)
    rw [hnone, hrange]
    rfl

/-- The slots in their own order become the last `N` elements by a rotation. -/
lemma Holds.rotate_slots (h : Holds N xs slot) (hlen : N ≤ xs.length) :
    ((List.range N).map slot).rotate (xs.length % N) = xs.drop (xs.length - N) := by
  rw [← h.map_range le_rfl hlen]
  apply List.ext_getElem?
  intro j
  by_cases hj : j < N
  · have hpos : 0 < N := Nat.zero_lt_of_lt hj
    have hslot : (j + xs.length % N) % N = (xs.length - N + j) % N := by
      rw [Nat.add_mod_mod, ← Nat.add_mod_right (xs.length - N + j) N]
      congr 1
      omega
    rw [List.getElem?_rotate (by rwa [List.length_map, List.length_range]), List.getElem?_map,
      List.getElem?_map, List.length_map, List.length_range,
      List.getElem?_range (Nat.mod_lt _ hpos), List.getElem?_range hj, hslot]
    rfl
  · have hleft : (((List.range N).map slot).rotate (xs.length % N)).length ≤ j := by
      rw [List.length_rotate, List.length_map, List.length_range]
      exact not_lt.mp hj
    rw [List.getElem?_eq_none hleft, List.getElem?_map,
      List.getElem?_eq_none (by rw [List.length_range]; exact not_lt.mp hj)]
    rfl

/-- **All slots in their own order** are the last `N` elements exactly if these are the same
when rotated. -/
lemma Holds.map_slots_eq_iff (h : Holds N xs slot) (hlen : N ≤ xs.length) :
    (List.range N).map slot = xs.drop (xs.length - N) ↔
      (xs.drop (xs.length - N)).rotate (xs.length % N) = xs.drop (xs.length - N) := by
  have hrotate := h.rotate_slots hlen
  constructor
  · intro heq
    rw [← heq, hrotate, heq]
  · intro heq
    exact (List.rotate_injective (xs.length % N) (heq.trans hrotate.symm)).symm

end Circular
