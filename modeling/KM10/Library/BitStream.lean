import Mathlib.Data.List.Basic
import Mathlib.Data.Nat.Notation
import Mathlib.Tactic.Common

/-!
Words of one width as one stream of bits, each from its left end.

* `bits`, `stream`: the bits of a word, and of the words of a list in a row;
* `take_drop_stream`: the words as pieces of the stream;
* `stream_injective`, `exists_stream`: every stream of the right length is that of one list;
* `existsUnique_of_stream_eq`: regrouping words into words of another width is a bijection.
-/

namespace BitStream

variable {v w : ℕ}

/-- The bits of a word from its left end. -/
def bits (x : BitVec w) : List Bool := (List.range w).map x.getMsbD

/-- The bits of the words in a row. -/
def stream (xs : List (BitVec w)) : List Bool := xs.flatMap bits

@[simp] lemma length_bits (x : BitVec w) : (bits x).length = w := by
  rw [bits, List.length_map, List.length_range]

@[simp] lemma stream_nil : stream ([] : List (BitVec w)) = [] := rfl

@[simp] lemma stream_cons (x : BitVec w) (xs : List (BitVec w)) :
    stream (x :: xs) = bits x ++ stream xs := rfl

/-- Two words side by side. -/
lemma bits_append (x : BitVec v) (y : BitVec w) : bits (x ++ y) = bits x ++ bits y := by
  rw [bits, List.range_add, List.map_append, List.map_map]
  congr 1
  · refine List.map_congr_left fun j hj => ?_
    rw [BitVec.getMsbD_append, if_neg (Nat.not_le.mpr (List.mem_range.mp hj))]
  · refine List.map_congr_left fun j _ => ?_
    rw [Function.comp_apply, BitVec.getMsbD_append, if_pos (Nat.le_add_right v j),
      Nat.add_sub_cancel_left]

lemma bits_injective : Function.Injective (bits : BitVec w → List Bool) := by
  intro x y h
  refine BitVec.eq_of_getMsbD_eq fun j hj => ?_
  exact List.map_inj_left.mp h j (List.mem_range.mpr hj)

/-- Any bits are those of a word. -/
lemma exists_bits {bs : List Bool} (h : bs.length = w) : ∃ x : BitVec w, bits x = bs := by
  subst h
  refine ⟨BitVec.ofBoolListBE bs, List.ext_getElem (length_bits _) fun j _ hj => ?_⟩
  simp only [bits, List.getElem_map, List.getElem_range, BitVec.getMsbD_ofBoolListBE]
  exact (List.getElem_eq_getD false).symm

lemma length_stream (xs : List (BitVec w)) : (stream xs).length = xs.length * w := by
  induction xs with
  | nil => rw [stream_nil, List.length_nil, List.length_nil, Nat.zero_mul]
  | cons x xs ih =>
      rw [stream_cons, List.length_append, length_bits, ih, List.length_cons, Nat.succ_mul,
        Nat.add_comm]

/-- **The words** are the pieces of the stream. -/
lemma take_drop_stream (xs : List (BitVec w)) {i : ℕ} (hi : i < xs.length) :
    ((stream xs).drop (i * w)).take w = bits (xs.getD i 0) := by
  induction xs generalizing i with
  | nil => exact absurd hi (Nat.not_lt_zero i)
  | cons x xs ih =>
      cases i with
      | zero =>
          rw [Nat.zero_mul, List.drop_zero, stream_cons]
          exact List.take_left' (length_bits x)
      | succ i =>
          have hdrop : (bits x ++ stream xs).drop ((i + 1) * w) = (stream xs).drop (i * w) := by
            rw [Nat.succ_mul, Nat.add_comm, ← List.drop_drop]
            exact congrArg (List.drop (i * w)) (List.drop_left' (length_bits x))
          rw [stream_cons, hdrop]
          exact ih (Nat.lt_of_succ_lt_succ hi)

/-- Words that are not empty are determined by their stream. -/
lemma stream_injective (hw : 0 < w) :
    Function.Injective (stream : List (BitVec w) → List Bool) := by
  intro xs
  induction xs with
  | nil =>
      intro ys h
      have hlength := length_stream ys
      rw [← h, stream_nil, List.length_nil] at hlength
      have hzero : ys.length = 0 := (Nat.mul_eq_zero.mp hlength.symm).resolve_right (by omega)
      exact (List.length_eq_zero_iff.mp hzero).symm
  | cons x xs ih =>
      intro ys h
      cases ys with
      | nil =>
          have hlength := congrArg List.length h
          rw [stream_cons, List.length_append, length_bits, stream_nil, List.length_nil] at hlength
          omega
      | cons y ys =>
          rw [stream_cons, stream_cons] at h
          obtain ⟨hx, hxs⟩ := List.append_inj h ((length_bits x).trans (length_bits y).symm)
          rw [bits_injective hx, ih hxs]

/-- A stream of the right length is that of some words. -/
lemma exists_stream (k : ℕ) {bs : List Bool} (h : bs.length = k * w) :
    ∃ xs : List (BitVec w), xs.length = k ∧ stream xs = bs := by
  induction k generalizing bs with
  | zero =>
      rw [Nat.zero_mul, List.length_eq_zero_iff] at h
      exact ⟨[], rfl, h.symm⟩
  | succ k ih =>
      rw [Nat.succ_mul] at h
      have htake : (bs.take w).length = w := by
        rw [List.length_take]
        omega
      have hdrop : (bs.drop w).length = k * w := by
        rw [List.length_drop]
        omega
      obtain ⟨x, hx⟩ := exists_bits htake
      obtain ⟨xs, hlength, hxs⟩ := ih hdrop
      refine ⟨x :: xs, by rw [List.length_cons, hlength], ?_⟩
      rw [stream_cons, hx, hxs, List.take_append_drop]

/-- **Regrouping** lists of `m` words into lists of `k` words of another width, bits unchanged,
takes every list of `k` words once. -/
theorem existsUnique_of_stream_eq {m k : ℕ} (hv : 0 < v) (hw : 0 < w) (hmk : m * v = k * w)
    {f : List (BitVec v) → List (BitVec w)} (hf : ∀ xs, xs.length = m → stream (f xs) = stream xs)
    {ys : List (BitVec w)} (hys : ys.length = k) : ∃! xs, xs.length = m ∧ f xs = ys := by
  have hlength := length_stream ys
  rw [hys, ← hmk] at hlength
  obtain ⟨xs, hxs, hstream⟩ := exists_stream m hlength
  refine ⟨xs, ⟨hxs, stream_injective hw ((hf xs hxs).trans hstream)⟩, ?_⟩
  rintro xs' ⟨hxs', rfl⟩
  exact stream_injective hv ((hf xs' hxs').symm.trans hstream.symm)

end BitStream
