import KM10.Library.Circular
import KM10.Machine.Word
import Mathlib.Logic.Function.Basic

/-!
The PC history of the debugger (`Debugger::RingBuffer`).

* `RingBuffer`: the buffer with its operations `add`, `peek` and `mostRecent`;
* `Records`: what a buffer keeps of the elements added to it, and `records_adds`, that it does;
* `Records.mostRecent_of_le`, `Records.mostRecent_of_length_le`,
  `Records.mostRecent_of_le_length`: requests for no more than the buffer has, and for more than
  it has when it has not wrapped and when it is full;
* `Records.peek`: the last element;
* `keepsHistory_iff`: when `peek` and `mostRecent` return what was added.
-/

namespace KM10

/-- `Debugger::pcHistorySize`. -/
def pcHistorySize : ℕ := 1024

lemma pcHistorySize_pos : 0 < pcHistorySize := Nat.succ_pos 1023

/-- `Debugger::RingBuffer`: the buffer, the index of the next store, and whether all of the
buffer has been stored to. -/
structure RingBuffer where
  buffer : Fin pcHistorySize → W36
  head : Fin pcHistorySize
  full : Bool

namespace RingBuffer

/-- An index modulo the size of the buffer. -/
def index (i : ℕ) : Fin pcHistorySize := ⟨i % pcHistorySize, Nat.mod_lt i pcHistorySize_pos⟩

/-- `RingBuffer()`: the words of the buffer are zero by their own constructor. -/
def empty : RingBuffer := ⟨fun _ => 0, index 0, false⟩

/-- `add`. -/
def add (r : RingBuffer) (element : W36) : RingBuffer :=
  let head := index (r.head + 1)
  { buffer := Function.update r.buffer r.head element
    head := head
    full := if head.val = 0 then true else r.full }

/-- `peek`. -/
def peek (r : RingBuffer) : Option W36 :=
  if r.head.val = 0 ∧ r.full = false then none
  else
    let lastIndex := if r.head.val = 0 then pcHistorySize - 1 else r.head - 1
    some (r.buffer (index lastIndex))

/-- `mostRecent`. -/
def mostRecent (r : RingBuffer) (n : ℕ) : List W36 :=
  let count := if r.full then pcHistorySize else r.head
  let nToReturn := min n count
  let start := if n ≤ count then (r.head + pcHistorySize - nToReturn) % pcHistorySize else 0
  (List.range nToReturn).map fun i => r.buffer (index (start + i))

/-- The buffer after a sequence of `add`. -/
def adds (xs : List W36) : RingBuffer := xs.foldl add empty

/-! ### What the buffer keeps -/

/-- The buffer by the numbers of its slots. -/
def slot (r : RingBuffer) (i : ℕ) : W36 := r.buffer (index i)

lemma slot_mod (r : RingBuffer) (i : ℕ) : r.slot (i % pcHistorySize) = r.slot i := by
  rw [slot, index]
  exact congrArg r.buffer (Fin.ext (Nat.mod_mod i pcHistorySize))

/-- The buffer has recorded a list: its slots hold the end of it, the next store is where the
next element belongs, and the flag tells whether every slot has an element. -/
structure Records (r : RingBuffer) (xs : List W36) : Prop where
  slots : Circular.Holds pcHistorySize xs r.slot
  head : r.head.val = xs.length % pcHistorySize
  full : r.full = true ↔ pcHistorySize ≤ xs.length

lemma records_empty : empty.Records [] :=
  ⟨Circular.holds_nil _, rfl, iff_of_false Bool.false_ne_true (Nat.not_le.mpr pcHistorySize_pos)⟩

/-- One more element. -/
lemma Records.add {r : RingBuffer} {xs : List W36} (h : r.Records xs) (x : W36) :
    (r.add x).Records (xs ++ [x]) := by
  have hpos := pcHistorySize_pos
  have hhead : (r.add x).head.val = (xs ++ [x]).length % pcHistorySize := by
    change (r.head.val + 1) % pcHistorySize = _
    rw [h.head, Nat.mod_add_mod, List.length_append, List.length_singleton]
  refine ⟨h.slots.concat ?_ fun i hi hne => ?_, hhead, ?_⟩
  · have hindex : index (xs.length % pcHistorySize) = r.head :=
      Fin.ext ((Nat.mod_mod _ _).trans h.head.symm)
    rw [slot, hindex]
    exact Function.update_self _ _ _
  · have hindex : index i ≠ r.head := fun heq => hne <| by
      rw [← h.head, ← heq]
      exact (Nat.mod_eq_of_lt hi).symm
    exact Function.update_of_ne hindex _ _
  · change ((if (RingBuffer.add r x).head.val = 0 then true else r.full) = true) ↔ _
    rw [hhead, List.length_append, List.length_singleton]
    split
    case isTrue hzero =>
      exact iff_of_true rfl (Nat.le_of_dvd (Nat.succ_pos _) (Nat.dvd_of_mod_eq_zero hzero))
    case isFalse hne =>
      have hsize : xs.length + 1 ≠ pcHistorySize := fun heq => hne (heq ▸ Nat.mod_self _)
      rw [h.full]
      omega

/-- **The buffer keeps** what was added to it. -/
lemma records_adds (xs : List W36) : (adds xs).Records xs := by
  induction xs using List.reverseRecOn with
  | nil => exact records_empty
  | append_singleton xs x ih =>
      rw [adds, List.foldl_append]
      exact ih.add x

/-- The number of elements in the buffer. -/
lemma Records.count {r : RingBuffer} {xs : List W36} (h : r.Records xs) :
    (if r.full then pcHistorySize else r.head.val) = min xs.length pcHistorySize := by
  split
  case isTrue hfull => exact (min_eq_right (h.full.mp hfull)).symm
  case isFalse hpart =>
    have hlt : xs.length < pcHistorySize := not_le.mp fun hle => hpart (h.full.mpr hle)
    rw [h.head, Nat.mod_eq_of_lt hlt, min_eq_left hlt.le]

/-- Slots are numbered round and round. -/
lemma slot_congr (r : RingBuffer) {i j : ℕ} (h : i % pcHistorySize = j % pcHistorySize) :
    r.slot i = r.slot j := by
  rw [← slot_mod, h, slot_mod]

/-- **A request for no more** than the buffer has. -/
lemma Records.mostRecent_of_le {r : RingBuffer} {xs : List W36} (h : r.Records xs) {n : ℕ}
    (hn : n ≤ min xs.length pcHistorySize) : r.mostRecent n = xs.drop (xs.length - n) := by
  obtain ⟨hlen, hsize⟩ := Nat.le_min.mp hn
  rw [mostRecent, h.count, min_eq_left hn, if_pos hn, h.head, ← h.slots.map_range hsize hlen]
  refine List.map_congr_left fun i _ => r.slot_congr ?_
  -- the start index and the number of the first element differ by multiples of the size
  rw [pcHistorySize] at hsize ⊢
  omega

/-- A request for more gets the slots in their own order. -/
lemma Records.mostRecent_of_lt {r : RingBuffer} {xs : List W36} (h : r.Records xs) {n : ℕ}
    (hn : min xs.length pcHistorySize < n) :
    r.mostRecent n = (List.range (min xs.length pcHistorySize)).map r.slot := by
  rw [mostRecent, h.count, min_eq_right hn.le, if_neg hn.not_ge]
  exact List.map_congr_left fun i _ => congrArg r.slot (Nat.zero_add i)

/-- **A request for more** than a buffer has that never wrapped gets all of it. -/
lemma Records.mostRecent_of_length_le {r : RingBuffer} {xs : List W36} (h : r.Records xs)
    {n : ℕ} (hn : min xs.length pcHistorySize < n) (hlen : xs.length ≤ pcHistorySize) :
    r.mostRecent n = xs := by
  have hrange := h.slots.map_range hlen le_rfl
  rw [h.mostRecent_of_lt hn, min_eq_left hlen]
  rw [Nat.sub_self, List.drop_zero] at hrange
  refine Eq.trans (List.map_congr_left fun i _ => r.slot_congr ?_) hrange
  rw [Nat.zero_add, Nat.mod_mod]

/-- **A request for more** than the capacity of a full buffer gets the right order only if it
is the order of the slots. -/
lemma Records.mostRecent_of_le_length {r : RingBuffer} {xs : List W36} (h : r.Records xs)
    {n : ℕ} (hn : min xs.length pcHistorySize < n) (hlen : pcHistorySize ≤ xs.length) :
    r.mostRecent n = xs.drop (xs.length - pcHistorySize) ↔
      (xs.drop (xs.length - pcHistorySize)).rotate (xs.length % pcHistorySize) =
        xs.drop (xs.length - pcHistorySize) := by
  rw [h.mostRecent_of_lt hn, min_eq_right hlen]
  exact h.slots.map_slots_eq_iff hlen

/-- **`peek`** returns the last element. -/
lemma Records.peek {r : RingBuffer} {xs : List W36} (h : r.Records xs) :
    r.peek = xs.getLast? := by
  rw [RingBuffer.peek, List.getLast?_eq_getElem?]
  by_cases hlen : xs.length = 0
  · have hnot : r.full = false := by
      rw [← Bool.not_eq_true, h.full, hlen]
      exact not_le.mpr pcHistorySize_pos
    rw [if_pos ⟨by rw [h.head, hlen, Nat.zero_mod], hnot⟩, List.getElem?_eq_none (by omega)]
  · have hfull : ¬ (r.head.val = 0 ∧ r.full = false) := by
      rintro ⟨hzero, hnot⟩
      rw [← Bool.not_eq_true, h.full, not_le] at hnot
      rw [h.head, Nat.mod_eq_of_lt hnot] at hzero
      exact hlen hzero
    have hpos := pcHistorySize_pos
    rw [if_neg hfull, h.slots _ (by omega) (by omega), h.head]
    refine congrArg some (r.slot_congr ?_)
    rw [pcHistorySize]
    split <;> omega

/-! ### The history -/

/-- The buffer returns the last elements in order, as many as there are and as were asked
for, and the last one alone. -/
structure KeepsHistory (xs : List W36) (n : ℕ) : Prop where
  mostRecent : (adds xs).mostRecent n =
    xs.drop (xs.length - min n (min xs.length pcHistorySize))
  peek : (adds xs).peek = xs.getLast?

/-- The request is not above the capacity, or the buffer has not wrapped, or the elements in it
are the same in the order of the slots. -/
def InOrder (xs : List W36) (n : ℕ) : Prop :=
  n ≤ pcHistorySize ∨ xs.length ≤ pcHistorySize ∨
    (xs.drop (xs.length - pcHistorySize)).rotate (xs.length % pcHistorySize) =
      xs.drop (xs.length - pcHistorySize)

/-- **The PC history**: for every sequence of additions and every request, `peek` and
`mostRecent` return what was added last exactly when the request is in order. -/
theorem keepsHistory_iff (xs : List W36) (n : ℕ) : KeepsHistory xs n ↔ InOrder xs n := by
  have h := records_adds xs
  suffices hiff : (adds xs).mostRecent n =
      xs.drop (xs.length - min n (min xs.length pcHistorySize)) ↔ InOrder xs n from
    ⟨fun hk => hiff.mp hk.mostRecent, fun ho => ⟨hiff.mpr ho, h.peek⟩⟩
  rcases Nat.lt_or_ge (min xs.length pcHistorySize) n with hn | hn
  · rw [min_eq_right hn.le]
    rcases Nat.le_total xs.length pcHistorySize with hlen | hlen
    · rw [h.mostRecent_of_length_le hn hlen, min_eq_left hlen, Nat.sub_self, List.drop_zero]
      exact iff_of_true rfl (.inr (.inl hlen))
    · rw [min_eq_right hlen] at hn ⊢
      rw [h.mostRecent_of_le_length (by rwa [min_eq_right hlen]) hlen, InOrder,
        or_iff_right hn.not_ge]
      refine ⟨.inr, fun ho => ho.elim (fun hle => ?_) id⟩
      -- a buffer that is just full has not been rotated
      rw [le_antisymm hle hlen, Nat.mod_self, List.rotate_zero]
  · rw [min_eq_left hn]
    exact iff_of_true (h.mostRecent_of_le hn) (.inl (hn.trans (min_le_right _ _)))

/-- 1024 zeros and a one. -/
def zerosAndOne : List W36 := List.replicate pcHistorySize 0 ++ [1]

/-- **A history out of order**: of 1024 zeros and a one, a request for 1025 elements gets the
one first. -/
theorem not_keepsHistory :
    ((adds zerosAndOne).mostRecent 1025).head? = some 1 ∧ ¬ KeepsHistory zerosAndOne 1025 := by
  have h := records_adds zerosAndOne
  have hlen : zerosAndOne.length = 1025 := by
    rw [zerosAndOne, List.length_append, List.length_replicate, List.length_singleton]
    rfl
  have hmin : min zerosAndOne.length pcHistorySize = 1024 := by
    rw [hlen]
    rfl
  have hone : (adds zerosAndOne).slot 0 = 1 := by
    have hslot := h.slots 1024 (by rw [hlen]; decide) (by rw [hlen]; decide)
    have hlast : zerosAndOne[1024]? = some 1 := by
      rw [zerosAndOne, List.getElem?_append_right (by rw [List.length_replicate]; exact le_rfl),
        List.length_replicate]
      rfl
    exact Option.some.inj (hslot.symm.trans hlast)
  have hfirst : ((adds zerosAndOne).mostRecent 1025).head? = some 1 := by
    rw [h.mostRecent_of_lt (by rw [hmin]; decide), hmin, List.head?_map,
      List.head?_range, if_neg (by decide)]
    exact congrArg some hone
  refine ⟨hfirst, fun hkeeps => ?_⟩
  rw [hkeeps.mostRecent, hmin, hlen, List.head?_drop] at hfirst
  have hzero : zerosAndOne[1]? = some 0 := by
    rw [zerosAndOne, List.getElem?_append_left (by rw [List.length_replicate]; decide),
      List.getElem?_replicate, if_pos (by decide)]
  rw [show 1025 - min 1025 1024 = 1 from rfl, hzero] at hfirst
  exact absurd (Option.some.inj hfirst) (by decide)

end RingBuffer

end KM10
