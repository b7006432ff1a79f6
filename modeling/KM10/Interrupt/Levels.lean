import KM10.Library.Nesting
import KM10.Machine.Devices
import Mathlib.Order.Lattice.Nat
import Mathlib.Tactic.IntervalCases

/-!
Sets of interrupt levels.

The PI device keeps sets of the levels 1 to 7 as 7-bit fields, level 1 leftmost.  The abstract
view is `levelSet`, the set of the numbers of the levels in a field; the operations on the
fields are the operations on the sets, and the two searches of the device find least elements.

* `mem_levelSet`: which levels a field holds; `levelSet_or`, `levelSet_levelMask`, and so on;
* `search_isLeast`: the walk over the device table finds the least requested level;
* `seekLevel_isLeast`: the loop of `putConditions` finds the least level of a field.
-/

namespace KM10.PIState

/-! ### A field as a set -/

/-- The levels in a 7-bit field. -/
def levelSet (b : BitVec 7) : Set ℕ := {level | levelMask level &&& b ≠ 0}

/-- The mask of a level from 1 to 7 is a single bit. -/
lemma levelMask_eq_twoPow {level : ℕ} (h1 : 1 ≤ level) (h7 : level ≤ 7) :
    levelMask level = BitVec.twoPow 7 (7 - level) := by
  interval_cases level <;> rfl

/-- Level 0 and the numbers beyond 7 have no bit. -/
lemma levelMask_eq_zero {level : ℕ} (h : level = 0 ∨ 7 < level) : levelMask level = 0 := by
  rcases h with rfl | h
  · rfl
  · have hshift : 1 <<< 7 >>> level = 0 := by
      rw [Nat.shiftRight_eq_div_pow]
      exact Nat.div_eq_of_lt (Nat.pow_lt_pow_right Nat.one_lt_two h)
    rw [levelMask, hshift]
    rfl

/-- A field holds a level when its bit is set. -/
lemma mem_levelSet {b : BitVec 7} {level : ℕ} :
    level ∈ levelSet b ↔ 1 ≤ level ∧ level ≤ 7 ∧ b.getLsbD (7 - level) = true := by
  by_cases h : 1 ≤ level ∧ level ≤ 7
  · have hne : BitVec.twoPow 7 (7 - level) ≠ 0 := by
      rw [← levelMask_eq_twoPow h.1 h.2]
      obtain ⟨h1, h7⟩ := h
      interval_cases level <;> decide
    change levelMask level &&& b ≠ 0 ↔ _
    rw [levelMask_eq_twoPow h.1 h.2, BitVec.twoPow_and]
    split
    case isTrue hb => exact ⟨fun _ => ⟨h.1, h.2, hb⟩, fun _ => hne⟩
    case isFalse hb => exact ⟨fun h0 => absurd rfl h0, fun hall => absurd hall.2.2 hb⟩
  · have hmask : levelMask level = 0 := levelMask_eq_zero (by omega)
    refine ⟨fun hmem => absurd ?_ hmem, fun hall => absurd ⟨hall.1, hall.2.1⟩ h⟩
    rw [hmask]
    exact BitVec.zero_and

/-- The levels of a field are the numbers from 1 to 7. -/
lemma le_of_mem_levelSet {b : BitVec 7} {level : ℕ} (h : level ∈ levelSet b) :
    1 ≤ level ∧ level ≤ 7 := ⟨(mem_levelSet.mp h).1, (mem_levelSet.mp h).2.1⟩

@[simp] lemma levelSet_zero : levelSet 0 = ∅ := by
  ext level
  simp [mem_levelSet]

@[simp] lemma levelSet_or (a b : BitVec 7) : levelSet (a ||| b) = levelSet a ∪ levelSet b := by
  ext level
  simp only [Set.mem_union, mem_levelSet, BitVec.getLsbD_or, Bool.or_eq_true]
  tauto

/-- A field is zero exactly when it holds no level. -/
lemma levelSet_eq_empty {b : BitVec 7} : levelSet b = ∅ ↔ b = 0 := by
  refine ⟨fun h => BitVec.eq_of_getLsbD_eq fun i hi => ?_, fun h => h ▸ levelSet_zero⟩
  cases hb : b.getLsbD i with
  | false => exact BitVec.getLsbD_zero.symm
  | true =>
      have hmem : 7 - i ∈ levelSet b :=
        mem_levelSet.mpr ⟨by omega, by omega, by rwa [show 7 - (7 - i) = i by omega]⟩
      rw [h] at hmem
      exact hmem.elim

/-- The mask of a level from 1 to 7 holds that level alone. -/
lemma levelSet_levelMask {level : ℕ} (h1 : 1 ≤ level) (h7 : level ≤ 7) :
    levelSet (levelMask level) = {level} := by
  ext other
  rw [mem_levelSet, levelMask_eq_twoPow h1 h7, BitVec.getLsbD_twoPow, Set.mem_singleton_iff]
  simp only [Bool.and_eq_true, decide_eq_true_eq]
  omega

/-! ### The search of the device table -/

/-- The levels at which a pending device of the table may be granted. -/
def requested (levelsOn : BitVec 7) (devices : List Device) : Set ℕ :=
  {level | level ∈ levelSet levelsOn ∧ ∃ dev ∈ devices, dev.intPending = true ∧
    dev.intLevel = level}

/-- One device more. -/
lemma requested_cons (levelsOn : BitVec 7) (dev : Device) (devices : List Device) :
    requested levelsOn (dev :: devices) =
      {level | level ∈ levelSet levelsOn ∧ dev.intPending = true ∧ dev.intLevel = level} ∪
        requested levelsOn devices := by
  ext level
  simp only [requested, Set.mem_ofPred_eq, List.mem_cons, Set.mem_union]
  constructor
  · rintro ⟨hlevel, d, rfl | hd, hpending, hd'⟩
    · exact .inl ⟨hlevel, hpending, hd'⟩
    · exact .inr ⟨hlevel, d, hd, hpending, hd'⟩
  · rintro (⟨hlevel, hpending, hd⟩ | ⟨hlevel, d, hd, hpending, hd'⟩)
    · exact ⟨hlevel, dev, .inl rfl, hpending, hd⟩
    · exact ⟨hlevel, d, .inr hd, hpending, hd'⟩

/-- One step of the walk takes the smaller of the level so far and that of the device. -/
lemma searchStep_isLeast (levelsOn : BitVec 7) (highestLevel : ℕ) (dev : Device) :
    IsLeast ({level | level ∈ levelSet levelsOn ∧ dev.intPending = true ∧ dev.intLevel = level} ∪
      {highestLevel}) (searchStep levelsOn highestLevel dev) := by
  by_cases hdev : dev.intPending = true ∧ dev.intLevel ∈ levelSet levelsOn ∧
      dev.intLevel < highestLevel
  · have hstep : searchStep levelsOn highestLevel dev = dev.intLevel := by
      rw [searchStep, if_pos hdev.1, if_pos ⟨hdev.2.1, hdev.2.2⟩]
    rw [hstep]
    refine ⟨.inl ⟨hdev.2.1, hdev.1, rfl⟩, ?_⟩
    rintro level (⟨-, -, rfl⟩ | rfl)
    · exact le_rfl
    · exact hdev.2.2.le
  · have hstep : searchStep levelsOn highestLevel dev = highestLevel := by
      rw [searchStep]
      split
      case isTrue hp => exact if_neg fun h => hdev ⟨hp, h.1, h.2⟩
      case isFalse => rfl
    rw [hstep]
    refine ⟨.inr rfl, ?_⟩
    rintro level (⟨hlevel, hp, rfl⟩ | rfl)
    · exact not_lt.mp fun hlt => hdev ⟨hp, hlevel, hlt⟩
    · exact le_rfl

/-- The walk from any start: the loop invariant is that the level so far is the least of the
start and the requests seen. -/
lemma foldl_searchStep_isLeast (levelsOn : BitVec 7) (devices : List Device) (start : ℕ) :
    IsLeast (requested levelsOn devices ∪ {start})
      (devices.foldl (searchStep levelsOn) start) := by
  induction devices generalizing start with
  | nil =>
      refine ⟨.inr rfl, ?_⟩
      rintro level (⟨-, d, hd, -⟩ | rfl)
      · exact absurd hd List.not_mem_nil
      · exact le_rfl
  | cons dev devices ih =>
      have hstep := searchStep_isLeast levelsOn start dev
      have hrest := ih (searchStep levelsOn start dev)
      rw [List.foldl_cons, requested_cons]
      refine ⟨?_, ?_⟩
      · rcases hrest.1 with h | h
        · exact .inl (.inr h)
        · rw [Set.mem_singleton_iff.mp h]
          exact hstep.1.imp .inl id
      · have hle := hrest.2 (.inr rfl)
        rintro level ((h | h) | h)
        · exact hle.trans (hstep.2 (.inl h))
        · exact hrest.2 (.inl h)
        · exact hle.trans (hstep.2 (.inr h))

/-- **The search of the device table** finds the least requested level, or 99. -/
theorem search_isLeast (levelsOn : BitVec 7) (devices : List Device) :
    IsLeast (requested levelsOn devices) (search levelsOn devices) ∨
      (requested levelsOn devices = ∅ ∧ search levelsOn devices = 99) := by
  have h := foldl_searchStep_isLeast levelsOn devices 99
  rcases h.1 with hmem | h99
  · exact .inl ⟨hmem, fun level hlevel => h.2 (.inl hlevel)⟩
  · refine .inr ⟨Set.eq_empty_iff_forall_notMem.mpr fun level hlevel => ?_, h99⟩
    have hle : search levelsOn devices ≤ level := h.2 (.inl hlevel)
    have h7 := (le_of_mem_levelSet hlevel.1).2
    rw [show search levelsOn devices = 99 from h99] at hle
    omega

/-! ### The search of a field -/

/-- The next level has the next bit to the right. -/
lemma levelMask_succ {level : ℕ} (h : 1 ≤ level) :
    levelMask level >>> 1 = levelMask (level + 1) := by
  by_cases h7 : level ≤ 7
  · interval_cases level <;> rfl
  · rw [levelMask_eq_zero (.inr (by omega)), levelMask_eq_zero (.inr (by omega))]
    rfl

/-- The loop from any level up to the least one of the field. -/
lemma seekLevel_eq {levels : BitVec 7} {least : ℕ} (hleast : IsLeast (levelSet levels) least)
    (rounds level : ℕ) (h1 : 1 ≤ level) (hle : level ≤ least) (hrounds : least < level + rounds) :
    PIDevice.seekLevel levels rounds level (levelMask level) =
      some (least, levelMask least) := by
  induction rounds generalizing level with
  | zero => exact absurd hrounds (by omega)
  | succ rounds ih =>
      rw [PIDevice.seekLevel]
      split
      case isTrue hzero =>
        have hne : level ≠ least := fun heq => by
          subst heq
          exact hleast.1 (by rw [BitVec.and_comm]; exact hzero)
        rw [levelMask_succ h1]
        exact ih (level + 1) (by omega) (by omega) (by omega)
      case isFalse hmem =>
        have hle' : least ≤ level := hleast.2 fun h0 => hmem (by rw [BitVec.and_comm]; exact h0)
        rw [le_antisymm hle hle']

/-- A field that holds a level holds a least one. -/
lemma exists_isLeast {levels : BitVec 7} (h : levels ≠ 0) :
    ∃ least, IsLeast (levelSet levels) least := by
  have hne : (levelSet levels).Nonempty :=
    Set.nonempty_iff_ne_empty.mpr fun hempty => h (levelSet_eq_empty.mp hempty)
  exact ⟨sInf (levelSet levels), Nat.sInf_mem hne, fun _ hlevel => Nat.sInf_le hlevel⟩

/-- **The search of a field** that holds a level finds the least one. -/
theorem seekLevel_isLeast {levels : BitVec 7} (h : levels ≠ 0) :
    ∃ least, IsLeast (levelSet levels) least ∧
      PIDevice.seekLevel levels 8 1 0o100 = some (least, levelMask least) := by
  obtain ⟨least, hleast⟩ := exists_isLeast h
  have hbounds := le_of_mem_levelSet hleast.1
  exact ⟨least, hleast, seekLevel_eq hleast 8 1 le_rfl hbounds.1 (by omega)⟩

end KM10.PIState
