import KM10.Effects.Pass
import KM10.Interrupt.Levels

/-!
The grant of an interrupt.

* `CurrentIsLeastHeld`: the invariant that ties `currentLevel` to the field `held`;
* `PIDevice.Reachable`: the states of the PI device under its operations, which all keep the
  invariant (`Reachable.currentIsLeastHeld`);
* `Grants`: when an interrupt is granted and at which level, said of sets of levels;
* `setUpInterruptCycle_of_grants`, `setUpInterruptCycle_of_not_grants`: the code decides as
  `Grants` does;
* `grant_selection`: the same of the machine, in every reachable state of the PI device.
-/

namespace KM10

open PIState

/-! ### The current level -/

/-- `currentLevel` is the smallest held level, or `noLevel` when no level is held. -/
def CurrentIsLeastHeld (p : PIState) : Prop :=
  (p.held = 0 ∧ p.currentLevel = noLevel) ∨ IsLeast (levelSet p.held) p.currentLevel.toNat

/-- A PI state with nothing held. -/
lemma CurrentIsLeastHeld.of_idle {p : PIState} (hheld : p.held = 0)
    (hcurrent : p.currentLevel = noLevel) : CurrentIsLeastHeld p := .inl ⟨hheld, hcurrent⟩

/-- The invariant concerns `held` and `currentLevel` alone. -/
lemma CurrentIsLeastHeld.congr {p q : PIState} (h : CurrentIsLeastHeld p)
    (hheld : q.held = p.held) (hcurrent : q.currentLevel = p.currentLevel) :
    CurrentIsLeastHeld q := by
  rw [CurrentIsLeastHeld, hheld, hcurrent]
  exact h

/-- A level from 1 to 7 is below the current one exactly when it is below every held level. -/
lemma CurrentIsLeastHeld.lt_iff {p : PIState} (h : CurrentIsLeastHeld p) {level : ℕ}
    (h7 : level ≤ 7) : level < p.currentLevel.toNat ↔ ∀ held ∈ levelSet p.held, level < held := by
  rcases h with ⟨hheld, hcurrent⟩ | hleast
  · rw [hheld, hcurrent, levelSet_zero]
    exact ⟨fun _ _ h => h.elim, fun _ => Nat.lt_succ_of_le h7⟩
  · exact Nesting.lt_isLeast_iff hleast

/-! ### The decision -/

/-- An interrupt is granted at `level`: the PI system is on, and `level` is the smallest level
that is turned on and requested, and smaller than every held level. -/
def Grants (p : PIState) (devices : List Device) (level : ℕ) : Prop :=
  p.piOn = true ∧ IsLeast (requested p.levelsOn devices) level ∧
    ∀ held ∈ levelSet p.held, level < held

/-- The PI state after a grant at `level`. -/
def PIState.grantAt (p : PIState) (level : ℕ) : PIState :=
  { p with held := p.held ||| levelMask level, currentLevel := BitVec.ofNat 4 level }

/-- Granted levels run from 1 to 7. -/
lemma Grants.bounds {p : PIState} {devices : List Device} {level : ℕ}
    (h : Grants p devices level) : 1 ≤ level ∧ level ≤ 7 := le_of_mem_levelSet h.2.1.1.1

/-- The current level after a grant is the granted one. -/
lemma toNat_ofNat_of_le {level : ℕ} (h : level ≤ 7) : (BitVec.ofNat 4 level).toNat = level := by
  rw [BitVec.toNat_ofNat]
  exact Nat.mod_eq_of_lt (by omega)

/-- A grant adds exactly the granted level to the held ones. -/
lemma levelSet_held_grantAt (p : PIState) {level : ℕ} (h1 : 1 ≤ level) (h7 : level ≤ 7) :
    levelSet (p.grantAt level).held = insert level (levelSet p.held) := by
  rw [PIState.grantAt, levelSet_or, levelSet_levelMask h1 h7, Set.union_singleton]

/-- A request that would be granted finds the system and some level turned on. -/
lemma Grants.on {p : PIState} {devices : List Device} {level : ℕ} (h : Grants p devices level) :
    (!p.piOn || p.levelsOn == 0) = false := by
  have hne : p.levelsOn ≠ 0 := fun h0 => by
    have hmem := h.2.1.1.1
    rw [h0, levelSet_zero] at hmem
    exact hmem
  rw [h.1, beq_eq_false_iff_ne.mpr hne]
  rfl

/-- What is granted, the code grants. -/
lemma setUpInterruptCycle_of_grants {p : PIState} (hp : CurrentIsLeastHeld p)
    {devices : List Device} {level : ℕ} (h : Grants p devices level) :
    p.setUpInterruptCycle devices = some (level, p.grantAt level) := by
  have hsearch : search p.levelsOn devices = level := by
    rcases search_isLeast p.levelsOn devices with hleast | ⟨hempty, -⟩
    · exact hleast.unique h.2.1
    · exact absurd h.2.1.1 (by rw [hempty]; exact id)
  have hlt : level < p.currentLevel.toNat := (hp.lt_iff h.bounds.2).mpr h.2.2
  rw [setUpInterruptCycle, h.on, hsearch]
  exact if_pos hlt

/-- What is not granted, the code does not grant. -/
lemma setUpInterruptCycle_of_not_grants {p : PIState} (hp : CurrentIsLeastHeld p)
    {devices : List Device} (h : ¬ ∃ level, Grants p devices level) :
    p.setUpInterruptCycle devices = none := by
  rw [setUpInterruptCycle]
  split
  case isTrue => rfl
  case isFalse hon =>
    rw [Bool.or_eq_true, not_or, Bool.not_eq_true', Bool.not_eq_false] at hon
    refine if_neg fun hlt => h ⟨search p.levelsOn devices, hon.1, ?_⟩
    rcases search_isLeast p.levelsOn devices with hleast | ⟨-, h99⟩
    · exact ⟨hleast, (hp.lt_iff (le_of_mem_levelSet hleast.1.1).2).mp hlt⟩
    · rw [h99] at hlt
      have := p.currentLevel.isLt
      omega

/-- The two cases of the code as one: it grants exactly as `Grants` says. -/
lemma grants_of_setUpInterruptCycle {p p' : PIState} (hp : CurrentIsLeastHeld p)
    {devices : List Device} {level : ℕ} (h : p.setUpInterruptCycle devices = some (level, p')) :
    Grants p devices level ∧ p' = p.grantAt level := by
  by_cases hg : ∃ level, Grants p devices level
  · obtain ⟨level', hg'⟩ := hg
    rw [setUpInterruptCycle_of_grants hp hg'] at h
    cases h
    exact ⟨hg', rfl⟩
  · rw [setUpInterruptCycle_of_not_grants hp hg] at h
    cases h

/-! ### The operations of the PI device -/

/-- A grant keeps the invariant. -/
lemma CurrentIsLeastHeld.grantAt {p : PIState} {devices : List Device} {level : ℕ}
    (h : Grants p devices level) : CurrentIsLeastHeld (p.grantAt level) := by
  refine .inr ?_
  rw [levelSet_held_grantAt p h.bounds.1 h.bounds.2]
  change IsLeast _ (BitVec.ofNat 4 level).toNat
  rw [toNat_ofNat_of_le h.bounds.2]
  exact Nesting.isLeast_insert_of_lt h.2.2

/-- Writing conditions touches neither `held` nor `currentLevel`. -/
lemma writeConditions_held (p : PIState) (pif : PIFunctions) :
    (PIDevice.writeConditions p pif).held = p.held ∧
      (PIDevice.writeConditions p pif).currentLevel = p.currentLevel := by
  simp only [PIDevice.writeConditions]
  repeat' split
  all_goals exact ⟨rfl, rfl⟩

/-- A CONO PI word without the clear bit touches neither `held` nor `currentLevel`. -/
lemma applyFunctions_held {d d' : PIDevice} {pif : PIFunctions}
    (h : d.applyFunctions pif = some d') :
    d'.piState.held = d.piState.held ∧ d'.piState.currentLevel = d.piState.currentLevel := by
  rw [PIDevice.applyFunctions] at h
  split at h
  · obtain ⟨level, -, rfl⟩ := Option.map_eq_some_iff.mp h
    exact writeConditions_held d.piState pif
  · cases h
    exact writeConditions_held d.piState pif

/-- A CONO PI word keeps the invariant. -/
lemma CurrentIsLeastHeld.putConditions {d d' : PIDevice} (hd : CurrentIsLeastHeld d.piState)
    {v : BitVec 18} (h : d.putConditions v = some d') : CurrentIsLeastHeld d'.piState := by
  rw [PIDevice.putConditions] at h
  split at h
  · cases h
    exact .of_idle rfl rfl
  · obtain ⟨hheld, hcurrent⟩ := applyFunctions_held h
    exact hd.congr hheld hcurrent

/-- The states of the PI device: from the constructor by CONO PI words, I/O clears, grants on
any device table, and dismissals. -/
inductive PIDevice.Reachable : PIDevice → Prop where
  | initial : Reachable PIDevice.initial
  | cono {d d' : PIDevice} (v : BitVec 18) (hd : Reachable d)
      (h : d.putConditions v = some d') : Reachable d'
  | clearIO {d : PIDevice} (hd : Reachable d) : Reachable d.clearIO
  | setUp {d : PIDevice} {level : ℕ} {piState : PIState} (devices : List Device)
      (hd : Reachable d) (h : d.piState.setUpInterruptCycle devices = some (level, piState)) :
      Reachable { d with piState := piState }
  | dismiss {d : PIDevice} (hd : Reachable d) :
      Reachable { d with piState := d.piState.dismissInterrupt }

/-- The invariant holds in every reachable state. -/
theorem PIDevice.Reachable.currentIsLeastHeld {d : PIDevice} (h : d.Reachable) :
    CurrentIsLeastHeld d.piState := by
  induction h with
  | initial => exact .of_idle rfl rfl
  | cono v _ h ih => exact ih.putConditions h
  | clearIO _ ih => exact .of_idle rfl rfl
  | setUp devices _ h ih =>
      obtain ⟨hg, rfl⟩ := grants_of_setUpInterruptCycle ih h
      exact .grantAt hg
  | dismiss _ ih => exact .of_idle rfl rfl

/-! ### The machine -/

/-- The machine after a grant at `level`. -/
def Cpu.grantAt (s : Cpu) (level : ℕ) : Cpu :=
  { s with pi := { s.pi with piState := s.pi.piState.grantAt level },
           ACBlocks := fun b n => if b = 7 ∧ n = 3 then 0 else s.ACBlocks b n }

/-- The machine grants what is granted. -/
lemma run_setUp_of_grants {s : Cpu} (hs : CurrentIsLeastHeld s.pi.piState) {level : ℕ}
    (h : Grants s.pi.piState s.table level) :
    setUpInterruptCycleIfPending.run s = .ok (W36.ofNat (0o40 + 2 * level), s.grantAt level) := by
  rw [run_setUpInterruptCycle, Cpu.vector, Cpu.granted, setUpInterruptCycle_of_grants hs h]
  rfl

/-- Otherwise the machine does nothing. -/
lemma run_setUp_of_not_grants {s : Cpu} (hs : CurrentIsLeastHeld s.pi.piState)
    (h : ¬ ∃ level, Grants s.pi.piState s.table level) :
    setUpInterruptCycleIfPending.run s = .ok (0, s) := by
  rw [run_setUpInterruptCycle, Cpu.vector, Cpu.granted, setUpInterruptCycle_of_not_grants hs h]

/-- **Grant selection**: in every reachable state of the PI device `currentLevel` is the
smallest held level, any device table is granted exactly as `Grants` says, and the machine then
returns the address 040+2L of the vector, adds L to the held levels and makes it the current
one; otherwise it returns 0 and changes nothing. -/
theorem grant_selection {d : PIDevice} (hd : d.Reachable) :
    CurrentIsLeastHeld d.piState ∧
      (∀ devices level piState, d.piState.setUpInterruptCycle devices = some (level, piState) ↔
        Grants d.piState devices level ∧ piState = d.piState.grantAt level) ∧
      ∀ s : Cpu, s.pi = d →
        (∀ level, Grants d.piState s.table level →
          1 ≤ level ∧
          levelSet (d.piState.grantAt level).held = insert level (levelSet d.piState.held) ∧
          (d.piState.grantAt level).currentLevel.toNat = level ∧
          setUpInterruptCycleIfPending.run s =
            .ok (W36.ofNat (0o40 + 2 * level), s.grantAt level)) ∧
        ((¬ ∃ level, Grants d.piState s.table level) →
          setUpInterruptCycleIfPending.run s = .ok (0, s)) := by
  have hp := hd.currentIsLeastHeld
  refine ⟨hp, fun devices level piState => ⟨grants_of_setUpInterruptCycle hp, ?_⟩, ?_⟩
  · rintro ⟨h, rfl⟩
    exact setUpInterruptCycle_of_grants hp h
  · rintro s rfl
    refine ⟨fun level h => ⟨h.bounds.1, ?_, ?_, run_setUp_of_grants hp h⟩,
      run_setUp_of_not_grants hp⟩
    · exact levelSet_held_grantAt _ h.bounds.1 h.bounds.2
    · exact toNat_ofNat_of_le h.bounds.2

/-- The PI device after CONO PI 2377, which turns on the system and all levels. -/
def PIDevice.allOn : PIDevice :=
  { PIDevice.initial with piState := { PIState.initial with piOn := true, levelsOn := 0o177 } }

/-- A machine with all levels on. -/
def Cpu.allOn : Cpu := { Cpu.initial with pi := .allOn }

/-- The machine after the processor device has requested an interrupt at `level`. -/
def Cpu.request (s : Cpu) (level : ℕ) : Cpu :=
  { s with apr := { s.apr with intLevel := level, intPending := true } }

/-- A request at level 3 is granted there and fetches from 046. -/
theorem grant_selection_request :
    setUpInterruptCycleIfPending.run (Cpu.allOn.request 3) =
      .ok (0o46, (Cpu.allOn.request 3).grantAt 3) := by
  have hd : PIDevice.allOn.Reachable := .cono 0o2377 .initial rfl
  have h3 : Grants PIDevice.allOn.piState (Cpu.allOn.request 3).table 3 :=
    (grants_of_setUpInterruptCycle (.of_idle rfl rfl) rfl).1
  exact (((grant_selection hd).2.2 (Cpu.allOn.request 3) rfl).1 3 h3).2.2.2

end KM10
