import KM10.Interrupt.Grant

/-!
CONO PI words that the device never finishes carrying out.

`putConditions` looks for the highest level a word names by shifting a mask to the right until
it meets one.  When a word that raises requests names no level, the mask runs empty and the
loop goes on.

* `seekLevel_zero`: the search of an empty field never ends;
* `PIDevice.CarriesOut`: the word is carried out and leaves a level of 0 to 7;
* `PIFunctions.FindsLevel`: the words whose search, if they make one, meets a level;
* `carriesOut_iff`: these are the words that are carried out.
-/

namespace KM10

open PIState

/-- **The search of an empty field** never ends, from any level and any mask. -/
lemma seekLevel_zero (rounds level : ℕ) (mask : BitVec 7) :
    PIDevice.seekLevel 0 rounds level mask = none := by
  induction rounds generalizing level mask with
  | zero => rfl
  | succ rounds ih =>
      rw [PIDevice.seekLevel, if_pos (show 0 &&& mask = 0 from BitVec.zero_and)]
      exact ih (level + 1) (mask >>> 1)

/-- Nothing is requested at no level, so the search is made, and it never ends. -/
lemma requestLevel_zero (d : PIDevice) : d.requestLevel 0 = none := by
  rw [PIDevice.requestLevel, if_pos (show d.piState.prLevels &&& 0 = 0 from BitVec.and_zero),
    seekLevel_zero]
  rfl

/-- A request at some level ends at that level or leaves the level of the device. -/
lemma requestLevel_le {d : PIDevice} (hd : d.intLevel ≤ 7) {levels : BitVec 7}
    (h : levels ≠ 0) : ∃ level ≤ 7, d.requestLevel levels = some level := by
  obtain ⟨least, hleast, hseek⟩ := seekLevel_isLeast h
  have hle : least ≤ 7 := (le_of_mem_levelSet hleast.1).2
  rw [PIDevice.requestLevel, hseek]
  split
  case isFalse => exact ⟨_, hd, rfl⟩
  case isTrue =>
    refine ⟨_, ?_, rfl⟩
    change (if levelMask least = 0 ∨ least < d.piState.currentLevel.toNat then least
      else d.intLevel) ≤ 7
    split
    case isTrue => exact hle
    case isFalse => exact hd

/-- The device carries the word out and is left at a level of 0 to 7. -/
def PIDevice.CarriesOut (d : PIDevice) (v : BitVec 18) : Prop :=
  ∃ d', d.putConditions v = some d' ∧ d'.intLevel ≤ 7

/-- The word clears PI, or raises no requests, or names a level. -/
def PIFunctions.FindsLevel (pif : PIFunctions) : Prop :=
  pif.clearPI = true ∨ pif.initiatePR = false ∨ pif.levels ≠ 0

/-- A word that raises requests is carried out when it names a level. -/
lemma applyFunctions_of_initiate {d : PIDevice} (hd : d.intLevel ≤ 7) {pif : PIFunctions}
    (hinitiate : pif.initiatePR = true) :
    (∃ d', d.applyFunctions pif = some d' ∧ d'.intLevel ≤ 7) ↔ pif.levels ≠ 0 := by
  rw [PIDevice.applyFunctions, if_pos hinitiate]
  constructor
  · rintro ⟨d', h, -⟩ hlevels
    rw [hlevels, requestLevel_zero] at h
    cases h
  · intro hlevels
    obtain ⟨level, hle, hrequest⟩ := requestLevel_le
      (d := { d with piState := PIDevice.writeConditions d.piState pif }) hd hlevels
    rw [hrequest]
    exact ⟨_, rfl, hle⟩

/-- From a level of 0 to 7, the words that find a level are those that are carried out. -/
lemma carriesOut_iff_findsLevel {d : PIDevice} (hd : d.intLevel ≤ 7) (v : BitVec 18) :
    d.CarriesOut v ↔ (PIFunctions.ofBits v).FindsLevel := by
  rw [PIDevice.CarriesOut, PIDevice.putConditions, PIFunctions.FindsLevel]
  by_cases hclear : (PIFunctions.ofBits v).clearPI = true
  · rw [if_pos hclear]
    exact iff_of_true ⟨_, rfl, Nat.zero_le 7⟩ (.inl hclear)
  · rw [if_neg hclear, or_iff_right hclear]
    cases hinitiate : (PIFunctions.ofBits v).initiatePR with
    | true =>
        rw [applyFunctions_of_initiate hd hinitiate, or_iff_right Bool.true_eq_false.mp]
    | false =>
        refine iff_of_true ?_ (.inl rfl)
        rw [PIDevice.applyFunctions, hinitiate]
        exact ⟨_, rfl, hd⟩

/-- The level of the device is one of 0 to 7 in every reachable state. -/
theorem PIDevice.Reachable.intLevel_le {d : PIDevice} (h : d.Reachable) : d.intLevel ≤ 7 := by
  induction h with
  | initial => exact Nat.zero_le 7
  | @cono d d' v hd h ih =>
      -- a word that ends has found a level
      have hfinds : (PIFunctions.ofBits v).FindsLevel := by
        by_contra hnot
        rw [PIFunctions.FindsLevel, not_or, not_or, Bool.not_eq_false, not_not] at hnot
        obtain ⟨hclear, hinitiate, hlevels⟩ := hnot
        rw [PIDevice.putConditions, if_neg hclear, PIDevice.applyFunctions,
          if_pos hinitiate, hlevels, requestLevel_zero] at h
        cases h
      obtain ⟨d'', h', hle⟩ := (carriesOut_iff_findsLevel ih v).mpr hfinds
      rw [h] at h'
      cases h'
      exact hle
  | clearIO => exact Nat.zero_le 7
  | setUp _ _ _ ih => exact ih
  | dismiss _ ih => exact ih

/-- **CONO PI**: in every state of the PI device at a level of 0 to 7, and so in every
reachable one, a word is carried out and leaves such a level exactly when it clears PI, or
raises no requests, or names a level. -/
theorem carriesOut_iff (d : PIDevice) (v : BitVec 18) :
    (d.Reachable → d.intLevel ≤ 7) ∧
      (d.intLevel ≤ 7 → (d.CarriesOut v ↔ (PIFunctions.ofBits v).FindsLevel)) :=
  ⟨fun hd => hd.intLevel_le, fun hd => carriesOut_iff_findsLevel hd v⟩

/-- A cleared PI carries out CONO PI 4020, which requests level 3. -/
theorem carriesOut_iff_request :
    PIDevice.initial.intLevel ≤ 7 ∧ PIDevice.initial.CarriesOut 0o4020 := by
  obtain ⟨hreachable, hiff⟩ := carriesOut_iff PIDevice.initial 0o4020
  have hle := hreachable .initial
  exact ⟨hle, (hiff hle).mpr (.inr (.inr (by decide)))⟩

/-- **A word that hangs the device**: CONO PI 4000 raises requests at no level.  The cleared PI
never finishes it. -/
theorem not_carriesOut_request :
    PIDevice.initial.Reachable ∧ PIDevice.initial.putConditions 0o4000 = none ∧
      ¬ PIDevice.initial.CarriesOut 0o4000 := by
  have hnone : PIDevice.initial.putConditions 0o4000 = none := rfl
  refine ⟨.initial, hnone, ?_⟩
  rintro ⟨d', h, -⟩
  rw [hnone] at h
  cases h

end KM10
