import KM10.Interrupt.Grant
import KM10.Library.Trace

/-!
Programmed requests, which CONO PI words raise and drop.

The PI device keeps a programmed request three times: the field `prLevels`, and the
`intPending` and `intLevel` that the search of the device table reads.

* `RequestsKept`: the three agree;
* `KeepsRequests`: the words that keep them in agreement, said of sets of levels;
* `requestsKept_iff_of_conoStep`: one word from a state in agreement;
* `requests_kept_iff`: a sequence of words from a cleared PI;
* `requests_lost`: turning the system on after a request loses the request.
-/

namespace KM10

open PIState

/-! ### Agreement of the request fields -/

/-- The device is pending exactly when some level is requested, and then at the least one. -/
def RequestsKept (d : PIDevice) : Prop :=
  (d.intPending = true ↔ d.piState.prLevels ≠ 0) ∧
    (d.piState.prLevels ≠ 0 → IsLeast (levelSet d.piState.prLevels) d.intLevel)

/-- Without requested levels the device must not be pending. -/
lemma requestsKept_iff_of_not_pending {d : PIDevice} (h : d.intPending = false) :
    RequestsKept d ↔ d.piState.prLevels = 0 := by
  constructor
  · intro hkept
    by_contra hne
    rw [hkept.1.mpr hne] at h
    cases h
  · intro hzero
    refine ⟨⟨fun hpending => ?_, fun hne => absurd hzero hne⟩, fun hne => absurd hzero hne⟩
    rw [h] at hpending
    cases hpending

/-- A pending device must be at the least requested level. -/
lemma requestsKept_iff_of_pending {d : PIDevice} (h : d.intPending = true)
    (hne : d.piState.prLevels ≠ 0) :
    RequestsKept d ↔ IsLeast (levelSet d.piState.prLevels) d.intLevel :=
  ⟨fun hkept => hkept.2 hne, fun hleast => ⟨⟨fun _ => hne, fun _ => h⟩, fun _ => hleast⟩⟩

/-- The levels still requested after the drop part of a CONO PI word. -/
def afterDrop (prLevels : BitVec 7) (pif : PIFunctions) : BitVec 7 :=
  if pif.dropPR then prLevels &&& ~~~ pif.levels else prLevels

/-- The words that keep the request fields in agreement.  Either the word clears PI; or it
raises requests, none of them standing already, and one of them is as urgent as each that
stands; or it raises requests, some of them standing already, and one that stands is as
urgent as each of them; or it raises none and none stands any more. -/
def KeepsRequests (prLevels : BitVec 7) (pif : PIFunctions) : Prop :=
  let standing := afterDrop prLevels pif
  pif.clearPI = true ∨
    if pif.initiatePR then
      if standing &&& pif.levels = 0 then
        ∀ level ∈ levelSet standing, ∃ raised ∈ levelSet pif.levels, raised ≤ level
      else ∀ raised ∈ levelSet pif.levels, ∃ level ∈ levelSet standing, level ≤ raised
    else standing = 0

/-! ### One word -/

/-- One CONO PI word that names a level if it raises requests. -/
def ConoStep (d : PIDevice) (v : BitVec 18) (d' : PIDevice) : Prop :=
  ((PIFunctions.ofBits v).initiatePR = true → (PIFunctions.ofBits v).levels ≠ 0) ∧
    d.putConditions v = some d'

/-- The drop is the only part of the conditions that concerns the requested levels. -/
lemma writeConditions_prLevels (p : PIState) (pif : PIFunctions) :
    (PIDevice.writeConditions p pif).prLevels = afterDrop p.prLevels pif := by
  simp only [PIDevice.writeConditions, afterDrop]
  split <;> repeat' split
  all_goals rfl

/-- When nothing is being serviced, levels that do not stand yet are requested at the least
of them; otherwise the level of the device stays. -/
lemma requestLevel_of_noLevel {d : PIDevice} (hcurrent : d.piState.currentLevel = noLevel)
    {levels : BitVec 7} (hlevels : levels ≠ 0) :
    ∃ least, IsLeast (levelSet levels) least ∧ d.requestLevel levels =
      some (if d.piState.prLevels &&& levels = 0 then least else d.intLevel) := by
  obtain ⟨least, hleast, hseek⟩ := seekLevel_isLeast hlevels
  refine ⟨least, hleast, ?_⟩
  rw [PIDevice.requestLevel, hseek, hcurrent]
  split
  case isTrue =>
    have hlt : least < noLevel.toNat := Nat.lt_succ_of_le (le_of_mem_levelSet hleast.1).2
    exact congrArg some (if_pos (.inr hlt))
  case isFalse => rfl

/-- A CONO PI word starts no service. -/
lemma ConoStep.currentLevel {d d' : PIDevice} {v : BitVec 18} (h : ConoStep d v d')
    (hcurrent : d.piState.currentLevel = noLevel) : d'.piState.currentLevel = noLevel := by
  obtain ⟨-, h⟩ := h
  rw [PIDevice.putConditions] at h
  split at h
  · cases h
    rfl
  · exact (applyFunctions_held h).2.trans hcurrent

/-- Levels that stand already and are raised have not been dropped. -/
lemma afterDrop_of_and_ne_zero {prLevels : BitVec 7} {pif : PIFunctions}
    (h : afterDrop prLevels pif &&& pif.levels ≠ 0) : afterDrop prLevels pif = prLevels := by
  rw [afterDrop] at h ⊢
  split
  case isTrue hdrop =>
    rw [if_pos hdrop, BitVec.and_assoc, BitVec.and_comm (~~~ pif.levels),
      BitVec.and_not_self] at h
    exact absurd BitVec.and_zero h
  case isFalse => rfl

/-- Raising requests keeps the fields in agreement exactly as `KeepsRequests` says. -/
lemma isLeast_raise_iff {d : PIDevice} (hd : RequestsKept d) {pif : PIFunctions} {least : ℕ}
    (hleast : IsLeast (levelSet pif.levels) least) :
    IsLeast (levelSet (afterDrop d.piState.prLevels pif ||| pif.levels))
        (if afterDrop d.piState.prLevels pif &&& pif.levels = 0 then least else d.intLevel) ↔
      if afterDrop d.piState.prLevels pif &&& pif.levels = 0 then
        ∀ level ∈ levelSet (afterDrop d.piState.prLevels pif),
          ∃ raised ∈ levelSet pif.levels, raised ≤ level
      else
        ∀ raised ∈ levelSet pif.levels,
          ∃ level ∈ levelSet (afterDrop d.piState.prLevels pif), level ≤ raised := by
  rw [levelSet_or]
  by_cases hand : afterDrop d.piState.prLevels pif &&& pif.levels = 0
  · rw [if_pos hand, if_pos hand, Set.union_comm]
    exact Nesting.isLeast_union_iff hleast
  · rw [if_neg hand, if_neg hand]
    -- the raised levels meet those that stood before, so the device is at the least of these
    have hstanding := afterDrop_of_and_ne_zero hand
    have hne : d.piState.prLevels ≠ 0 := fun hzero => hand <| by
      rw [hstanding, hzero]
      exact BitVec.zero_and
    rw [hstanding]
    exact Nesting.isLeast_union_iff (hd.2 hne)

/-- A word that raises requests. -/
lemma requestsKept_iff_of_initiate {d d' : PIDevice} {pif : PIFunctions}
    (hcurrent : d.piState.currentLevel = noLevel) (hd : RequestsKept d)
    (hinitiate : pif.initiatePR = true) (hlevels : pif.levels ≠ 0)
    (h : d.applyFunctions pif = some d') :
    RequestsKept d' ↔
      if afterDrop d.piState.prLevels pif &&& pif.levels = 0 then
        ∀ level ∈ levelSet (afterDrop d.piState.prLevels pif),
          ∃ raised ∈ levelSet pif.levels, raised ≤ level
      else
        ∀ raised ∈ levelSet pif.levels,
          ∃ level ∈ levelSet (afterDrop d.piState.prLevels pif), level ≤ raised := by
  have hwrite := (writeConditions_held d.piState pif).2.trans hcurrent
  obtain ⟨least, hleast, hrequest⟩ := requestLevel_of_noLevel
    (d := { d with piState := PIDevice.writeConditions d.piState pif }) hwrite hlevels
  rw [writeConditions_prLevels] at hrequest
  rw [PIDevice.applyFunctions, if_pos hinitiate, hrequest] at h
  cases h
  rw [requestsKept_iff_of_pending rfl, writeConditions_prLevels]
  · exact isLeast_raise_iff hd hleast
  · intro hzero
    rw [writeConditions_prLevels] at hzero
    exact hlevels (BitVec.or_eq_zero_iff.mp hzero).2

/-- A word that raises no requests makes the device forget those that stand. -/
lemma requestsKept_iff_of_not_initiate {d d' : PIDevice} {pif : PIFunctions}
    (hinitiate : pif.initiatePR = false) (h : d.applyFunctions pif = some d') :
    RequestsKept d' ↔ afterDrop d.piState.prLevels pif = 0 := by
  rw [PIDevice.applyFunctions, hinitiate] at h
  cases h
  rw [requestsKept_iff_of_not_pending rfl, writeConditions_prLevels]

/-- **One word** from a state in agreement ends in one exactly when it is a word of
`KeepsRequests`. -/
theorem requestsKept_iff_of_conoStep {d d' : PIDevice} {v : BitVec 18}
    (hcurrent : d.piState.currentLevel = noLevel) (hd : RequestsKept d) (h : ConoStep d v d') :
    RequestsKept d' ↔ KeepsRequests d.piState.prLevels (.ofBits v) := by
  obtain ⟨hnames, h⟩ := h
  rw [PIDevice.putConditions] at h
  by_cases hclear : (PIFunctions.ofBits v).clearPI = true
  · rw [if_pos hclear] at h
    cases h
    exact iff_of_true ((requestsKept_iff_of_not_pending rfl).mpr rfl) (.inl hclear)
  · rw [if_neg hclear] at h
    rw [KeepsRequests, or_iff_right hclear]
    cases hinitiate : (PIFunctions.ofBits v).initiatePR with
    | true =>
        exact requestsKept_iff_of_initiate hcurrent hd hinitiate (hnames hinitiate) h
    | false => exact requestsKept_iff_of_not_initiate hinitiate h

/-! ### A sequence of words -/

/-- The cleared PI: nothing requested, nothing pending, nothing being serviced. -/
structure Cleared (d : PIDevice) : Prop where
  prLevels : d.piState.prLevels = 0
  intPending : d.intPending = false
  currentLevel : d.piState.currentLevel = noLevel

/-- **Programmed requests**: through a sequence of CONO PI words from a cleared PI the request
fields agree after each word exactly when every word is one of `KeepsRequests` for the
levels requested before it. -/
theorem requests_kept_iff {d : PIDevice} (hd : Cleared d)
    {steps : List (TraceStep PIDevice (BitVec 18))} (h : Trace ConoStep d steps) :
    (∀ x ∈ steps, RequestsKept x.post) ↔
      ∀ x ∈ steps, KeepsRequests x.pre.piState.prLevels (.ofBits x.label) := by
  refine h.forall_iff (I := fun d => d.piState.currentLevel = noLevel ∧ RequestsKept d)
    (C := fun x => KeepsRequests x.pre.piState.prLevels (.ofBits x.label))
    (Q := fun x => RequestsKept x.post) (fun hs hstep => ?_) ⟨hd.currentLevel, ?_⟩
  · have hiff := requestsKept_iff_of_conoStep hs.1 hs.2 hstep
    exact ⟨hiff, fun hkeeps => ⟨hstep.currentLevel hs.1, hiff.mpr hkeeps⟩⟩
  · exact (requestsKept_iff_of_not_pending hd.intPending).mpr hd.prLevels

/-- The PI device of a cleared PI after CONO PI 4020, which requests level 3. -/
def PIDevice.requesting : PIDevice :=
  { PIDevice.initial with
    intLevel := 3, intPending := true, piState := { PIState.initial with prLevels := 0o20 } }

/-- That device after CONO PI 200, which turns the system on. -/
def PIDevice.requestingOn : PIDevice :=
  { PIDevice.requesting with
    intPending := false, piState := { PIDevice.requesting.piState with piOn := true } }

/-- That device after CONO PI 20020 instead, which drops level 3 again. -/
def PIDevice.dropped : PIDevice :=
  { PIDevice.requesting with intPending := false, piState := PIState.initial }

/-- The first word of both sequences. -/
lemma conoStep_requesting : ConoStep PIDevice.initial 0o4020 PIDevice.requesting :=
  ⟨fun _ => by decide, rfl⟩

/-- A request that is dropped again leaves the fields in agreement. -/
theorem requests_kept_iff_dropped : RequestsKept PIDevice.dropped := by
  have hdrop : ConoStep PIDevice.requesting 0o20020 PIDevice.dropped :=
    ⟨fun h => absurd h (by decide), rfl⟩
  refine (requests_kept_iff ⟨rfl, rfl, rfl⟩
    (.cons conoStep_requesting (.cons hdrop (.nil _)))).mpr ?_ _
    (List.mem_cons_of_mem _ List.mem_cons_self)
  rw [List.forall_mem_cons, List.forall_mem_singleton]
  refine ⟨.inr fun level hlevel => ?_, .inr rfl⟩
  rw [show afterDrop _ _ = 0 from rfl, levelSet_zero] at hlevel
  exact hlevel.elim

/-- **Lost requests**: the level stays requested when the system is turned on, but the device
is no longer pending. -/
theorem requests_lost :
    Trace ConoStep PIDevice.initial [⟨PIDevice.initial, 0o4020, PIDevice.requesting⟩,
        ⟨PIDevice.requesting, 0o200, PIDevice.requestingOn⟩] ∧
      Cleared PIDevice.initial ∧ ¬ RequestsKept PIDevice.requestingOn := by
  have hturnOn : ConoStep PIDevice.requesting 0o200 PIDevice.requestingOn :=
    ⟨fun h => absurd h (by decide), rfl⟩
  refine ⟨.cons conoStep_requesting (.cons hturnOn (.nil _)), ⟨rfl, rfl, rfl⟩, ?_⟩
  rw [requestsKept_iff_of_not_pending rfl]
  decide

end KM10
