import KM10.Library.Census
import KM10.Library.Trace
import Mathlib.Data.List.Basic

/-!
The queue between threads (`tsqueue.hpp`).

A thread is at one of the places of `enqueue` and `dequeue`; a step of the queue is what one
thread does between two points at which another thread can come in.

* `TSQueue`: the elements, the holder of the mutex and the place of every thread;
* `TSQueue.Step`: the steps of `enqueue` and of `dequeue`, with `wait` and `notify_one` of the
  condition variable as C++ defines them, spurious wakeups included;
* `Sound`: one thread at a time holds the mutex, `front` is only called on a queue that has one,
  and there are never more elements than threads on their way while a thread sleeps;
* `tsqueue_fifo`: what is taken from the queue is what was put into it, in this order;
* `tsqueue_settled`: where no thread can move any more, a thread sleeps only in front of an
  empty queue;
* `reader_never_waits`: nor does a single reader ever sleep if it asks `isEmpty` first.
-/

namespace KM10

/-- The places of a thread in the methods of the queue. -/
inductive Place (T : Type) where
  /-- In none of them. -/
  | outside
  /-- In `enqueue(t)` before the lock. -/
  | toEnqueue (t : T)
  /-- Before `q.push(t)`. -/
  | toPush (t : T)
  /-- Before `c.notify_one()`. -/
  | toNotify
  /-- Before the end of `enqueue`, which unlocks. -/
  | leaving
  /-- In `dequeue` before the lock. -/
  | toDequeue
  /-- Before the test `q.empty()`. -/
  | testing
  /-- Asleep in `c.wait(lock)`. -/
  | waiting
  /-- Woken in `c.wait(lock)`, before the lock. -/
  | woken
  /-- Behind the loop, before `q.front()` and `q.pop()`. -/
  | toPop
  /-- Before the return of a value, which unlocks. -/
  | returning (val : T)
deriving DecidableEq

/-- The thread holds the mutex. -/
def Place.Inside {T : Type} : Place T → Prop
  | .toPush _ | .toNotify | .leaving | .testing | .toPop | .returning _ => True
  | _ => False

/-- The thread will test the queue, take an element or wake another thread. -/
def Place.Coming {T : Type} : Place T → Prop
  | .woken | .testing | .toPop | .toNotify => True
  | _ => False

/-- The thread is in `dequeue` and has not taken an element yet. -/
def Place.Reading {T : Type} : Place T → Prop
  | .toDequeue | .testing | .waiting | .woken | .toPop => True
  | _ => False

instance {T : Type} : DecidablePred (Place.Coming (T := T)) := fun p => by
  cases p <;> first | exact isTrue trivial | exact isFalse id

/-- What a step does to the elements. -/
inductive QueueEvent (T : Type) where
  | none
  | pushed (t : T)
  | popped (t : T)

/-- The members of the queue, and where the threads are. -/
structure TSQueue (ι T : Type) where
  q : List T
  m : Option ι
  pc : ι → Place T

namespace TSQueue

variable {ι T : Type} [DecidableEq ι]

/-- The thread `i` goes to another place. -/
def goTo (s : TSQueue ι T) (i : ι) (p : Place T) : TSQueue ι T :=
  { s with pc := Function.update s.pc i p }

/-- A step of one thread. -/
inductive Step : TSQueue ι T → QueueEvent T → TSQueue ι T → Prop where
  | callEnqueue {s i} (t : T) (h : s.pc i = .outside) : Step s .none (s.goTo i (.toEnqueue t))
  | lockEnqueue {s i t} (h : s.pc i = .toEnqueue t) (hfree : s.m = none) :
      Step s .none { s.goTo i (.toPush t) with m := some i }
  | push {s i t} (h : s.pc i = .toPush t) :
      Step s (.pushed t) { s.goTo i .toNotify with q := s.q ++ [t] }
  | notify {s i j} (h : s.pc i = .toNotify) (hj : s.pc j = .waiting) :
      Step s .none ((s.goTo j .woken).goTo i .leaving)
  | notifyNone {s i} (h : s.pc i = .toNotify) (hnone : ∀ j, s.pc j ≠ .waiting) :
      Step s .none (s.goTo i .leaving)
  | unlock {s i} (h : s.pc i = .leaving) : Step s .none { s.goTo i .outside with m := none }
  | callDequeue {s i} (h : s.pc i = .outside) : Step s .none (s.goTo i .toDequeue)
  | lockDequeue {s i} (h : s.pc i = .toDequeue) (hfree : s.m = none) :
      Step s .none { s.goTo i .testing with m := some i }
  | wait {s i} (h : s.pc i = .testing) (hempty : s.q = []) :
      Step s .none { s.goTo i .waiting with m := none }
  | wake {s i} (h : s.pc i = .waiting) : Step s .none (s.goTo i .woken)
  | relock {s i} (h : s.pc i = .woken) (hfree : s.m = none) :
      Step s .none { s.goTo i .testing with m := some i }
  | found {s i} (h : s.pc i = .testing) (hsome : s.q ≠ []) : Step s .none (s.goTo i .toPop)
  | pop {s i val rest} (h : s.pc i = .toPop) (hq : s.q = val :: rest) :
      Step s (.popped val) { s.goTo i (.returning val) with q := rest }
  | return {s i val} (h : s.pc i = .returning val) :
      Step s .none { s.goTo i .outside with m := none }

/-- The queue as its constructor leaves it. -/
def initial : TSQueue ι T := ⟨[], none, fun _ => .outside⟩

/-! ### The invariant -/

/-- What holds in every state of the queue. -/
structure Sound [Fintype ι] (s : TSQueue ι T) : Prop where
  holder : ∀ i, (s.pc i).Inside ↔ s.m = some i
  front : ∀ i, s.pc i = .toPop → s.q ≠ []
  supply : (∃ i, s.pc i = .waiting) → s.q.length ≤ census Place.Coming s.pc

variable {s : TSQueue ι T} {i : ι} {p : Place T}

@[simp] lemma goTo_q : (s.goTo i p).q = s.q := rfl

@[simp] lemma goTo_m : (s.goTo i p).m = s.m := rfl

lemma goTo_pc (j : ι) : (s.goTo i p).pc j = if j = i then p else s.pc j :=
  Function.update_apply s.pc i p j

/-- A thread that stays where it is with respect to the mutex. -/
lemma holder_goTo (hs : ∀ j, (s.pc j).Inside ↔ s.m = some j)
    (hi : p.Inside ↔ (s.pc i).Inside) (j : ι) : ((s.goTo i p).pc j).Inside ↔ s.m = some j := by
  rw [goTo_pc]
  split
  case isTrue h => rw [h, hi, hs]
  case isFalse => exact hs j

/-- A thread that takes the free mutex. -/
lemma holder_lock (hs : ∀ j, (s.pc j).Inside ↔ s.m = some j) (hfree : s.m = none) (hp : p.Inside)
    (j : ι) : ((s.goTo i p).pc j).Inside ↔ some i = some j := by
  rw [goTo_pc]
  split
  case isTrue h => exact iff_of_true hp (by rw [h])
  case isFalse h =>
    rw [hs j, hfree]
    exact iff_of_false (Option.some_ne_none j).symm fun heq => h (Option.some.inj heq).symm

/-- The holder that gives it up. -/
lemma holder_unlock (hs : ∀ j, (s.pc j).Inside ↔ s.m = some j) (hi : (s.pc i).Inside)
    (hp : ¬ p.Inside) (j : ι) : ((s.goTo i p).pc j).Inside ↔ none = some j := by
  rw [goTo_pc]
  split
  case isTrue => exact iff_of_false hp (Option.some_ne_none j).symm
  case isFalse h =>
    have hm := (hs i).mp hi
    rw [hs j, hm]
    exact iff_of_false (fun heq => h (Option.some.inj heq).symm) (Option.some_ne_none j).symm

/-- The others still have elements in front of them. -/
lemma front_goTo (hs : ∀ j, s.pc j = .toPop → s.q ≠ []) (hp : p = .toPop → s.q ≠ []) (j : ι)
    (hj : (s.goTo i p).pc j = .toPop) : s.q ≠ [] := by
  rw [goTo_pc] at hj
  split at hj
  · exact hp hj
  · exact hs j hj

section Supply

variable [Fintype ι]

/-- A thread sets out. -/
lemma coming_enters (hi : ¬ (s.pc i).Coming) (hp : p.Coming) :
    census Place.Coming (s.goTo i p).pc = census Place.Coming s.pc + 1 := by
  have hmove := census_update Place.Coming s.pc i p
  rwa [if_neg hi, if_pos hp] at hmove

/-- A thread arrives. -/
lemma coming_leaves (hi : (s.pc i).Coming) (hp : ¬ p.Coming) :
    census Place.Coming (s.goTo i p).pc + 1 = census Place.Coming s.pc := by
  have hmove := census_update Place.Coming s.pc i p
  rwa [if_pos hi, if_neg hp] at hmove

omit [Fintype ι] in
/-- Another thread that sleeps did so before. -/
lemma waiting_of_goTo (hp : p ≠ .waiting) (h : ∃ j, (s.goTo i p).pc j = .waiting) :
    ∃ j, s.pc j = .waiting := by
  obtain ⟨j, hj⟩ := h
  rw [goTo_pc] at hj
  split at hj
  · exact absurd hj hp
  · exact ⟨j, hj⟩

/-- A move to a place from which a thread is on its way if it was before. -/
lemma supply_goTo (hs : (∃ j, s.pc j = .waiting) → s.q.length ≤ census Place.Coming s.pc)
    (hp : p ≠ .waiting) (hcoming : (s.pc i).Coming → p.Coming)
    (h : ∃ j, (s.goTo i p).pc j = .waiting) :
    s.q.length ≤ census Place.Coming (s.goTo i p).pc := by
  have hmove := census_update Place.Coming s.pc i p
  change census Place.Coming (s.goTo i p).pc + _ = _ at hmove
  have hle := hs (waiting_of_goTo hp h)
  by_cases hi : (s.pc i).Coming
  · rw [if_pos hi, if_pos (hcoming hi)] at hmove
    omega
  · rw [if_neg hi] at hmove
    omega

/-- **Every step keeps the invariant.** -/
theorem sound_step {t : TSQueue ι T} {e : QueueEvent T} (hs : s.Sound) (h : Step s e t) :
    t.Sound := by
  obtain ⟨hholder, hfront, hsupply⟩ := hs
  cases h with
  | callEnqueue v h =>
      exact ⟨holder_goTo hholder (by rw [h]; exact Iff.rfl), front_goTo hfront (by simp),
        supply_goTo hsupply (by simp) (by rw [h]; exact id)⟩
  | lockEnqueue h hfree =>
      exact ⟨holder_lock hholder hfree trivial, front_goTo hfront (by simp),
        supply_goTo hsupply (by simp) (by rw [h]; exact id)⟩
  | @push i v h =>
      refine ⟨holder_goTo hholder (by rw [h]; exact Iff.rfl), fun _ _ => by simp, fun hw => ?_⟩
      -- the element has its own thread on the way, the one that will notify
      have hmove := coming_enters (s := s) (i := i) (p := .toNotify) (by rw [h]; exact id) trivial
      have hle := hsupply (waiting_of_goTo (i := i) (p := .toNotify) (by simp) hw)
      change (s.q ++ [v]).length ≤ census Place.Coming (s.goTo i .toNotify).pc
      rw [List.length_append, List.length_singleton]
      omega
  | @notify i j h hj =>
      have hij : i ≠ j := fun heq => by rw [heq, hj] at h; cases h
      have hi : ((s.goTo j .woken).pc i) = .toNotify := by rw [goTo_pc, if_neg hij, h]
      refine ⟨holder_goTo (holder_goTo hholder (by rw [hj]; exact Iff.rfl))
        (by rw [hi]; exact Iff.rfl), front_goTo (front_goTo hfront (by simp)) (by simp),
        fun hw => ?_⟩
      -- the thread that is woken takes the place of the one that woke it
      have hwoken := coming_enters (s := s) (i := j) (p := .woken) (by rw [hj]; exact id) trivial
      have hleft := coming_leaves (s := s.goTo j .woken) (i := i) (p := .leaving)
        (by rw [hi]; trivial) id
      have hle := hsupply (waiting_of_goTo (i := j) (p := .woken) (by simp)
        (waiting_of_goTo (i := i) (p := .leaving) (by simp) hw))
      change s.q.length ≤ census Place.Coming ((s.goTo j .woken).goTo i .leaving).pc
      omega
  | @notifyNone i h hnone =>
      refine ⟨holder_goTo hholder (by rw [h]; exact Iff.rfl), front_goTo hfront (by simp),
        fun hw => ?_⟩
      obtain ⟨j, hj⟩ := waiting_of_goTo (i := i) (p := .leaving) (by simp) hw
      exact absurd hj (hnone j)
  | unlock h =>
      exact ⟨holder_unlock hholder (by rw [h]; trivial) id, front_goTo hfront (by simp),
        supply_goTo hsupply (by simp) (by rw [h]; exact id)⟩
  | callDequeue h =>
      exact ⟨holder_goTo hholder (by rw [h]; exact Iff.rfl), front_goTo hfront (by simp),
        supply_goTo hsupply (by simp) (by rw [h]; exact id)⟩
  | lockDequeue h hfree =>
      exact ⟨holder_lock hholder hfree trivial, front_goTo hfront (by simp),
        supply_goTo hsupply (by simp) (by rw [h]; exact fun hc => hc.elim)⟩
  | wait h hempty =>
      refine ⟨holder_unlock hholder (by rw [h]; trivial) id, front_goTo hfront (by simp),
        fun _ => ?_⟩
      change s.q.length ≤ _
      rw [hempty]
      exact Nat.zero_le _
  | wake h =>
      exact ⟨holder_goTo hholder (by rw [h]; exact Iff.rfl), front_goTo hfront (by simp),
        supply_goTo hsupply (by simp) (by rw [h]; exact fun hc => hc.elim)⟩
  | relock h hfree =>
      exact ⟨holder_lock hholder hfree trivial, front_goTo hfront (by simp),
        supply_goTo hsupply (by simp) fun _ => trivial⟩
  | found h hsome =>
      exact ⟨holder_goTo hholder (by rw [h]; exact Iff.rfl), front_goTo hfront fun _ => hsome,
        supply_goTo hsupply (by simp) fun _ => trivial⟩
  | @pop i val rest h hq =>
      have hinside : ((Place.returning val : Place T).Inside) ↔ (s.pc i).Inside := by
        rw [h]
        exact Iff.rfl
      refine ⟨holder_goTo hholder hinside, fun j hj => ?_, fun hw => ?_⟩
      · -- no other thread is inside
        have hj' : (s.goTo i (.returning val)).pc j = .toPop := hj
        rw [goTo_pc] at hj'
        split at hj'
        case isTrue => cases hj'
        case isFalse hne =>
          have hmi := (hholder i).mp (by rw [h]; trivial)
          have hmj := (hholder j).mp (by rw [hj']; trivial)
          exact absurd (Option.some.inj (hmj.symm.trans hmi)) hne
      · have hmove := coming_leaves (s := s) (i := i) (p := .returning val)
          (by rw [h]; trivial) id
        have hle := hsupply (waiting_of_goTo (i := i) (p := .returning val) (by simp) hw)
        rw [hq, List.length_cons] at hle
        change rest.length ≤ census Place.Coming (s.goTo i (.returning val)).pc
        omega
  | «return» h =>
      exact ⟨holder_unlock hholder (by rw [h]; trivial) id, front_goTo hfront (by simp),
        supply_goTo hsupply (by simp) (by rw [h]; exact id)⟩

omit [DecidableEq ι] in
lemma sound_initial : (initial : TSQueue ι T).Sound where
  holder i := iff_of_false id (Option.some_ne_none i).symm
  front i h := by cases h
  supply h := by
    obtain ⟨i, hi⟩ := h
    cases hi

end Supply

/-! ### Runs -/

/-- The element that a step puts into the queue. -/
def pushed (x : TraceStep (TSQueue ι T) (QueueEvent T)) : Option T :=
  match x.label with
  | .pushed t => some t
  | _ => none

/-- The element that a step takes from the queue. -/
def popped (x : TraceStep (TSQueue ι T) (QueueEvent T)) : Option T :=
  match x.label with
  | .popped val => some val
  | _ => none

/-- What a step does to the elements. -/
lemma q_of_step {s t : TSQueue ι T} {e : QueueEvent T} (h : Step s e t) :
    s.q ++ (pushed ⟨s, e, t⟩).toList = (popped ⟨s, e, t⟩).toList ++ t.q := by
  cases h with
  | push => rfl
  | pop _ hq => exact (List.append_nil s.q).trans hq
  | _ => exact List.append_nil s.q

/-- **In order, none lost, none twice.**  In every run of any number of threads the elements taken
from the queue, followed by those left in it, are the elements put into it in the order in which
they were put; and where a thread calls `front` there is one. -/
theorem tsqueue_fifo [Fintype ι] {steps : List (TraceStep (TSQueue ι T) (QueueEvent T))}
    (h : Trace Step (initial : TSQueue ι T) steps) :
    steps.filterMap pushed = steps.filterMap popped ++ (Trace.final initial steps).q ∧
      ∀ x ∈ steps, (∀ i j, (x.post.pc i).Inside → (x.post.pc j).Inside → i = j) ∧
        ∀ i, x.post.pc i = .toPop → x.post.q ≠ [] := by
  refine ⟨h.queue_append q_of_step, fun x hx => ?_⟩
  have hsound := (Trace.invariant (C := fun _ => True) (Q := fun _ => True)
    (fun hs hst _ => ⟨sound_step hs hst, trivial⟩) h sound_initial (fun _ _ => trivial) x hx).2.1
  refine ⟨fun i j hi hj => ?_, hsound.front⟩
  have hm := ((hsound.holder i).mp hi).symm.trans ((hsound.holder j).mp hj)
  exact Option.some.inj hm

/-- A thread sleeps until another one brings it an element. -/
theorem tsqueue_fifo_handed : ∃ steps : List (TraceStep (TSQueue Bool ℕ) (QueueEvent ℕ)),
    steps.filterMap popped = [7] ∧
      steps.filterMap pushed = steps.filterMap popped ++ (Trace.final initial steps).q ∧
      ∀ x ∈ steps, (∀ i j, (x.post.pc i).Inside → (x.post.pc j).Inside → i = j) ∧
        ∀ i, x.post.pc i = .toPop → x.post.q ≠ [] := by
  refine ⟨_, ?_, tsqueue_fifo <|
    .cons (.callDequeue (i := true) rfl) <| .cons (.lockDequeue (i := true) rfl rfl) <|
    .cons (.wait (i := true) rfl rfl) <| .cons (.callEnqueue (i := false) 7 rfl) <|
    .cons (.lockEnqueue (i := false) rfl rfl) <| .cons (.push (i := false) rfl) <|
    .cons (.notify (i := false) (j := true) rfl rfl) <| .cons (.unlock (i := false) rfl) <|
    .cons (.relock (i := true) rfl rfl) <| .cons (.found (i := true) rfl (by decide)) <|
    .cons (.pop (i := true) rfl rfl) <| .cons (.return (i := true) rfl) <| .nil _⟩
  rfl

/-- No thread can move: calling a method and waking for no reason aside. -/
def Settled (s : TSQueue ι T) : Prop :=
  ∀ e t, Step s e t → ∃ i, (∃ v, t = s.goTo i (.toEnqueue v)) ∨ t = s.goTo i .toDequeue ∨
    t = s.goTo i .woken

/-- In a settled queue a thread does not leave its place. -/
lemma Settled.not_moved {s t : TSQueue ι T} {e : QueueEvent T} {i : ι} (hs : s.Settled)
    (h : Step s e t) (hmoved : t.pc i ≠ s.pc i) :
    (∃ v, t.pc i = .toEnqueue v) ∨ t.pc i = .toDequeue ∨ t.pc i = .woken := by
  have hplace {j : ι} {p : Place T} (heq : t = s.goTo j p) : t.pc i = p := by
    rw [heq, goTo_pc] at hmoved ⊢
    split at hmoved
    case isTrue hij => exact if_pos hij
    case isFalse => exact absurd rfl hmoved
  obtain ⟨j, ⟨v, heq⟩ | heq | heq⟩ := hs e t h
  · exact .inl ⟨v, hplace heq⟩
  · exact .inr (.inl (hplace heq))
  · exact .inr (.inr (hplace heq))

/-- A settled queue does not let a thread go on to a place beyond the first. -/
lemma Settled.not_step {s t : TSQueue ι T} {e : QueueEvent T} {i : ι} {p : Place T}
    (hs : s.Settled) (h : Step s e t) (hp : t.pc i = p) (hmoved : p ≠ s.pc i)
    (hbeyond : (∀ v, p ≠ .toEnqueue v) ∧ p ≠ .toDequeue ∧ p ≠ .woken) : False := by
  have hplace := hs.not_moved h (hp ▸ hmoved)
  rw [hp] at hplace
  rcases hplace with ⟨v, hv⟩ | hv | hv
  · exact hbeyond.1 v hv
  · exact hbeyond.2.1 hv
  · exact hbeyond.2.2 hv

/-- The holder of the mutex can go on. -/
lemma Settled.not_inside {s : TSQueue ι T} {i : ι} [Fintype ι] (hs : s.Settled) (hsound : s.Sound) :
    ¬ (s.pc i).Inside := by
  have hself (p : Place T) : (s.goTo i p).pc i = p := by rw [goTo_pc, if_pos rfl]
  intro hinside
  cases hpc : s.pc i with
  | toPush v => exact hs.not_step (.push hpc) (hself _) (by simp [hpc]) (by simp)
  | toNotify =>
      by_cases hw : ∃ j, s.pc j = .waiting
      · obtain ⟨j, hj⟩ := hw
        refine hs.not_step (i := i) (.notify hpc hj) (p := .leaving) ?_ (by simp [hpc]) (by simp)
        rw [goTo_pc, if_pos rfl]
      · exact hs.not_step (.notifyNone hpc (not_exists.mp hw)) (hself _) (by simp [hpc]) (by simp)
  | leaving => exact hs.not_step (.unlock hpc) (hself _) (by simp [hpc]) (by simp)
  | testing =>
      by_cases hq : s.q = []
      · exact hs.not_step (.wait hpc hq) (hself _) (by simp [hpc]) (by simp)
      · exact hs.not_step (.found hpc hq) (hself _) (by simp [hpc]) (by simp)
  | toPop =>
      obtain ⟨v, rest, hq⟩ := List.exists_cons_of_ne_nil (hsound.front i hpc)
      exact hs.not_step (.pop hpc hq) (hself _) (by simp [hpc]) (by simp)
  | returning v => exact hs.not_step (.return hpc) (hself _) (by simp [hpc]) (by simp)
  | outside => rw [hpc] at hinside; exact hinside
  | toEnqueue v => rw [hpc] at hinside; exact hinside
  | toDequeue => rw [hpc] at hinside; exact hinside
  | waiting => rw [hpc] at hinside; exact hinside
  | woken => rw [hpc] at hinside; exact hinside

/-- **No wakeup is lost.**  In every state that any number of threads reach, as long as a thread
sleeps there are at least as many threads on their way, or about to wake one, as there are elements;
and if no thread can move, the mutex is free, every thread is outside of the queue or asleep, and if
one is asleep the queue is empty. -/
theorem tsqueue_settled [Fintype ι] {steps : List (TraceStep (TSQueue ι T) (QueueEvent T))}
    (h : Trace Step (initial : TSQueue ι T) steps) {s : TSQueue ι T}
    (hs : s = Trace.final initial steps) :
    ((∃ i, s.pc i = .waiting) → s.q.length ≤ census Place.Coming s.pc) ∧
      (s.Settled → s.m = none ∧ (∀ i, s.pc i = .outside ∨ s.pc i = .waiting) ∧
        ((∃ i, s.pc i = .waiting) → s.q = [])) := by
  have hsound : s.Sound := hs ▸ Trace.final_of_invariant (I := Sound) sound_step h sound_initial
  refine ⟨hsound.supply, fun hsettled => ?_⟩
  have hself (i : ι) (p : Place T) : (s.goTo i p).pc i = p := by rw [goTo_pc, if_pos rfl]
  have hfree : s.m = none := by
    by_contra hheld
    obtain ⟨i, hi⟩ := Option.ne_none_iff_exists'.mp hheld
    exact hsettled.not_inside hsound ((hsound.holder i).mpr hi)
  have hplaces (i : ι) : s.pc i = .outside ∨ s.pc i = .waiting := by
    have hinside := hsettled.not_inside hsound (i := i)
    cases hpc : s.pc i with
    | outside => exact .inl rfl
    | waiting => exact .inr rfl
    | toEnqueue v =>
        exact (hsettled.not_step (.lockEnqueue hpc hfree) (hself i _) (by simp [hpc])
          (by simp)).elim
    | toDequeue =>
        exact (hsettled.not_step (.lockDequeue hpc hfree) (hself i _) (by simp [hpc])
          (by simp)).elim
    | woken =>
        exact (hsettled.not_step (.relock hpc hfree) (hself i _) (by simp [hpc]) (by simp)).elim
    | _ =>
        rw [hpc] at hinside
        exact (hinside trivial).elim
  refine ⟨hfree, hplaces, fun hw => ?_⟩
  by_contra hsome
  have hlength := List.length_pos_iff.mpr hsome
  obtain ⟨i, hi⟩ := exists_of_census_pos Place.Coming (hlength.trans_le (hsound.supply hw))
  rcases hplaces i with hpc | hpc
  · rw [hpc] at hi
    exact hi
  · rw [hpc] at hi
    exact hi

/-- A thread that sleeps in front of an empty queue. -/
theorem tsqueue_settled_asleep : ∃ s : TSQueue Bool ℕ, s.pc true = .waiting ∧
    ((∃ i, s.pc i = .waiting) → s.q.length ≤ census Place.Coming s.pc) ∧
      (s.Settled → s.m = none ∧ (∀ i, s.pc i = .outside ∨ s.pc i = .waiting) ∧
        ((∃ i, s.pc i = .waiting) → s.q = [])) :=
  ⟨_, by rfl, tsqueue_settled (.cons (.callDequeue (i := true) rfl) <|
    .cons (.lockDequeue (i := true) rfl rfl) <| .cons (.wait (i := true) rfl rfl) <| .nil _) rfl⟩

/-! ### One reader -/

/-- A step of a queue with one reader, which calls `dequeue` only after `isEmpty` has told it that
there is an element.  The test takes no lock, so that other threads go on between it and the
call; it is one read here, although the queue is not an atomic object. -/
inductive ReaderStep (r : ι) : TSQueue ι T × Bool → QueueEvent T → TSQueue ι T × Bool → Prop where
  | isEmpty {s : TSQueue ι T} {seen : Bool} (h : s.pc r = .outside) :
      ReaderStep r (s, seen) .none (s, !s.q.isEmpty)
  | dequeue {s : TSQueue ι T} (h : s.pc r = .outside) :
      ReaderStep r (s, true) .none (s.goTo r .toDequeue, false)
  | other {s t : TSQueue ι T} {seen : Bool} {e : QueueEvent T} (h : Step s e t)
      (hcalls : ∀ i, s.pc i = .outside → t.pc i ≠ .toDequeue) :
      ReaderStep r (s, seen) e (t, seen)

/-- What holds in every state of a queue with one reader. -/
structure ReaderSound (r : ι) (x : TSQueue ι T × Bool) : Prop where
  others : ∀ i, i ≠ r → ¬ (x.1.pc i).Reading
  seen : x.2 = true → ¬ (x.1.pc r).Reading ∧ x.1.q ≠ []
  awake : x.1.pc r ≠ .waiting ∧ x.1.pc r ≠ .woken
  some : (x.1.pc r).Reading → x.1.q ≠ []

section Reader

variable {r : ι} {seen : Bool} {t : TSQueue ι T} {e : QueueEvent T}

/-- A thread that goes on without taking an element. -/
lemma ReaderSound.move (hs : ReaderSound r (s, seen)) (hpc : t.pc = (s.goTo i p).pc)
    (hp : p.Reading → (s.pc i).Reading) (hawake : p ≠ .waiting ∧ p ≠ .woken)
    (hq : s.q ≠ [] → t.q ≠ []) : ReaderSound r (t, seen) := by
  have hplace (j : ι) : t.pc j = if j = i then p else s.pc j := by rw [hpc, goTo_pc]
  have hreading (j : ι) (hj : (t.pc j).Reading) : (s.pc j).Reading := by
    rw [hplace] at hj
    split at hj
    case isTrue h => exact h ▸ hp hj
    case isFalse => exact hj
  refine ⟨fun j hj h => hs.others j hj (hreading j h), fun hseen => ?_, ?_, fun h => ?_⟩
  · exact ⟨fun h => (hs.seen hseen).1 (hreading r h), hq (hs.seen hseen).2⟩
  · change t.pc r ≠ _ ∧ t.pc r ≠ _
    rw [hplace]
    split
    case isTrue => exact hawake
    case isFalse => exact hs.awake
  · exact hq (hs.some (hreading r h))

/-- No thread sleeps, and none wakes up. -/
lemma ReaderSound.not_asleep (hs : ReaderSound r (s, seen)) (i : ι) :
    s.pc i ≠ .waiting ∧ s.pc i ≠ .woken := by
  by_cases hi : i = r
  · rw [hi]
    exact hs.awake
  · have hothers := hs.others i hi
    exact ⟨fun h => hothers (by rw [h]; trivial), fun h => hothers (by rw [h]; trivial)⟩

/-- **A step of a queue with one reader**, one case for each. -/
lemma readerSound_step {x y : TSQueue ι T × Bool} (hx : ReaderSound r x)
    (h : ReaderStep r x e y) : ReaderSound r y := by
  cases h with
  | isEmpty h =>
      refine ⟨hx.others, fun hseen => ⟨by rw [h]; exact id, fun hq => ?_⟩, hx.awake, hx.some⟩
      simp only [Bool.not_eq_true', List.isEmpty_eq_false_iff] at hseen
      exact hseen hq
  | @dequeue s h =>
      have hself : (s.goTo r (.toDequeue : Place T)).pc r = .toDequeue := by
        rw [goTo_pc, if_pos rfl]
      refine ⟨fun i hi => ?_, fun hseen => absurd hseen Bool.false_ne_true, ?_, fun _ => ?_⟩
      · change ¬ ((s.goTo r .toDequeue).pc i).Reading
        rw [goTo_pc, if_neg hi]
        exact hx.others i hi
      · change (s.goTo r .toDequeue).pc r ≠ _ ∧ (s.goTo r .toDequeue).pc r ≠ _
        rw [hself]
        simp
      · exact (hx.seen rfl).2
  | @other s t seen _ h hcalls =>
      cases h with
      | callDequeue h => exact absurd (by rw [goTo_pc, if_pos rfl]) (hcalls _ h)
      | wait h hempty =>
          refine absurd hempty ?_
          rename_i i
          by_cases hi : i = r
          · exact hx.some (by rw [← hi, h]; trivial)
          · exact absurd (by rw [h]; trivial) (hx.others i hi)
      | wake h => exact absurd h (hx.not_asleep _).1
      | relock h => exact absurd h (hx.not_asleep _).2
      | notify _ hj => exact absurd hj (hx.not_asleep _).1
      | @pop i val rest h hq =>
          have hi : i = r := by
            by_contra hi
            exact hx.others i hi (by rw [h]; trivial)
          subst hi
          have hself : (s.goTo i (.returning val)).pc i = .returning val := by
            rw [goTo_pc, if_pos rfl]
          refine ⟨fun j hj => ?_, fun hseen => ?_, ?_, fun hread => ?_⟩
          · change ¬ ((s.goTo i (.returning val)).pc j).Reading
            rw [goTo_pc, if_neg hj]
            exact hx.others j hj
          · exact absurd (by rw [h]; trivial) (hx.seen hseen).1
          · change (s.goTo i (.returning val)).pc i ≠ _ ∧ (s.goTo i (.returning val)).pc i ≠ _
            rw [hself]
            simp
          · change ((s.goTo i (.returning val)).pc i).Reading at hread
            rw [hself] at hread
            exact hread.elim
      | push => exact hx.move rfl False.elim (by simp) fun _ => by simp
      | lockDequeue h => exact hx.move rfl (by rw [h]; exact id) (by simp) id
      | found h => exact hx.move rfl (by rw [h]; exact id) (by simp) id
      | _ => exact hx.move rfl False.elim (by simp) id

/-- **The reader never waits.**  In every run in which a single thread takes elements, and does so
only after it has seen that there is one, that thread never sleeps in `dequeue` and finds an element
wherever it looks for one, however the threads that put elements in are interleaved with it. -/
theorem reader_never_waits {steps : List (TraceStep (TSQueue ι T × Bool) (QueueEvent T))}
    (h : Trace (ReaderStep r) ((initial : TSQueue ι T), false) steps) :
    ∀ x ∈ steps, x.post.1.pc r ≠ .waiting ∧ (x.post.1.pc r = .testing → x.post.1.q ≠ []) := by
  have hinitial : ReaderSound r ((initial : TSQueue ι T), false) :=
    ⟨fun _ _ => id, fun h => absurd h Bool.false_ne_true, by simp [initial], False.elim⟩
  have hsound := Trace.invariant (C := fun _ => True) (Q := fun _ => True)
    (fun hs hst _ => ⟨readerSound_step hs hst, trivial⟩) h hinitial fun _ _ => trivial
  refine fun x hx => ⟨(hsound x hx).2.1.awake.1, fun htesting => ?_⟩
  exact (hsound x hx).2.1.some (by rw [htesting]; trivial)

end Reader

/-- A reader that looks first, and then takes what another thread has brought. -/
theorem reader_never_waits_looking :
    ∃ steps : List (TraceStep (TSQueue Bool ℕ × Bool) (QueueEvent ℕ)), steps.length = 10 ∧
      ∀ x ∈ steps, x.post.1.pc true ≠ .waiting ∧ (x.post.1.pc true = .testing → x.post.1.q ≠ []) :=
  ⟨_, by rfl, reader_never_waits <|
    .cons (.isEmpty rfl) <|
    .cons (.other (.callEnqueue (i := false) 7 rfl) (by decide)) <|
    .cons (.other (.lockEnqueue (i := false) rfl rfl) (by decide)) <|
    .cons (.other (.push (i := false) rfl) (by decide)) <|
    .cons (.isEmpty rfl) <|
    .cons (.dequeue rfl) <|
    .cons (.other (.notifyNone (i := false) rfl (by decide)) (by decide)) <|
    .cons (.other (.unlock (i := false) rfl) (by decide)) <|
    .cons (.other (.lockDequeue (i := true) rfl rfl) (by decide)) <|
    .cons (.other (.found (i := true) rfl (by decide)) (by decide)) <| .nil _⟩

end TSQueue

end KM10
