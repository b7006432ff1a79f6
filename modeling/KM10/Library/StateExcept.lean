import Mathlib.Logic.Basic
import Mathlib.Order.Defs.Unbundled

/-!
Stateful computations that may fail: `StateT σ (Except ε) α`, read as a program over a
state `σ` that returns normally with a new state or stops with a fault of type `ε`.

Five properties of such programs are closed under sequencing, so that each is proved once
for the primitives and then follows from the shape of a program.  All but `Carries` are
classes, and their closure rules are instances: instance resolution walks the program.

* `Frames R m`: every normal return of `m` moves the state along the relation `R`
  (a frame condition when `R` says which parts are kept);
* `Carries g g' m`: running `m` turns the change of state `g` before it into `g'` after it, so
  that `m` reads nothing that `g` changes;
* `Safe P E m`: from states with `P`, no run of `m` stops with a fault in `E`;
* `Faults P E m`: from states with `P`, every run of `m` stops with a fault in `E`;
* `Returns P m`: every value `m` returns satisfies `P`.

`run_bind_of_ok` and `ok_of_run_bind` run a sequence forwards and take one apart.
-/

namespace StateExcept

variable {σ ε α β : Type}

/-- The value of `f` at the current state. -/
def gets (f : σ → α) : StateT σ (Except ε) α := fun s => .ok (f s, s)

/-! ### Running a sequence -/

@[simp] lemma run_gets (f : σ → α) (s : σ) :
    (gets f : StateT σ (Except ε) α).run s = .ok (f s, s) := rfl

/-- A sequence runs on from the state in which its first part returns. -/
lemma run_bind_of_ok {m : StateT σ (Except ε) α} {f : α → StateT σ (Except ε) β}
    {s t : σ} {a : α} (h : m.run s = .ok (a, t)) : (m >>= f).run s = (f a).run t := by
  rw [StateT.run_bind, h]
  rfl

/-- A sequence stops where its first part stops. -/
lemma run_bind_of_error {m : StateT σ (Except ε) α} {f : α → StateT σ (Except ε) β}
    {s : σ} {e : ε} (h : m.run s = .error e) : (m >>= f).run s = .error e := by
  rw [StateT.run_bind, h]
  rfl

/-- A computation without a state that returns has returning parts. -/
lemma ok_of_bind {m : Except ε α} {f : α → Except ε β} {b : β} (h : (m >>= f) = .ok b) :
    ∃ a, m = .ok a ∧ f a = .ok b := by
  cases m with
  | error e => cases h
  | ok a => exact ⟨a, rfl, h⟩

/-- A sequence that returns has returned from its first part on the way. -/
lemma ok_of_run_bind {m : StateT σ (Except ε) α} {f : α → StateT σ (Except ε) β}
    {s u : σ} {b : β} (h : (m >>= f).run s = .ok (b, u)) :
    ∃ a t, m.run s = .ok (a, t) ∧ (f a).run t = .ok (b, u) := by
  cases hm : m.run s with
  | error e => rw [run_bind_of_error hm] at h; cases h
  | ok p => exact ⟨p.1, p.2, rfl, by rwa [run_bind_of_ok hm] at h⟩

/-- The value that a run returned and an observation of the state after it. -/
def observed {β : Type} (f : σ → β) : Except ε (α × σ) → Option (α × β)
  | .ok p => some (p.1, f p.2)
  | .error _ => none

/-- A run that returned a value and left an observation. -/
lemma exists_of_observed {f : σ → β} {m : StateT σ (Except ε) α} {s : σ} {a : α} {b : β}
    (h : observed f (m.run s) = some (a, b)) : ∃ t, m.run s = .ok (a, t) ∧ f t = b := by
  cases hm : m.run s with
  | error e => rw [hm] at h; cases h
  | ok p =>
      rw [hm] at h
      cases h
      exact ⟨p.2, rfl, rfl⟩

/-- A run that returned a value, whatever state it left. -/
lemma exists_of_returned {m : StateT σ (Except ε) α} {s : σ} {a : α}
    (h : observed (fun _ => ()) (m.run s) = some (a, ())) : ∃ t, m.run s = .ok (a, t) := by
  obtain ⟨t, ht, -⟩ := exists_of_observed h
  exact ⟨t, ht⟩

/-- The state in which a run returned, or the one in which it began. -/
def final (m : StateT σ (Except ε) α) (s : σ) : σ :=
  match m.run s with
  | .ok p => p.2
  | .error _ => s

lemma final_of_run {m : StateT σ (Except ε) α} {s t : σ} {a : α} (h : m.run s = .ok (a, t)) :
    final m s = t := by
  rw [final, h]

/-- A run that returned a value did so in its final state. -/
lemma run_eq_of_returned {m : StateT σ (Except ε) α} {s : σ} {a : α}
    (h : observed (fun _ => ()) (m.run s) = some (a, ())) : m.run s = .ok (a, final m s) := by
  obtain ⟨t, ht⟩ := exists_of_returned h
  rw [final, ht]

/-- The fault with which a run stopped, if it did. -/
def stopped : Except ε α → Option ε
  | .ok _ => none
  | .error e => some e

/-- A run that stopped with a fault. -/
lemma error_of_stopped {r : Except ε α} {e : ε} (h : stopped r = some e) : r = .error e := by
  cases r with
  | ok a => cases h
  | error e' => exact congrArg Except.error (Option.some.inj h)

/-! ### Frame conditions -/

/-- Every normal return of `m` moves the state along `R`. -/
class Frames (R : σ → σ → Prop) (m : StateT σ (Except ε) α) : Prop where
  out : ∀ {s a t}, m.run s = .ok (a, t) → R s t

namespace Frames

variable (R : σ → σ → Prop)

instance pure [Std.Refl R] (a : α) : Frames R (Pure.pure a : StateT σ (Except ε) α) where
  out := by
    intro s b t h
    cases h
    exact Std.Refl.refl s

instance gets [Std.Refl R] (f : σ → α) :
    Frames R (StateExcept.gets f : StateT σ (Except ε) α) where
  out := by
    intro s b t h
    cases h
    exact Std.Refl.refl s

instance throw (e : ε) : Frames R (MonadExcept.throw e : StateT σ (Except ε) α) where
  out := by
    intro s b t h
    cases h

instance bind [IsTrans σ R] (m : StateT σ (Except ε) α) (f : α → StateT σ (Except ε) β)
    [hm : Frames R m] [hf : ∀ a, Frames R (f a)] : Frames R (m >>= f) where
  out := by
    intro s b u h
    obtain ⟨a, t, hst, htu⟩ := ok_of_run_bind h
    exact IsTrans.trans _ _ _ (hm.out hst) ((hf a).out htu)

instance ite (c : Prop) [Decidable c] (m n : StateT σ (Except ε) α)
    [hm : Frames R m] [hn : Frames R n] : Frames R (if c then m else n) := by
  split
  · exact hm
  · exact hn

/-- An update of the state is framed by `R` when it moves every state along `R`. -/
lemma modify {u : σ → σ} (h : ∀ s, R s (u s)) :
    Frames R (modify u : StateT σ (Except ε) PUnit) where
  out := by
    intro s b t hst
    cases hst
    exact h s

end Frames

/-! ### Changes of the state that a program carries along -/

/-- Running `m` after the change of state `g` is running `m` and then changing the state by
`g'`. -/
structure Carries (g g' : σ → σ) (m : StateT σ (Except ε) α) : Prop where
  out : ∀ s, m.run (g s) = (m.run s).map (Prod.map id g')

namespace Carries

variable {g g' g'' : σ → σ}

lemma pure (a : α) : Carries g g (Pure.pure a : StateT σ (Except ε) α) := ⟨fun _ => rfl⟩

lemma throw (e : ε) : Carries g g' (MonadExcept.throw e : StateT σ (Except ε) α) :=
  ⟨fun _ => rfl⟩

/-- A reading that does not see the change. -/
lemma gets {f : σ → α} (h : ∀ s, f (g s) = f s) :
    Carries g g (StateExcept.gets f : StateT σ (Except ε) α) where
  out := fun s => by
    change Except.ok (f (g s), g s) = Except.ok (f s, g s)
    rw [h s]

/-- An update that turns one change into the other. -/
lemma modify {u : σ → σ} (h : ∀ s, u (g s) = g' (u s)) :
    Carries g g' (modify u : StateT σ (Except ε) PUnit) where
  out := fun s => by
    change Except.ok (PUnit.unit, u (g s)) = Except.ok (PUnit.unit, g' (u s))
    rw [h s]

lemma bind {m : StateT σ (Except ε) α} {f : α → StateT σ (Except ε) β} (hm : Carries g g' m)
    (hf : ∀ a, Carries g' g'' (f a)) : Carries g g'' (m >>= f) where
  out := fun s => by
    cases h : m.run s with
    | error e =>
        have hg : m.run (g s) = .error e := by rw [hm.out, h]; rfl
        rw [run_bind_of_error h, run_bind_of_error hg]
        rfl
    | ok p =>
        have hg : m.run (g s) = .ok (p.1, g' p.2) := by rw [hm.out, h]; rfl
        rw [run_bind_of_ok h, run_bind_of_ok hg, (hf p.1).out p.2]

lemma ite {c : Prop} [Decidable c] {m n : StateT σ (Except ε) α} (hm : Carries g g' m)
    (hn : Carries g g' n) : Carries g g' (if c then m else n) := by
  split
  · exact hm
  · exact hn

end Carries

/-! ### Faults that cannot happen -/

/-- From a state with `P`, no run of `m` stops with a fault in `E`, and a normal return
leaves `P` true. -/
class Safe (P : σ → Prop) (E : ε → Prop) (m : StateT σ (Except ε) α) : Prop where
  error : ∀ {s e}, P s → m.run s = .error e → ¬ E e
  ok : ∀ {s a t}, P s → m.run s = .ok (a, t) → P t

namespace Safe

variable (P : σ → Prop) (E : ε → Prop)

instance pure (a : α) : Safe P E (Pure.pure a : StateT σ (Except ε) α) where
  error := by
    intro s e _ h
    cases h
  ok := by
    intro s b t hs h
    cases h
    exact hs

instance gets (f : σ → α) : Safe P E (StateExcept.gets f : StateT σ (Except ε) α) where
  error := by
    intro s e _ h
    cases h
  ok := by
    intro s b t hs h
    cases h
    exact hs

instance bind (m : StateT σ (Except ε) α) (f : α → StateT σ (Except ε) β)
    [hm : Safe P E m] [hf : ∀ a, Safe P E (f a)] : Safe P E (m >>= f) where
  error := by
    intro s e hs h
    cases hms : m.run s with
    | error e' =>
        rw [run_bind_of_error hms] at h
        cases h
        exact hm.error hs hms
    | ok p =>
        rw [run_bind_of_ok hms] at h
        exact (hf p.1).error (hm.ok hs hms) h
  ok := by
    intro s b u hs h
    obtain ⟨a, t, hst, htu⟩ := ok_of_run_bind h
    exact (hf a).ok (hm.ok hs hst) htu

instance ite (c : Prop) [Decidable c] (m n : StateT σ (Except ε) α)
    [hm : Safe P E m] [hn : Safe P E n] : Safe P E (if c then m else n) := by
  split
  · exact hm
  · exact hn

/-- An update of the state that keeps `P` is safe. -/
lemma modify {u : σ → σ} (h : ∀ s, P s → P (u s)) :
    Safe P E (modify u : StateT σ (Except ε) PUnit) where
  error := by
    intro s e _ he
    cases he
  ok := by
    intro s b t hs hst
    cases hst
    exact h s hs

/-- Stopping with a fault outside `E` is safe. -/
lemma throw {e : ε} (h : ¬ E e) : Safe P E (throw e : StateT σ (Except ε) α) where
  error := by
    intro s e' _ he
    cases he
    exact h
  ok := by
    intro s b t _ h
    cases h

end Safe

/-! ### Faults that do happen -/

/-- From a state with `P`, every run of `m` stops with a fault in `E`. -/
class Faults (P : σ → Prop) (E : ε → Prop) (m : StateT σ (Except ε) α) : Prop where
  out : ∀ {s}, P s → ∃ e, m.run s = .error e ∧ E e

namespace Faults

variable (P : σ → Prop) (E : ε → Prop)

/-- A sequence faults when its first part does. -/
instance bind_left (m : StateT σ (Except ε) α) (f : α → StateT σ (Except ε) β)
    [hm : Faults P E m] : Faults P E (m >>= f) where
  out := by
    intro s hs
    obtain ⟨e, he, hE⟩ := hm.out hs
    exact ⟨e, run_bind_of_error he, hE⟩

/-- A sequence faults when the rest does and its first part has no other faults. -/
instance bind_right (m : StateT σ (Except ε) α) (f : α → StateT σ (Except ε) β)
    [hm : Safe P (fun e => ¬ E e) m] [hf : ∀ a, Faults P E (f a)] : Faults P E (m >>= f) where
  out := by
    intro s hs
    cases h : m.run s with
    | error e => exact ⟨e, run_bind_of_error h, not_not.mp (hm.error hs h)⟩
    | ok p =>
        rw [run_bind_of_ok h]
        exact (hf p.1).out (hm.ok hs h)

instance ite (c : Prop) [Decidable c] (m n : StateT σ (Except ε) α)
    [hm : Faults P E m] [hn : Faults P E n] : Faults P E (if c then m else n) := by
  split
  · exact hm
  · exact hn

end Faults

/-! ### Returned values -/

/-- Every value that `m` returns satisfies `P`. -/
class Returns (P : α → Prop) (m : StateT σ (Except ε) α) : Prop where
  out : ∀ {s a t}, m.run s = .ok (a, t) → P a

namespace Returns

instance pure (P : α → Prop) (a : α) [h : Fact (P a)] :
    Returns P (Pure.pure a : StateT σ (Except ε) α) where
  out := by
    intro s b t hs
    cases hs
    exact h.out

instance bind (P : β → Prop) (m : StateT σ (Except ε) α) (f : α → StateT σ (Except ε) β)
    [hf : ∀ a, Returns P (f a)] : Returns P (m >>= f) where
  out := by
    intro s b u h
    obtain ⟨a, t, _, htu⟩ := ok_of_run_bind h
    exact (hf a).out htu

instance ite (P : α → Prop) (c : Prop) [Decidable c] (m n : StateT σ (Except ε) α)
    [hm : Returns P m] [hn : Returns P n] : Returns P (if c then m else n) := by
  split
  · exact hm
  · exact hn

/-- A sequence whose value depends on that of its first part. -/
lemma bind_of {P : α → Prop} {Q : β → Prop} {m : StateT σ (Except ε) α}
    {f : α → StateT σ (Except ε) β} (hm : Returns P m) (hf : ∀ a, P a → Returns Q (f a)) :
    Returns Q (m >>= f) where
  out := by
    intro s b u h
    obtain ⟨a, t, hst, htu⟩ := ok_of_run_bind h
    exact (hf a (hm.out hst)).out htu

end Returns

/-- A choice between two values with `P` has `P`. -/
instance fact_ite {P : α → Prop} {c : Prop} [Decidable c] {a b : α} [ha : Fact (P a)]
    [hb : Fact (P b)] : Fact (P (if c then a else b)) := by
  split
  · exact ha
  · exact hb

end StateExcept
