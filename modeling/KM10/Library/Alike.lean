import KM10.Library.StateExcept

/-!
Two runs of one program side by side.

* `Alike R x y`: two results are the same fault, or the same value with related states;
* `Respects R R' m`: from related states `m` gives such results; the closure rules follow the
  shape of a program;
* `Respects.of_carries`: so does a program that carries along the changes that relate them.
-/

namespace StateExcept

variable {σ ε α β : Type}

/-- Two results with the same fault, or with the same value and related states. -/
inductive Alike (R : σ → σ → Prop) : Except ε (α × σ) → Except ε (α × σ) → Prop where
  | error (e : ε) : Alike R (.error e) (.error e)
  | ok (a : α) {s t : σ} (h : R s t) : Alike R (.ok (a, s)) (.ok (a, t))

/-- The second result returns if the first one does. -/
lemma Alike.exists_ok {R : σ → σ → Prop} {a : α} {s : σ} {y : Except ε (α × σ)}
    (h : Alike R (.ok (a, s)) y) : ∃ t, y = .ok (a, t) ∧ R s t := by
  cases h with
  | ok _ h => exact ⟨_, rfl, h⟩

/-- From states related by `R`, the program gives the same value and states related by `R'`. -/
structure Respects (R R' : σ → σ → Prop) (m : StateT σ (Except ε) α) : Prop where
  out : ∀ {s t}, R s t → Alike R' (m.run s) (m.run t)

namespace Respects

variable {R R' R'' : σ → σ → Prop}

lemma pure (a : α) : Respects R R (Pure.pure a : StateT σ (Except ε) α) := ⟨fun h => .ok a h⟩

/-- An update that keeps the states related. -/
lemma modify {u : σ → σ} (h : ∀ {s t}, R s t → R' (u s) (u t)) :
    Respects R R' (modify u : StateT σ (Except ε) PUnit) := ⟨fun hst => .ok _ (h hst)⟩

lemma bind {m : StateT σ (Except ε) α} {f : α → StateT σ (Except ε) β} (hm : Respects R R' m)
    (hf : ∀ a, Respects R' R'' (f a)) : Respects R R'' (m >>= f) where
  out := fun {s t} hst => by
    have hfirst := hm.out hst
    generalize hs : m.run s = x at hfirst
    generalize ht : m.run t = y at hfirst
    cases hfirst with
    | error e =>
        rw [run_bind_of_error hs, run_bind_of_error ht]
        exact .error e
    | ok a h =>
        rw [run_bind_of_ok hs, run_bind_of_ok ht]
        exact (hf a).out h

/-- A run of a program that carries the change `g` along, and the run after the change. -/
lemma of_carries {m : StateT σ (Except ε) α}
    (h : ∀ {s t}, R s t → ∃ g g' : σ → σ, t = g s ∧ Carries g g' m ∧
      ∀ {a v}, m.run s = .ok (a, v) → R' v (g' v)) : Respects R R' m where
  out := fun {s t} hst => by
    obtain ⟨g, g', rfl, hcarries, hrelated⟩ := h hst
    rw [hcarries.out]
    cases hm : m.run s with
    | error e => exact .error e
    | ok p => exact .ok p.1 (hrelated hm)

end Respects

end StateExcept
