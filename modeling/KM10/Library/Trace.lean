import Mathlib.Logic.Function.Iterate
import Mathlib.Tactic.Common

/-!
Runs of a labelled step relation, kept with every state they pass through.

* `Trace R s steps`: the steps of a run of `R` from `s`, in order;
* `Trace.final`: the state in which they end, and `Trace.append_iff`, a run in two parts;
* `Trace.restrict`: a run whose steps all meet a condition is a run of such steps;
* `Trace.invariant`: what every step preserves holds along the run;
* `Trace.queue_append`: a queue that the steps add to and take from;
* `Trace.map`: a run seen through functions is a run of another relation;
* `Trace.final_eq_iterate`: what every step applies to what it shows;
* `Trace.exists_map_eq`: runs from related states show the same;
* `Trace.forall_iff`: when a condition on the steps decides step by step whether a property
  holds, it decides so for the run.
-/

variable {σ ε : Type*}

/-- One step of a run: the state before, the label, the state after. -/
structure TraceStep (σ ε : Type*) where
  pre : σ
  label : ε
  post : σ

/-- A run of `R` from a state, as the list of its steps. -/
inductive Trace (R : σ → ε → σ → Prop) : σ → List (TraceStep σ ε) → Prop where
  | nil (s : σ) : Trace R s []
  | cons {s t : σ} {e : ε} {steps : List (TraceStep σ ε)} (h : R s e t)
      (rest : Trace R t steps) : Trace R s (⟨s, e, t⟩ :: steps)

namespace Trace

variable {R : σ → ε → σ → Prop} {s : σ} {steps : List (TraceStep σ ε)}

/-- The state after some steps from `s`. -/
def final : σ → List (TraceStep σ ε) → σ
  | s, [] => s
  | _, x :: steps => final x.post steps

/-- A run in two parts. -/
lemma append_iff {xs ys : List (TraceStep σ ε)} :
    Trace R s (xs ++ ys) ↔ Trace R s xs ∧ Trace R (final s xs) ys := by
  induction xs generalizing s with
  | nil => exact ⟨fun h => ⟨.nil s, h⟩, fun h => h.2⟩
  | cons x xs ih =>
      constructor
      · intro h
        cases h with
        | cons hst rest => exact ⟨.cons hst (ih.mp rest).1, (ih.mp rest).2⟩
      · rintro ⟨h, hys⟩
        cases h with
        | cons hst rest => exact .cons hst (ih.mpr ⟨rest, hys⟩)

lemma final_append (s : σ) (xs ys : List (TraceStep σ ε)) :
    final s (xs ++ ys) = final (final s xs) ys := by
  induction xs generalizing s with
  | nil => rfl
  | cons x xs ih => exact ih x.post

/-- A run whose steps all meet a condition is a run of the steps that do. -/
lemma restrict {C : TraceStep σ ε → Prop} (h : Trace R s steps) (hC : ∀ x ∈ steps, C x) :
    Trace (fun s e t => R s e t ∧ C ⟨s, e, t⟩) s steps := by
  induction h with
  | nil => exact .nil _
  | cons hst _ ih =>
      rw [List.forall_mem_cons] at hC
      exact .cons ⟨hst, hC.1⟩ (ih hC.2)

/-- If every step with the condition `C` from a state with the invariant `I` ends in one and
has the property `Q`, all steps of a run whose steps meet `C` have `Q`, and `I` holds before
and after each of them. -/
theorem invariant {I : σ → Prop} {C Q : TraceStep σ ε → Prop}
    (hstep : ∀ {s e t}, I s → R s e t → C ⟨s, e, t⟩ → I t ∧ Q ⟨s, e, t⟩)
    (h : Trace R s steps) (hs : I s) (hC : ∀ x ∈ steps, C x) :
    ∀ x ∈ steps, I x.pre ∧ I x.post ∧ Q x := by
  induction h with
  | nil => exact fun x hx => absurd hx List.not_mem_nil
  | cons hst _ ih =>
      rw [List.forall_mem_cons] at hC ⊢
      obtain ⟨ht, hQ⟩ := hstep hs hst hC.1
      exact ⟨⟨hs, ht, hQ⟩, ih ht hC.2⟩

/-- What every step preserves holds in the end. -/
lemma final_of_invariant {I : σ → Prop} (hstep : ∀ {s e t}, I s → R s e t → I t)
    (h : Trace R s steps) (hs : I s) : I (final s steps) := by
  induction h with
  | nil => exact hs
  | cons hst _ ih => exact ih (hstep hs hst)

/-- If every step takes elements from the front of a queue and adds elements to its end, those in
the queue and those added are, in order, those taken and those left. -/
lemma queue_append {T : Type*} {q : σ → List T} {ins outs : TraceStep σ ε → Option T}
    (hstep : ∀ {s e t}, R s e t → q s ++ (ins ⟨s, e, t⟩).toList = (outs ⟨s, e, t⟩).toList ++ q t)
    (h : Trace R s steps) :
    q s ++ steps.filterMap ins = steps.filterMap outs ++ q (final s steps) := by
  have hcons (f : TraceStep σ ε → Option T) (x : TraceStep σ ε) (xs : List (TraceStep σ ε)) :
      (x :: xs).filterMap f = (f x).toList ++ xs.filterMap f := by
    rw [List.filterMap_cons]
    cases f x <;> rfl
  induction h with
  | nil s => simp [final]
  | @cons s t e steps hst _ ih =>
      calc q s ++ (⟨s, e, t⟩ :: steps).filterMap ins
          = q s ++ (ins ⟨s, e, t⟩).toList ++ steps.filterMap ins := by
            rw [hcons, List.append_assoc]
        _ = (outs ⟨s, e, t⟩).toList ++ (q t ++ steps.filterMap ins) := by
            rw [hstep hst, List.append_assoc]
        _ = (⟨s, e, t⟩ :: steps).filterMap outs ++ q (final t steps) := by
            rw [ih, hcons, List.append_assoc]

/-- If the steps that meet `C` from states with the invariant `I` are, seen through `f` and `g`,
steps of another relation, a run of such steps is a run of that one. -/
lemma map {σ' ε' : Type*} {R' : σ' → ε' → σ' → Prop} {I : σ → Prop} {C : TraceStep σ ε → Prop}
    {f : σ → σ'} {g : TraceStep σ ε → ε'}
    (hstep : ∀ {s e t}, I s → R s e t → C ⟨s, e, t⟩ → I t ∧ R' (f s) (g ⟨s, e, t⟩) (f t))
    (h : Trace R s steps) (hs : I s) (hC : ∀ x ∈ steps, C x) :
    Trace R' (f s) (steps.map fun x => ⟨f x.pre, g x, f x.post⟩) ∧ I (final s steps) := by
  induction h with
  | nil s => exact ⟨.nil (f s), hs⟩
  | cons hst _ ih =>
      rw [List.forall_mem_cons] at hC
      obtain ⟨ht, hmapped⟩ := hstep hs hst hC.1
      obtain ⟨htrace, hend⟩ := ih ht hC.2
      exact ⟨.cons hmapped htrace, hend⟩

/-- If every step that meets `C` from a state with the invariant `I` applies `g` to what `f` shows
of it, a run of such steps applies it once for each step. -/
lemma final_eq_iterate {T : Type*} {f : σ → T} {g : T → T} {I : σ → Prop}
    {C : TraceStep σ ε → Prop}
    (hstep : ∀ {s e t}, I s → R s e t → C ⟨s, e, t⟩ → I t ∧ f t = g (f s))
    (h : Trace R s steps) (hs : I s) (hC : ∀ x ∈ steps, C x) :
    f (final s steps) = g^[steps.length] (f s) := by
  induction h with
  | nil s => rfl
  | cons hst _ ih =>
      rw [List.forall_mem_cons] at hC
      obtain ⟨ht, hf⟩ := hstep hs hst hC.1
      rw [final, ih ht hC.2, List.length_cons, Function.iterate_succ_apply, hf]

/-- If steps from states related by `S` can be matched so that the states stay related, and a
step and its match show the same under `f`, a run can be matched with one that shows the same. -/
lemma exists_map_eq {ω : Type*} {S : σ → σ → Prop} {f : TraceStep σ ε → ω}
    (hstep : ∀ {s t e s'}, S s t → R s e s' →
      ∃ t', R t e t' ∧ S s' t' ∧ f ⟨t, e, t'⟩ = f ⟨s, e, s'⟩)
    (h : Trace R s steps) {t : σ} (hst : S s t) :
    ∃ steps', Trace R t steps' ∧ steps'.map f = steps.map f := by
  induction h generalizing t with
  | nil => exact ⟨[], .nil t, rfl⟩
  | @cons s s' e steps hs _ ih =>
      obtain ⟨t', ht, hst', hf⟩ := hstep hst hs
      obtain ⟨steps', hsteps', hmap⟩ := ih hst'
      exact ⟨⟨t, e, t'⟩ :: steps', .cons ht hsteps', congrArg₂ List.cons hf hmap⟩

/-- If a step from a state with the invariant `I` has the property `Q` exactly when it meets
the condition `C`, and then ends in a state with `I`, all steps of a run from a state with `I`
have `Q` exactly when all of them meet `C`. -/
theorem forall_iff {I : σ → Prop} {C Q : TraceStep σ ε → Prop}
    (hstep : ∀ {s e t}, I s → R s e t →
      (Q ⟨s, e, t⟩ ↔ C ⟨s, e, t⟩) ∧ (C ⟨s, e, t⟩ → I t))
    (h : Trace R s steps) (hs : I s) : (∀ x ∈ steps, Q x) ↔ ∀ x ∈ steps, C x := by
  induction h with
  | nil => simp only [List.not_mem_nil, false_imp_iff, implies_true]
  | cons hst _ ih =>
      obtain ⟨hiff, ht⟩ := hstep hs hst
      rw [List.forall_mem_cons, List.forall_mem_cons, hiff]
      exact and_congr_right fun hC => ih (ht hC)

end Trace
