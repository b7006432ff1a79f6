import KM10.Library.Trace

/-!
Runs whose steps are bracketed, over any labelled step relation.

The steps of a run are opening steps, closing steps and others, and every opening step has its
closing one, as in a Dyck word.  When the opening steps put a value on a stack, the closing steps
take one from it and the others leave it alone, every closing step takes the value of its own
opening step.

* `Bracketed`: the steps of a Dyck word up to a depth, with its pairs;
* `Bracketed.run`: the rule for a machine that holds a stack, by induction on the word.
-/

variable {σ ε α : Type*}

/-- Steps that form a Dyck word of depth at most `d`, with the pairs of their opening and closing
steps. -/
inductive Bracketed (other : TraceStep σ ε → Prop) (pair : TraceStep σ ε → TraceStep σ ε → Prop) :
    ℕ → List (TraceStep σ ε) → List (TraceStep σ ε × TraceStep σ ε) → Prop where
  | nil (d : ℕ) : Bracketed other pair d [] []
  | other {d : ℕ} {x : TraceStep σ ε} {steps : List (TraceStep σ ε)}
      {pairs : List (TraceStep σ ε × TraceStep σ ε)} (h : other x)
      (rest : Bracketed other pair d steps pairs) : Bracketed other pair d (x :: steps) pairs
  | nest {d : ℕ} {o c : TraceStep σ ε} {inner steps : List (TraceStep σ ε)}
      {innerPairs pairs : List (TraceStep σ ε × TraceStep σ ε)} (h : pair o c)
      (inside : Bracketed other pair d inner innerPairs)
      (rest : Bracketed other pair (d + 1) steps pairs) :
      Bracketed other pair (d + 1) (o :: (inner ++ c :: steps)) ((o, c) :: (innerPairs ++ pairs))

namespace Bracketed

variable {R : σ → ε → σ → Prop} {other : TraceStep σ ε → Prop}
  {pair : TraceStep σ ε → TraceStep σ ε → Prop} {d depth : ℕ} {s : σ}
  {steps : List (TraceStep σ ε)} {pairs : List (TraceStep σ ε × TraceStep σ ε)}

/-- The pairs are what they are called. -/
lemma pair_of_mem (h : Bracketed other pair d steps pairs) : ∀ x ∈ pairs, pair x.1 x.2 := by
  induction h with
  | nil d => exact fun x hx => absurd hx List.not_mem_nil
  | other _ _ ih => exact ih
  | nest hpair _ _ ihInside ihRest =>
      rw [List.forall_mem_cons, List.forall_mem_append]
      exact ⟨hpair, ihInside, ihRest⟩

/-- **Bracketed runs**: if states hold stacks of up to `depth` values, an opening step pushes a
value, a closing step pops and delivers one and the other steps keep the stack, then a bracketed
run ends with the stack of its beginning, and each of its closing steps delivers the value that
its opening step has pushed. -/
theorem run (Holds : List α → σ → Prop) (Pushes Delivers : TraceStep σ ε → α → Prop)
    (hother : ∀ {stack s e t}, Holds stack s → stack.length ≤ depth → R s e t →
      other ⟨s, e, t⟩ → Holds stack t)
    (hopen : ∀ {stack s e t c}, Holds stack s → stack.length < depth → R s e t →
      pair ⟨s, e, t⟩ c → ∃ v, Pushes ⟨s, e, t⟩ v ∧ Holds (v :: stack) t)
    (hclose : ∀ {stack v s e t o}, Holds (v :: stack) s → stack.length < depth → R s e t →
      pair o ⟨s, e, t⟩ → Delivers ⟨s, e, t⟩ v ∧ Holds stack t)
    (h : Bracketed other pair d steps pairs) (htrace : Trace R s steps) {stack : List α}
    (hs : Holds stack s) (hdepth : stack.length + d ≤ depth) :
    Holds stack (Trace.final s steps) ∧ ∀ x ∈ pairs, ∃ v, Pushes x.1 v ∧ Delivers x.2 v := by
  induction h generalizing s stack with
  | nil d => exact ⟨hs, fun x hx => absurd hx List.not_mem_nil⟩
  | other hx _ ih =>
      cases htrace with
      | cons hst htrace =>
          exact ih htrace (hother hs (by omega) hst hx) hdepth
  | @nest d o c inner steps innerPairs pairs hpair _ _ ihInside ihRest =>
      cases htrace with
      | cons hst htrace =>
          obtain ⟨hinner, htrace⟩ := Trace.append_iff.mp htrace
          obtain ⟨v, hpushes, hpushed⟩ := hopen hs (by omega) hst hpair
          -- inside the brackets the stack has one value more, and one level less is left
          obtain ⟨hinside, hinnerPairs⟩ := ihInside hinner hpushed
            (by rw [List.length_cons]; omega)
          cases htrace with
          | cons hct htrace =>
              obtain ⟨hdelivers, hpopped⟩ := hclose hinside (by omega) hct hpair
              obtain ⟨hend, hpairs⟩ := ihRest htrace hpopped hdepth
              refine ⟨?_, ?_⟩
              · rw [Trace.final, Trace.final_append]
                exact hend
              · rw [List.forall_mem_cons, List.forall_mem_append]
                exact ⟨⟨v, hpushes, hdelivers⟩, hinnerPairs, hpairs⟩

end Bracketed
