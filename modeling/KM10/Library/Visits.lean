import Mathlib.Data.List.Basic

/-!
Folds that visit the members of a list one after the other.

* `Visits.foldl_of_mem`: what the visit of one member establishes and all of them keep;
* `Visits.pair_sublist_iff`: one member is visited before another.
-/

namespace Visits

variable {α β : Type*}

/-- What the visit of one member establishes and all visits keep holds in the end. -/
lemma foldl_of_mem {f : β → α → β} {P : β → Prop} {x : α} (hset : ∀ b, P (f b x))
    (hkept : ∀ b, P b → ∀ a, P (f b a)) {l : List α} (hx : x ∈ l) (b : β) : P (l.foldl f b) := by
  obtain ⟨before, after, rfl⟩ := List.append_of_mem hx
  rw [List.foldl_append, List.foldl_cons]
  exact List.foldlRecOn after f (hset _) fun b hb a _ => hkept b hb a

/-- A member comes before another one that is there once if it is in front of it. -/
lemma pair_sublist_iff {x y : α} (hxy : x ≠ y) {before after : List α} (hafter : y ∉ after) :
    [x, y].Sublist (before ++ y :: after) ↔ x ∈ before := by
  constructor
  · intro h
    obtain ⟨front, back, hpair, hfront, hback⟩ := List.sublist_append_iff.mp h
    cases front with
    | nil =>
        rw [List.nil_append] at hpair
        subst hpair
        cases hback with
        | cons _ hback =>
            exact absurd (hback.subset (List.mem_cons_of_mem x List.mem_cons_self)) hafter
        | cons_cons _ hback => exact absurd rfl hxy
    | cons z front =>
        have hz : x = z := (List.cons.inj hpair).1
        rw [hz]
        exact hfront.subset List.mem_cons_self
  · intro hx
    have hback : [y].Sublist (y :: after) := List.singleton_sublist.mpr List.mem_cons_self
    exact (List.singleton_sublist.mpr hx).append hback

end Visits
