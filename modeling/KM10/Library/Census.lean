import Mathlib.Algebra.BigOperators.Group.Finset.Basic
import Mathlib.Data.Fintype.Basic

/-!
How many of finitely many parties stand where.

* `census P pc`: the number of parties `i` with `P (pc i)`;
* `census_update`: what the move of one party does to it.
-/

variable {ι α : Type*} [Fintype ι]

/-- The number of parties whose place has the property `P`. -/
def census (P : α → Prop) [DecidablePred P] (pc : ι → α) : ℕ := ∑ i, if P (pc i) then 1 else 0

section Census

variable (P : α → Prop) [DecidablePred P]

/-- A move leaves one place and enters another. -/
lemma census_update [DecidableEq ι] (pc : ι → α) (i : ι) (a : α) :
    census P (Function.update pc i a) + (if P (pc i) then 1 else 0) =
      census P pc + if P a then 1 else 0 := by
  have hothers : ∑ j ∈ Finset.univ.erase i, (if P (Function.update pc i a j) then 1 else 0) =
      ∑ j ∈ Finset.univ.erase i, if P (pc j) then 1 else 0 :=
    Finset.sum_congr rfl fun j hj => by rw [Function.update_of_ne (Finset.ne_of_mem_erase hj)]
  rw [census, census, ← Finset.add_sum_erase _ _ (Finset.mem_univ i), hothers,
    Function.update_self, ← Finset.add_sum_erase _ (fun j => if P (pc j) then 1 else 0)
      (Finset.mem_univ i)]
  omega

/-- Someone who is counted. -/
lemma exists_of_census_pos {pc : ι → α} (h : 0 < census P pc) : ∃ i, P (pc i) := by
  by_contra hnone
  rw [not_exists] at hnone
  refine absurd h (not_lt.mpr (le_of_eq (Finset.sum_eq_zero fun i _ => ?_)))
  exact if_neg (hnone i)

end Census
