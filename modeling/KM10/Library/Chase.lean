import Mathlib.Data.Fintype.Pigeonhole
import Mathlib.Logic.Function.Iterate

/-!
Following links until one of them stops.

* `Ends next stop a b`: the links from `a` on lead to `b`, the first one that stops;
* `follow`: the search for it with a bounded number of looks;
* `ends_of_follow`, `follow_of_ends`: when the next link depends only on one of `n` keys, the
  search with `n + 1` looks finds the end if there is one, so that giving up then means going
  in circles.
-/

namespace Chase

variable {α : Type*} (next : α → α) (stop : α → Bool)

/-- The links from the first element lead to the second, the first one that stops. -/
inductive Ends : α → α → Prop where
  | here {a : α} (h : stop a = true) : Ends a a
  | there {a b : α} (h : stop a = false) (rest : Ends (next a) b) : Ends a b

/-- The search for the end of the links with a bounded number of looks. -/
def follow : ℕ → α → Option α
  | 0, _ => none
  | fuel + 1, a => if stop a then some a else follow fuel (next a)

variable {next stop} {a b : α}

/-- What the search finds is the end. -/
lemma ends_of_follow {fuel : ℕ} (h : follow next stop fuel a = some b) : Ends next stop a b := by
  induction fuel generalizing a with
  | zero => cases h
  | succ fuel ih =>
      rw [follow] at h
      split at h
      case isTrue hstop =>
        cases h
        exact .here hstop
      case isFalse hstop => exact .there (Bool.eq_false_iff.mpr hstop) (ih h)

/-- The end is reached after some number of links that do not stop. -/
lemma Ends.exists_iterate (h : Ends next stop a b) :
    ∃ n, next^[n] a = b ∧ stop b = true ∧ ∀ k < n, stop (next^[k] a) = false := by
  induction h with
  | here hstop => exact ⟨0, rfl, hstop, fun k hk => absurd hk (Nat.not_lt_zero k)⟩
  | there hstop _ ih =>
      obtain ⟨n, hend, hb, hall⟩ := ih
      refine ⟨n + 1, hend, hb, fun k hk => ?_⟩
      cases k with
      | zero => exact hstop
      | succ k => exact hall k (by omega)

/-- There is an end if some number of links leads to one that stops. -/
lemma ends_of_iterate {n : ℕ} (hstop : stop (next^[n] a) = true) : ∃ b, Ends next stop a b := by
  induction n generalizing a with
  | zero => exact ⟨a, .here hstop⟩
  | succ n ih =>
      cases h : stop a with
      | true => exact ⟨a, .here h⟩
      | false =>
          obtain ⟨b, hb⟩ := ih hstop
          exact ⟨b, .there h hb⟩

/-- A search that looks far enough finds the end. -/
lemma follow_of_iterate {n fuel : ℕ} (hfuel : n < fuel) (hstop : stop (next^[n] a) = true)
    (hall : ∀ k < n, stop (next^[k] a) = false) :
    follow next stop fuel a = some (next^[n] a) := by
  induction n generalizing a fuel with
  | zero =>
      obtain ⟨fuel, rfl⟩ := Nat.exists_eq_add_of_lt hfuel
      exact if_pos hstop
  | succ n ih =>
      obtain ⟨fuel, rfl⟩ := Nat.exists_eq_add_of_lt hfuel
      have h0 : stop a = false := hall 0 (by omega)
      rw [follow, h0]
      exact ih (by omega) hstop fun k hk => hall (k + 1) (by omega)

/-- The links up to the end have different keys: of two with the same key the later one would
lead to the end, and the earlier one as well. -/
lemma le_of_iterate {key : α → ℕ} {n m : ℕ} (hkey : ∀ a, key a < n)
    (hnext : ∀ a b, key a = key b → next a = next b) (hstop : stop (next^[m] a) = true)
    (hall : ∀ k < m, stop (next^[k] a) = false) : m ≤ n := by
  by_contra hlt
  have hcard : Fintype.card (Fin n) < Fintype.card (Fin m) := by
    rw [Fintype.card_fin, Fintype.card_fin]
    omega
  obtain ⟨i, j, hne, heq⟩ := Fintype.exists_ne_map_eq_of_card_lt
    (fun k : Fin m => (⟨key (next^[k.val] a), hkey _⟩ : Fin n)) hcard
  -- from two links with the same key on, the links are the same
  have hcircle (i j : Fin m) (hij : i.val < j.val)
      (heq : key (next^[i.val] a) = key (next^[j.val] a)) : False := by
    have hsame : next^[i.val + 1] a = next^[j.val + 1] a := by
      rw [Function.iterate_succ_apply', Function.iterate_succ_apply']
      exact hnext _ _ heq
    have hend : next^[(m - (j.val + 1)) + (i.val + 1)] a = next^[m] a := by
      rw [Function.iterate_add_apply, hsame, ← Function.iterate_add_apply]
      congr 1
      omega
    have hearly := hall ((m - (j.val + 1)) + (i.val + 1)) (by omega)
    rw [hend, hstop] at hearly
    cases hearly
  have hkeys : key (next^[i.val] a) = key (next^[j.val] a) := congrArg Fin.val heq
  rcases Nat.lt_or_gt_of_ne (Fin.val_ne_of_ne hne) with hij | hij
  · exact hcircle i j hij hkeys
  · exact hcircle j i hij hkeys.symm

/-- **Enough looks**: when the next link depends only on one of `n` keys, `n + 1` looks find
the end. -/
theorem follow_of_ends {key : α → ℕ} {n : ℕ} (hkey : ∀ a, key a < n)
    (hnext : ∀ a b, key a = key b → next a = next b) (h : Ends next stop a b) :
    follow next stop (n + 1) a = some b := by
  obtain ⟨m, rfl, hstop, hall⟩ := h.exists_iterate
  exact follow_of_iterate (Nat.lt_succ_of_le (le_of_iterate hkey hnext hstop hall)) hstop hall

end Chase
