import Mathlib.Order.Bounds.Basic

/-!
Nested services with priorities, over any linear order in which the smaller is the more
urgent.

The open services form a stack, the most recent one first.  The discipline is that a service
starts only over services that are all less urgent (`Nested`).  Then the most recent service
is the most urgent one, so that a scheduler that compares with it alone compares with all.

* `Nested.isLeast_head`: the most recent service is the least of all;
* `isLeast_insert_of_lt`, `isLeast_union_iff`: the most urgent element of a growing set.
-/

namespace Nesting

variable {α : Type*} [LinearOrder α]

/-- The open services, the most recent first: each is more urgent than all before it. -/
def Nested (services : List α) : Prop := services.Pairwise (· < ·)

@[simp] lemma nested_nil : Nested ([] : List α) := List.Pairwise.nil

/-- A service nests over others when it is more urgent than each of them. -/
@[simp] lemma nested_cons {a : α} {l : List α} :
    Nested (a :: l) ↔ (∀ b ∈ l, a < b) ∧ Nested l := List.pairwise_cons

/-- The most recent service is the most urgent one. -/
lemma Nested.isLeast_head {a : α} {l : List α} (h : Nested (a :: l)) :
    IsLeast {b | b ∈ a :: l} a := by
  refine ⟨List.mem_cons_self, fun b hb => ?_⟩
  rcases List.mem_cons.mp hb with rfl | hb
  · exact le_rfl
  · exact ((nested_cons.mp h).1 b hb).le

/-- Below the least element is below all of them. -/
lemma lt_isLeast_iff {s : Set α} {m a : α} (h : IsLeast s m) : a < m ↔ ∀ b ∈ s, a < b :=
  ⟨fun ham _ hb => ham.trans_le (h.2 hb), fun hall => hall m h.1⟩

/-- A set that gains an element below all of its own has that one as its least. -/
lemma isLeast_insert_of_lt {s : Set α} {a : α} (h : ∀ b ∈ s, a < b) : IsLeast (insert a s) a :=
  ⟨Set.mem_insert a s, fun _ hb => hb.elim ge_of_eq fun hb => (h _ hb).le⟩

/-- The least element of a set is least in a union exactly when every element of the other
part has one of the set below it. -/
lemma isLeast_union_iff {s t : Set α} {m : α} (h : IsLeast s m) :
    IsLeast (s ∪ t) m ↔ ∀ b ∈ t, ∃ a ∈ s, a ≤ b := by
  constructor
  · intro hu b hb
    exact ⟨m, h.1, hu.2 (.inr hb)⟩
  · intro hall
    refine ⟨.inl h.1, fun b hb => hb.elim (h.2 ·) fun hb => ?_⟩
    obtain ⟨a, ha, hab⟩ := hall b hb
    exact (h.2 ha).trans hab

end Nesting
