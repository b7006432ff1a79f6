import Mathlib.Data.Nat.Notation
import Mathlib.Tactic.Common

/-!
The sixteen functions of two bits, on words of any width.

A function is named by its table, a number whose bits are the values of the function on the
four combinations of two bits.

* `minterms`: the function with a table, as the union of the combinations it selects;
* `eq_minterms`: a word is that union as soon as its bits are those of the table.
-/

namespace TruthTable

variable {w : ℕ}

/-- The combination of two bits, as the number of its bit in a table. -/
def combination : Bool → Bool → ℕ
  | true, true => 0
  | false, true => 1
  | true, false => 2
  | false, false => 3

/-- The union of the combinations of `a` and `b` that the table selects. -/
def minterms (table : ℕ) (a b : BitVec w) : BitVec w :=
  (if table.testBit 0 then a &&& b else 0) ||| (if table.testBit 1 then ~~~ a &&& b else 0) |||
    (if table.testBit 2 then a &&& ~~~ b else 0) |||
    (if table.testBit 3 then ~~~ a &&& ~~~ b else 0)

/-- A bit of the union is the bit of the table for the combination at its place. -/
lemma getLsbD_minterms (table : ℕ) (a b : BitVec w) {k : ℕ} (hk : k < w) :
    (minterms table a b).getLsbD k =
      table.testBit (combination (a.getLsbD k) (b.getLsbD k)) := by
  have hite (c : Bool) (v : BitVec w) :
      (if c then v else 0).getLsbD k = (c && v.getLsbD k) := by
    cases c
    · exact BitVec.getLsbD_zero
    · rfl
  simp only [minterms, BitVec.getLsbD_or, hite, BitVec.getLsbD_and, BitVec.getLsbD_not, hk,
    decide_true, Bool.true_and]
  cases a.getLsbD k <;> cases b.getLsbD k <;> simp [combination]

/-- A word with the bits of the table for the combinations at their places is the union. -/
lemma eq_minterms {table : ℕ} {r a b : BitVec w}
    (h : ∀ k < w, r.getLsbD k = table.testBit (combination (a.getLsbD k) (b.getLsbD k))) :
    r = minterms table a b :=
  BitVec.eq_of_getLsbD_eq fun k hk => by rw [h k hk, getLsbD_minterms table a b hk]

end TruthTable
