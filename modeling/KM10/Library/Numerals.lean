import Mathlib.Data.List.Basic
import Mathlib.Order.Basic
import Mathlib.Tactic.Common

/-!
Numbers as text, in a base of at most ten, and the pieces of a line.

* `IsNumeral b c`: the character is a digit of the base;
* `numeral b width n`: the digits of a number, padded with zeros on the left;
* `value_numeral`: they have the value of the number;
* `takeWhile_digits`: they are found again in front of anything that is no digit;
* `append_cons_inj`: so is a piece of a line in front of a character that it does not have.
-/

namespace Numerals

variable {b : ℕ}

/-- A digit of the base. -/
def IsNumeral (b : ℕ) (c : Char) : Bool := '0'.toNat ≤ c.toNat && c.toNat < '0'.toNat + b

/-- The value of a row of digits. -/
def value (b : ℕ) (s : List Char) : ℕ := Nat.ofDigitChars b s 0

/-- A number in at least so many digits. -/
def numeral (b width n : ℕ) : List Char := (Nat.toDigits b n).leftpad width '0'

/-- The digits of a number are digits. -/
lemma isNumeral_of_mem_toDigits (hb : 1 < b) (hten : b ≤ 10) {n : ℕ} :
    ∀ c ∈ Nat.toDigits b n, IsNumeral b c := by
  have hdigit {d : ℕ} (hd : d < b) : IsNumeral b (Nat.digitChar d) := by
    rw [IsNumeral, Nat.toNat_digitChar_of_lt_ten (Nat.lt_of_lt_of_le hd hten)]
    change (decide (48 ≤ 48 + d) && decide (48 + d < 48 + b)) = true
    rw [decide_eq_true (Nat.le_add_right 48 d), decide_eq_true (Nat.add_lt_add_left hd 48)]
    rfl
  induction n using Nat.strongRecOn with
  | ind n ih =>
    intro c hc
    rw [Nat.toDigits_eq_if hb] at hc
    split at hc
    case isTrue hn =>
      rw [List.mem_singleton.mp hc]
      exact hdigit hn
    case isFalse hn =>
      rcases List.mem_append.mp hc with hc | hc
      · exact ih (n / b) (Nat.div_lt_self (by omega) hb) c hc
      · rw [List.mem_singleton.mp hc]
        exact hdigit (Nat.mod_lt n (by omega))

lemma isNumeral_of_mem_numeral (hb : 1 < b) (hten : b ≤ 10) {width n : ℕ} :
    ∀ c ∈ numeral b width n, IsNumeral b c := by
  intro c hc
  rw [numeral, List.leftpad, List.mem_append] at hc
  rcases hc with hc | hc
  · rw [List.eq_of_mem_replicate hc, IsNumeral, decide_eq_true (Nat.le_refl _),
      decide_eq_true (Nat.lt_add_of_pos_right (by omega))]
    rfl
  · exact isNumeral_of_mem_toDigits hb hten c hc

lemma numeral_ne_nil {width n : ℕ} : numeral b width n ≠ [] := by
  rw [numeral, List.leftpad]
  exact List.append_ne_nil_of_right_ne_nil _ Nat.toDigits_ne_nil

/-- **The digits of a number** have its value. -/
lemma value_numeral (hb : 1 < b) (hten : b ≤ 10) (width n : ℕ) :
    value b (numeral b width n) = n := by
  rw [value, numeral, List.leftpad, Nat.ofDigitChars_append, Nat.ofDigitChars_replicate_zero,
    Nat.mul_zero, Nat.ofDigitChars_toDigits hb hten]

/-- So different numbers have different digits. -/
lemma numeral_injective (hb : 1 < b) (hten : b ≤ 10) (width : ℕ) :
    Function.Injective (numeral b width) := fun m n h => by
  rw [← value_numeral hb hten width m, h, value_numeral hb hten]

/-- A row of digits in front of something that does not begin with one. -/
lemma takeWhile_digits {p : Char → Bool} {digits rest : List Char} (hdigits : ∀ c ∈ digits, p c)
    (hrest : ∀ c, rest.head? = some c → p c = false) :
    (digits ++ rest).takeWhile p = digits := by
  rw [List.takeWhile_append_of_pos hdigits]
  cases rest with
  | nil => simp
  | cons c rest => simp [hrest c rfl]

/-- **A piece of a line** ends at a character that it does not have. -/
lemma append_cons_inj {α : Type*} {c : α} {s s' rest rest' : List α} (hs : c ∉ s) (hs' : c ∉ s')
    (h : s ++ c :: rest = s' ++ c :: rest') : s = s' ∧ rest = rest' := by
  induction s generalizing s' with
  | nil =>
      cases s' with
      | nil => exact ⟨rfl, (List.cons.inj h).2⟩
      | cons d s' => exact absurd ((List.cons.inj h).1 ▸ List.mem_cons_self) hs'
  | cons d s ih =>
      cases s' with
      | nil => exact absurd ((List.cons.inj h).1 ▸ List.mem_cons_self) hs
      | cons d' s' =>
          obtain ⟨rfl, htails⟩ := List.cons.inj h
          obtain ⟨rfl, hrest⟩ := ih (fun hc => hs (List.mem_cons_of_mem d hc))
            (fun hc => hs' (List.mem_cons_of_mem d hc)) htails
          exact ⟨rfl, hrest⟩

end Numerals
