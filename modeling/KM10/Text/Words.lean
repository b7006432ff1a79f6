import KM10.Library.Numerals
import KM10.Machine.Word

/-!
Words as text (`W36::fmt18`, `fmtVMA`, `fmt36`, `sixbit` and the constructor from a string in
`word.cpp`).

A string is the list of its characters.

* `stoul`: the conversion of the standard library, in base 8;
* `W36.ofString`: the constructor, with its exceptions;
* `words_read_back`: what the formatters print is read as the word, however it is embedded.
-/

namespace KM10

open Numerals

/-! ### Numbers from text -/

/-- The exceptions of `stoul` and `stoull`. -/
inductive StoError where
  | invalid_argument
  | out_of_range
deriving DecidableEq

/-- The characters that `stoul` skips. -/
def isSpace (c : Char) : Bool :=
  c = ' ' || c = '\t' || c = '\n' || c = '\x0b' || c = '\x0c' || c = '\r'

/-- The optional sign: whether it is a minus, and what follows. -/
def signed : List Char → Bool × List Char
  | '-' :: s => (true, s)
  | '+' :: s => (false, s)
  | s => (false, s)

/-- The value of the digits that are found, in 64 bits, or its negative after a minus sign. -/
def stoulValue (negative : Bool) (digits : List Char) : Except StoError (BitVec 64) :=
  if digits = [] then .error .invalid_argument
  else if 2 ^ 64 ≤ value 8 digits then .error .out_of_range
  else
    let v := BitVec.ofNat 64 (value 8 digits)
    .ok (if negative then -v else v)

/-- `stoul(s, nullptr, 8)`, and `stoull`, which is the same on the host. -/
def stoul (s : List Char) : Except StoError (BitVec 64) :=
  let (negative, s) := signed (s.dropWhile isSpace)
  stoulValue negative (s.takeWhile (IsNumeral 8))

/-- The halves in front of and behind the first `,,`. -/
def splitHalves : List Char → Option (List Char × List Char)
  | ',' :: ',' :: s => some ([], s)
  | c :: s => (splitHalves s).map fun (l, r) => (c :: l, r)
  | [] => none

namespace W36

/-- `W36(string &s)`. -/
def ofString (s : List Char) : Except StoError W36 :=
  match splitHalves s with
  | some (l, r) => do
      let lhu ← stoul l
      let rhu ← stoul r
      return halves (lhu.setWidth 18) (rhu.setWidth 18)
  | none => do
      let u ← stoul s
      return u.setWidth 36

/-! ### Text from words -/

/-- `fmt18`. -/
def fmt18 (w : W36) : List Char := numeral 8 6 w.rhu.toNat

/-- `fmtVMA`. -/
def fmtVMA (w : W36) : List Char := numeral 8 1 (w.lhu &&& 0o7).toNat ++ ',' :: ',' :: w.fmt18

/-- `fmt36`. -/
def fmt36 (w : W36) : List Char := numeral 8 6 w.lhu.toNat ++ ',' :: ',' :: w.fmt18

/-- `sixbit`: the characters from the left, six bits each. -/
def sixbit (w : W36) : List Char :=
  [30, 24, 18, 12, 6, 0].map fun k => Char.ofNat (((w >>> k) &&& 0o77).toNat + 32)

end W36

/-! ### Reading back -/

/-- What does not go on with a digit. -/
def NoNumeral (rest : List Char) : Prop := ∀ c, rest.head? = some c → IsNumeral 8 c = false

lemma noNumeral_nil : NoNumeral [] := by simp [NoNumeral]

/-- A digit is neither skipped nor a sign. -/
lemma isNumeral_ne {c d : Char} (hc : IsNumeral 8 c) (hd : IsNumeral 8 d = false) : c ≠ d :=
  fun h => Bool.false_ne_true (hd.symm.trans (h ▸ hc))

/-- Digits that do not follow a sign. -/
lemma signed_of_isNumeral {c : Char} {s : List Char} (hc : IsNumeral 8 c) :
    signed (c :: s) = (false, c :: s) := by
  rw [signed]
  · rintro s' h
    exact isNumeral_ne hc (by decide) (List.cons.inj h).1
  · rintro s' h
    exact isNumeral_ne hc (by decide) (List.cons.inj h).1

/-- What `stoul` makes of digits. -/
lemma stoul_digits {digits rest : List Char} (hdigits : ∀ c ∈ digits, IsNumeral 8 c)
    (hne : digits ≠ []) (hlt : value 8 digits < 2 ^ 64) (hrest : NoNumeral rest) :
    stoul (digits ++ rest) = .ok (BitVec.ofNat 64 (value 8 digits)) ∧
      stoul ('-' :: (digits ++ rest)) = .ok (-BitVec.ofNat 64 (value 8 digits)) := by
  have htake := takeWhile_digits hdigits hrest
  have hvalue (negative : Bool) : stoulValue negative digits =
      .ok (if negative then -BitVec.ofNat 64 (value 8 digits)
        else BitVec.ofNat 64 (value 8 digits)) := by
    rw [stoulValue, if_neg hne, if_neg (Nat.not_le.mpr hlt)]
  constructor
  · obtain ⟨c, ds, rfl⟩ := List.exists_cons_of_ne_nil hne
    have hc := hdigits c List.mem_cons_self
    have hspace : isSpace c = false := by
      simp only [isSpace, Bool.or_eq_false_iff, decide_eq_false_iff_not]
      exact ⟨⟨⟨⟨⟨isNumeral_ne hc (by decide), isNumeral_ne hc (by decide)⟩,
        isNumeral_ne hc (by decide)⟩, isNumeral_ne hc (by decide)⟩, isNumeral_ne hc (by decide)⟩,
        isNumeral_ne hc (by decide)⟩
    have hdrop : (c :: ds ++ rest).dropWhile isSpace = c :: (ds ++ rest) :=
      List.dropWhile_cons_of_neg (by rw [hspace]; exact Bool.false_ne_true)
    rw [stoul, hdrop, signed_of_isNumeral hc]
    exact (congrArg _ htake).trans (hvalue false)
  · have hdrop : ('-' :: (digits ++ rest)).dropWhile isSpace = '-' :: (digits ++ rest) :=
      List.dropWhile_cons_of_neg (by decide)
    rw [stoul, hdrop]
    exact (congrArg _ htake).trans (hvalue true)

/-- What it makes of a number. -/
lemma stoul_numeral (width : ℕ) {n : ℕ} (hn : n < 2 ^ 64) {rest : List Char}
    (hrest : NoNumeral rest) :
    stoul (numeral 8 width n ++ rest) = .ok (BitVec.ofNat 64 n) ∧
      stoul ('-' :: (numeral 8 width n ++ rest)) = .ok (-BitVec.ofNat 64 n) := by
  have hvalue : value 8 (numeral 8 width n) = n := value_numeral (by decide) (by decide) width n
  have h := stoul_digits (isNumeral_of_mem_numeral (by decide) (by decide)) numeral_ne_nil
    (hvalue ▸ hn) hrest
  rwa [hvalue] at h

/-- Characters other than a comma in front of `,,`. -/
lemma splitHalves_append {l : List Char} (hl : ',' ∉ l) (s : List Char) :
    splitHalves (l ++ ',' :: ',' :: s) = some (l, s) := by
  induction l with
  | nil => rfl
  | cons c l ih =>
      rw [List.mem_cons, not_or] at hl
      rw [List.cons_append, splitHalves, ih hl.2]
      · rfl
      · exact fun s' h _ => hl.1 h.symm

/-- Characters other than a comma do not add a `,,`. -/
lemma splitHalves_of_none {l s : List Char} (hl : ',' ∉ l) (hs : splitHalves s = none) :
    splitHalves (l ++ s) = none := by
  induction l with
  | nil => exact hs
  | cons c l ih =>
      rw [List.mem_cons, not_or] at hl
      rw [List.cons_append, splitHalves, ih hl.2]
      · rfl
      · exact fun s' h _ => hl.1 h.symm

/-- A number has no comma. -/
lemma comma_notMem_numeral {width n : ℕ} : ',' ∉ numeral 8 width n := fun h =>
  absurd (isNumeral_of_mem_numeral (by decide) (by decide) _ h) (by decide)

namespace W36

/-- The halves in front of and behind `,,`. -/
lemma ofString_halves (width : ℕ) {l r : BitVec 18} {rest : List Char} (hrest : NoNumeral rest) :
    ofString (numeral 8 width l.toNat ++ ',' :: ',' :: (numeral 8 6 r.toNat ++ rest)) =
        .ok (halves l r) ∧
      ofString ('-' :: numeral 8 width l.toNat ++ ',' :: ',' :: (numeral 8 6 r.toNat ++ rest)) =
        .ok (halves (-l) r) := by
  have hlt (v : BitVec 18) : v.toNat < 2 ^ 64 := by
    have := v.isLt
    omega
  have hcut (v : BitVec 18) : (BitVec.ofNat 64 v.toNat).setWidth 18 = v := by
    rw [BitVec.ofNat_toNat, BitVec.setWidth_setWidth_of_le v (by decide), BitVec.setWidth_eq]
  have hneg (v : BitVec 18) : (-BitVec.ofNat 64 v.toNat).setWidth 18 = -v := by
    rw [BitVec.setWidth_neg_of_le (by decide), hcut]
  obtain ⟨hpos, hminus⟩ := stoul_numeral width (hlt l) noNumeral_nil
  have hright := (stoul_numeral 6 (hlt r) hrest).1
  rw [List.append_nil] at hpos hminus
  constructor
  · rw [ofString, splitHalves_append comma_notMem_numeral]
    simp only [hpos, hright]
    exact congrArg Except.ok (congrArg₂ halves (hcut l) (hcut r))
  · have hcomma : ',' ∉ '-' :: numeral 8 width l.toNat := by
      simp [comma_notMem_numeral]
    rw [ofString, splitHalves_append hcomma]
    simp only [hminus, hright]
    exact congrArg Except.ok (congrArg₂ halves (hneg l) (hcut r))

/-- A number without `,,`. -/
lemma ofString_numeral (width : ℕ) {n : ℕ} (hn : n < 2 ^ 36) {rest : List Char}
    (hrest : NoNumeral rest) (hsplit : splitHalves rest = none) :
    ofString (numeral 8 width n ++ rest) = .ok (ofNat n) ∧
      ofString ('-' :: (numeral 8 width n ++ rest)) = .ok (-ofNat n) := by
  obtain ⟨hpos, hminus⟩ := @stoul_numeral width n (by omega) _ hrest
  have hcut : (BitVec.ofNat 64 n).setWidth 36 = ofNat n := by
    apply BitVec.eq_of_toNat_eq
    simp only [ofNat, BitVec.toNat_setWidth, BitVec.toNat_ofNat]
    omega
  constructor
  · rw [ofString, splitHalves_of_none comma_notMem_numeral hsplit]
    simp only [hpos]
    exact congrArg Except.ok hcut
  · rw [ofString, ← List.cons_append,
      splitHalves_of_none (by simp [comma_notMem_numeral]) hsplit, List.cons_append]
    simp only [hminus]
    exact congrArg Except.ok (by rw [BitVec.setWidth_neg_of_le (by decide), hcut])

end W36

/-- **Words are read back** as they are printed, in front of anything that does not go on with a
digit and, where one number is printed, has no `,,` further on; a minus sign negates the left half
if there are two, and the word if there is one number. -/
theorem words_read_back (w : W36) {rest : List Char} (hrest : NoNumeral rest) :
    W36.ofString (w.fmt36 ++ rest) = .ok w ∧
      W36.ofString ('-' :: (w.fmt36 ++ rest)) = .ok (.halves (-w.lhu) w.rhu) ∧
      W36.ofString (w.fmtVMA ++ rest) = .ok (.halves (w.lhu &&& 0o7) w.rhu) ∧
      (splitHalves rest = none →
        W36.ofString (w.fmt18 ++ rest) = .ok (.halves 0 w.rhu) ∧
          W36.ofString ('-' :: (w.fmt18 ++ rest)) = .ok (-.halves 0 w.rhu)) := by
  have hfmt (l : List Char) : l ++ ',' :: ',' :: w.fmt18 ++ rest =
      l ++ ',' :: ',' :: (numeral 8 6 w.rhu.toNat ++ rest) := by
    rw [List.append_assoc, W36.fmt18]
    rfl
  obtain ⟨hpos, hminus⟩ := @W36.ofString_halves 6 w.lhu w.rhu _ hrest
  refine ⟨?_, ?_, ?_, fun hsplit => ?_⟩
  · rw [W36.fmt36, hfmt, hpos, W36.halves_eta]
  · rw [W36.fmt36, hfmt]
    exact hminus
  · rw [W36.fmtVMA, hfmt]
    exact (W36.ofString_halves _ hrest).1
  · have hword : W36.ofNat w.rhu.toNat = .halves 0 w.rhu := by
      have hzero : (0 : BitVec 18).toNat = 0 := rfl
      apply BitVec.eq_of_toNat_eq
      rw [W36.ofNat, BitVec.ofNat_toNat, BitVec.toNat_setWidth_of_le (by decide),
        W36.toNat_halves, hzero, Nat.zero_mul, Nat.zero_add]
    have hlt : w.rhu.toNat < 2 ^ 36 := by
      have := w.rhu.isLt
      omega
    have h := W36.ofString_numeral 6 hlt hrest hsplit
    rwa [hword] at h

/-- The word -1,,2 at the end of a line, and after a minus sign. -/
theorem words_read_back_line :
    W36.ofString (W36.fmt36 0o777777000002 ++ ['\n']) = .ok 0o777777000002 ∧
      W36.ofString ('-' :: (W36.fmt36 0o777777000002 ++ ['\n'])) = .ok 0o000001000002 := by
  have h := @words_read_back 0o777777000002 ['\n'] fun c hc => by rw [← Option.some.inj hc]; decide
  exact ⟨h.1, h.2.1⟩

end KM10
