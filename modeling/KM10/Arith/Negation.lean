import KM10.Arith.LongProduct

/-!
Negation of the numbers in two and in four words.

Both versions complement the magnitude fields and add one, with a carry through the fields that
are zero.  `W72::negate` keeps the sign, so that only zero comes out right; `W144::negate` inverts
it, so that only zero does not.

* `mag_negatePair`: the magnitude and the signs of `W72::negate`;
* `toInt_negatePair_iff`, `toInt_negateQuad_iff`: the numbers that come out negated;
* `negatePair_negatePair`, `sameWords_negateQuad`: a number negated twice;
* `negates_iff`: the same in one statement.
-/

namespace KM10

/-! ### Two words -/

namespace W72

/-- The signed number of two words, of which the first one gives the sign. -/
def toInt (w : W72) : ℤ := w.mag - if w.hiSign then 2 ^ 70 else 0

/-- **The ripple** through two words: the magnitude fields in a row are complemented and
incremented, and both words get the sign of the high one. -/
lemma mag_negatePair (w : W72) :
    w.negate.mag = (2 ^ 70 - w.mag) % 2 ^ 70 ∧
      w.negate.hiSign = w.hiSign ∧ w.negate.loSign = w.hiSign := by
  obtain ⟨hcarry, hlo, -⟩ := W144.incMag_complement w.lo
  obtain ⟨-, hhi, hcomplement⟩ := W144.incMag_complement w.hi
  refine ⟨?_, sign_setSign _ _, sign_setSign _ _⟩
  have hhilt := w.hi.mag.isLt
  have hlolt := w.lo.mag.isLt
  have hnegate : w.negate = W72.setSign
      ⟨if (W144.complement w.lo).incMag.1 then (W144.complement w.hi).incMag.2
        else W144.complement w.hi, (W144.complement w.lo).incMag.2⟩ w.hiSign := rfl
  rw [hnegate, W72.setSign, mag, mag, hi35, lo35, hi35, lo35, mag_setSign, mag_setSign, hlo,
    hcarry]
  -- the carry reaches the high word if the low one is zero
  by_cases hzero : w.lo.mag.toNat = 0
  · rw [decide_eq_true hzero, if_pos rfl, hhi]
    omega
  · rw [decide_eq_false hzero, if_neg Bool.false_ne_true, hcomplement]
    omega

/-- The negation of a number is its negative exactly for zero. -/
lemma toInt_negatePair_iff (w : W72) : w.negate.toInt = -w.toInt ↔ w.toInt = 0 := by
  obtain ⟨hmag, hsign, -⟩ := w.mag_negatePair
  have hlt := w.mag_lt
  rw [toInt, toInt, hmag, hsign]
  split <;> omega

/-- A number with one sign comes back when it is negated twice. -/
lemma negatePair_negatePair {w : W72} (hsign : w.hiSign = w.loSign) : w.negate.negate = w := by
  obtain ⟨hmag, hhi, -⟩ := w.mag_negatePair
  obtain ⟨hmag', hhi', hlo'⟩ := w.negate.mag_negatePair
  have hlt := w.mag_lt
  refine W72.ext_mag (hhi'.trans hhi) (hlo'.trans (hhi.trans hsign)) ?_
  rw [hmag', hmag]
  omega

/-- What a negation of two words should do. -/
structure Negates (w : W72) : Prop where
  toInt : w.negate.toInt = -w.toInt
  signs : w.negate.hiSign = w.negate.loSign
  twice : w.negate.negate = w

end W72

/-! ### Four words -/

namespace W144

/-- The negation of a number other than the most negative one is its negative exactly if it is
not zero. -/
lemma toInt_negateQuad_iff {w : W144} (hmin : w.toInt ≠ -2 ^ 140) :
    w.negate.toInt = -w.toInt ↔ w.toInt ≠ 0 := by
  obtain ⟨hmag, hsigned⟩ := w.mag_negate
  have hlt := w.mag_lt
  rw [toInt] at hmin
  rw [toInt, toInt, hmag, hsigned.u0]
  cases hw : w.u0.sign with
  | true =>
      rw [hw, if_pos rfl] at hmin
      rw [Bool.not_true, if_neg Bool.false_ne_true, if_pos rfl]
      omega
  | false =>
      rw [Bool.not_false, if_neg Bool.false_ne_true, if_pos rfl]
      omega

/-- A number with one sign comes back when it is negated twice. -/
lemma sameWords_negateQuad {w : W144} (hw : w.Signed w.u0.sign) : w.negate.negate.SameWords w := by
  obtain ⟨hmag, hsigned⟩ := w.mag_negate
  obtain ⟨hmag', hsigned'⟩ := w.negate.mag_negate
  have hlt := w.mag_lt
  rw [hsigned.u0, Bool.not_not] at hsigned'
  rw [hsigned'.sameWords_iff hw, toInt, toInt, hmag', hmag, hsigned'.u0]
  omega

/-- What a negation of four words should do. -/
structure Negates (w : W144) : Prop where
  toInt : w.negate.toInt = -w.toInt
  signs : w.negate.Signed w.negate.u0.sign
  twice : w.negate.negate.SameWords w

end W144

/-- **Negation**: of the numbers with one sign `W72::negate` negates zero and no other, and of
those other than the most negative one `W144::negate` negates all but zero. -/
theorem negates_iff (w : W72) (q : W144) :
    (w.hiSign = w.loSign → (w.Negates ↔ w.toInt = 0)) ∧
      (q.Signed q.u0.sign → q.toInt ≠ -2 ^ 140 → (q.Negates ↔ q.toInt ≠ 0)) := by
  constructor
  · intro hsign
    have hiff := w.toInt_negatePair_iff
    obtain ⟨-, hhi, hlo⟩ := w.mag_negatePair
    exact ⟨fun h => hiff.mp h.toInt,
      fun h => ⟨hiff.mpr h, hhi.trans hlo.symm, W72.negatePair_negatePair hsign⟩⟩
  · intro hq hmin
    have hiff := W144.toInt_negateQuad_iff hmin
    have hsigned := q.mag_negate.2
    refine ⟨fun h => hiff.mp h.toInt, fun h => ⟨hiff.mpr h, ?_, W144.sameWords_negateQuad hq⟩⟩
    rw [hsigned.u0]
    exact hsigned

/-- Zero in two words and one in four are negated. -/
theorem negates_iff_small :
    (W72.mk 0 0).Negates ∧ (W144.mk 0 0 0 1 false).Negates := by
  have hzero : (W72.mk 0 0).toInt = 0 := rfl
  have hone : (W144.mk 0 0 0 1 false).toInt = 1 := rfl
  obtain ⟨hpair, hquad⟩ := negates_iff ⟨0, 0⟩ ⟨0, 0, 0, 1, false⟩
  refine ⟨(hpair rfl).mpr hzero, (hquad ⟨rfl, rfl, rfl, rfl⟩ ?_).mpr ?_⟩
  · rw [hone]
    decide
  · rw [hone]
    decide

/-- **Numbers that are not negated**: one in two words becomes `2^70 - 1`, and zero in four
words the most negative number. -/
theorem not_negates_small :
    ((W72.mk 0 1).hiSign = (W72.mk 0 1).loSign ∧ (W72.mk 0 1).toInt = 1 ∧
        (W72.mk 0 1).negate.toInt = 2 ^ 70 - 1 ∧ ¬ (W72.mk 0 1).Negates) ∧
      (W144.mk 0 0 0 0 false).Signed false ∧ (W144.mk 0 0 0 0 false).toInt = 0 ∧
        (W144.mk 0 0 0 0 false).negate.toInt = -2 ^ 140 ∧ ¬ (W144.mk 0 0 0 0 false).Negates := by
  have hpair : (W72.mk 0 1).negate.toInt = 2 ^ 70 - 1 := rfl
  have hquad : (W144.mk 0 0 0 0 false).negate.toInt = -2 ^ 140 := by decide
  refine ⟨⟨rfl, rfl, hpair, fun h => ?_⟩, ⟨rfl, rfl, rfl, rfl⟩, rfl, hquad, fun h => ?_⟩
  · exact absurd (hpair.symm.trans h.toInt) (by decide)
  · exact absurd (hquad.symm.trans h.toInt) (by decide)

end KM10
