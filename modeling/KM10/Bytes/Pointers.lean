import KM10.Bytes.ByteStream
import KM10.EffectiveAddress

/-!
Byte pointers of every format on a state.

* `BytePointer.positionSize`, `BytePointer.eaFields`: what `getPSA` makes of a pointer, whatever its
  format;
* `Names`: the pointer names the byte at a position of a word;
* `run_getPSA_of_names`, `names_of_run`: `getPSA` returns this byte;
* `run_getByte_of_names`, `run_putByte_of_names`: what is loaded from it and deposited in it;
* `getByte_returns_iff`: a load returns only if the pointer names a byte;
* `localPointer`: the plainest pointer.
-/

namespace KM10

open BytePointer StateExcept

/-! ### The byte that a pointer names -/

/-- The position and the size of the byte.  That of a one word global pointer is in the table,
unless its code is beyond that. -/
def BytePointer.positionSize : BytePointer → Option (ℕ × ℕ)
  | .L1 u => some ((p u).toNat, (s u).toNat)
  | .G1 u => toPS[(p u).toNat - 37]?
  | .G2 u => some ((p (u.setWidth 36)).toNat, (s (u.setWidth 36)).toNat)

/-- The fields for the calculation of its address. -/
def BytePointer.eaFields : BytePointer → EaFields
  | .L1 u => ⟨u.i, u.x, u.y⟩
  | .G1 u => ⟨false, 0, u.extractLsb' 0 18⟩
  | .G2 u => ⟨u.getLsbD 70, u.extractLsb' 66 4, u.extractLsb' 36 18⟩

/-- The pointer names the byte of `S` bits at position `P` of the word at `a`. -/
structure Names (s : Cpu) (bp : BytePointer) (P S : ℕ) (a : BitVec 18) : Prop where
  positionSize : bp.positionSize = some (P, S)
  address : IsEffectiveAddress s bp.eaFields a

/-- The low 18 bits of a field of 30. -/
lemma ofNat_toNat_extract {w : ℕ} (u : BitVec w) (k : ℕ) :
    BitVec.ofNat 18 (u.extractLsb' k 30).toNat = u.extractLsb' k 18 := by
  apply BitVec.eq_of_toNat_eq
  rw [BitVec.toNat_ofNat, BitVec.extractLsb'_toNat, BitVec.extractLsb'_toNat]
  omega

/-- `getPSA` in all formats: the address calculation, and then the position and the size. -/
lemma getPSA_eq (bp : BytePointer) :
    ∃ y, BitVec.ofNat 18 y = bp.eaFields.y ∧ bp.getPSA = (do
      let a ← getEA bp.eaFields.i bp.eaFields.x y
      match bp.positionSize with
      | some ps => return ⟨ps.1, ps.2, BitVec.ofNat 32 a⟩
      | none => throw .undefined : Exec PSA) := by
  cases bp with
  | L1 u => exact ⟨u.y.toNat, by rw [BitVec.ofNat_toNat]; exact BitVec.setWidth_eq _, rfl⟩
  | G1 u => exact ⟨_, ofNat_toNat_extract u 0, rfl⟩
  | G2 u => exact ⟨_, ofNat_toNat_extract u 36, rfl⟩

section Run

variable {s : Cpu} {bp : BytePointer} {P S : ℕ} {a : BitVec 18}

/-- A 32-bit address reaches the word that its low 18 bits name. -/
lemma rhu_setWidth_address (n : ℕ) :
    W36.rhu ((BitVec.ofNat 32 n).setWidth 36) = BitVec.ofNat 18 n := by
  apply BitVec.eq_of_toNat_eq
  rw [rhu_address, W36.toNat_rhu_ofNat, BitVec.toNat_ofNat]

lemma run_getPSA_of_names (h : Names s bp P S a) :
    ∃ a' running, bp.getPSA.run s = .ok (⟨P, S, a'⟩, { s with running := running }) ∧
      W36.rhu (a'.setWidth 36) = a := by
  obtain ⟨y, hy, hpsa⟩ := getPSA_eq bp
  obtain ⟨last, hlast, hea⟩ := isEffectiveAddress_iff.mp h.address
  have hfields : bp.eaFields = ⟨bp.eaFields.i, bp.eaFields.x, .ofNat 18 y⟩ := by rw [hy]
  rw [hfields] at hlast
  obtain ⟨ea, running, hrun, hlow⟩ := exists_run_getEA hlast
  refine ⟨BitVec.ofNat 32 ea, running, ?_, ?_⟩
  · rw [hpsa, run_bind_of_ok hrun, h.positionSize]
    rfl
  · rw [rhu_setWidth_address, hlow, hea]

/-- And it returns nothing else. -/
lemma names_of_run {psa : PSA} {t : Cpu} (h : bp.getPSA.run s = .ok (psa, t)) :
    ∃ a, Names s bp psa.p psa.s a := by
  obtain ⟨y, hy, hpsa⟩ := getPSA_eq bp
  rw [hpsa] at h
  obtain ⟨ea, u, hrun, h⟩ := ok_of_run_bind h
  obtain ⟨last, hlast, hea⟩ := eaEnds_of_run hrun
  rw [hy] at hlast
  refine ⟨s.eaAddress last, ?_, isEffectiveAddress_iff.mpr ⟨last, hlast, rfl⟩⟩
  cases hps : bp.positionSize with
  | none =>
    rw [hps] at h
    cases h
  | some ps =>
    rw [hps] at h
    cases h
    rfl

/-- A load returns the byte, as far as it fits in an `unsigned`. -/
lemma run_getByte_of_names (h : Names s bp P S a) :
    ∃ b running, bp.getByte.run s = .ok (b, { s with running := running }) ∧
      b.setWidth 36 = (s.word a).loaded P S := by
  obtain ⟨a', running, hpsa, rfl⟩ := run_getPSA_of_names h
  obtain ⟨running', hget⟩ := exists_run_memGetN (a'.setWidth 36) { s with running := running }
  refine ⟨_, running', ?_, rfl⟩
  rw [BytePointer.getByte, run_bind_of_ok hpsa, run_bind_of_ok hget]
  rfl

/-- A deposit stores the word with its byte. -/
lemma run_putByte_of_names (h : Names s bp P S a) (v : W36) :
    ∃ running, (bp.putByte v).run s =
      .ok ((), { s.setWord ((s.word a).deposited v P S) a with running := running }) := by
  obtain ⟨a', running, hpsa, rfl⟩ := run_getPSA_of_names h
  obtain ⟨running', hget⟩ := exists_run_memGetN (a'.setWidth 36) { s with running := running }
  let w := (s.word (W36.rhu (a'.setWidth 36))).deposited v P S
  let t : Cpu := { s with running := running' }
  obtain ⟨running'', hput⟩ := exists_run_memPutN w (a'.setWidth 36) t
  have hstore : t.setWord w (W36.rhu (a'.setWidth 36)) =
      { s.setWord w (W36.rhu (a'.setWidth 36)) with running := running' } :=
    setWord_running s w _ running'
  refine ⟨running'', ?_⟩
  rw [BytePointer.putByte, run_bind_of_ok hpsa, run_bind_of_ok hget]
  refine hput.trans ?_
  rw [hstore]

/-- What a pointer names does not depend on the run flag. -/
lemma Names.with_running (h : Names s bp P S a) (running : Bool) :
    Names { s with running := running } bp P S a :=
  ⟨h.positionSize, h.address.of_agreeAlong fun _ _ => ⟨fun _ => rfl, fun _ => rfl⟩⟩

lemma toNat_setWidth_byte (b : BitVec 32) : (b.setWidth 36).toNat = b.toNat := by
  have hb := b.isLt
  rw [BitVec.toNat_setWidth, Nat.mod_eq_of_lt (by omega)]

/-- A load returns exactly if the pointer names a byte. -/
lemma getByte_returns_iff (hps : bp.positionSize = some (P, S)) (n : ℕ) :
    (∃ b u, bp.getByte.run s = .ok (b, u) ∧ b.toNat = n) ↔
      ∃ a, Names s bp P S a ∧ ((s.word a).loaded P S).toNat = n := by
  constructor
  · rintro ⟨b, u, hrun, hb⟩
    obtain ⟨a, hnames⟩ : ∃ a, Names s bp P S a := by
      have hpsa := hrun
      rw [BytePointer.getByte] at hpsa
      obtain ⟨psa, t, hpsa, -⟩ := ok_of_run_bind hpsa
      obtain ⟨a, hnames⟩ := names_of_run hpsa
      have heq := hnames.positionSize.symm.trans hps
      rw [Option.some.injEq, Prod.mk.injEq] at heq
      exact ⟨a, heq.1 ▸ heq.2 ▸ hnames⟩
    obtain ⟨b', running, hrun', hb'⟩ := run_getByte_of_names hnames
    rw [hrun, Except.ok.injEq, Prod.mk.injEq] at hrun'
    exact ⟨a, hnames, by rw [← hb', ← hrun'.1, toNat_setWidth_byte, hb]⟩
  · rintro ⟨a, hnames, hbyte⟩
    obtain ⟨b, running, hrun, hb⟩ := run_getByte_of_names hnames
    exact ⟨b, _, hrun, by rw [← toNat_setWidth_byte, hb, hbyte]⟩

end Run

/-- A position or a size in its field. -/
lemma toNat_field {n : ℕ} (hn : n < 64) : (BitVec.ofNat 6 n).toNat = n := by
  rw [BitVec.toNat_ofNat, Nat.mod_eq_of_lt hn]

/-- A one word local pointer without index and indirection. -/
def localPointer (P S : BitVec 6) (A : BitVec 18) : W36 := P ++ S ++ (0 : BitVec 6) ++ A

section Fields

variable (P S : BitVec 6) (A : BitVec 18)

lemma p_localPointer : p (localPointer P S A) = P := by
  apply BitVec.eq_of_getLsbD_eq
  intro n hn
  simp only [p, localPointer, BitVec.getLsbD_extractLsb', BitVec.getLsbD_append, hn, decide_true,
    Bool.true_and]
  rw [if_neg (by omega), if_neg (by omega), if_neg (by omega)]
  congr 1
  omega

lemma s_localPointer : s (localPointer P S A) = S := by
  apply BitVec.eq_of_getLsbD_eq
  intro n hn
  simp only [s, localPointer, BitVec.getLsbD_extractLsb', BitVec.getLsbD_append, hn, decide_true,
    Bool.true_and]
  rw [if_neg (by omega), if_neg (by omega), if_pos (by omega)]
  congr 1
  omega

lemma bit_localPointer : (localPointer P S A).getLsbD 23 = false := by
  simp only [localPointer, BitVec.getLsbD_append]
  rfl

lemma i_localPointer : (localPointer P S A).i = false := by
  simp only [W36.i, localPointer, BitVec.getLsbD_append]
  rfl

lemma x_localPointer : (localPointer P S A).x = 0 := by
  apply BitVec.eq_of_getLsbD_eq
  intro n hn
  simp only [W36.x, localPointer, BitVec.getLsbD_extractLsb', BitVec.getLsbD_append, hn,
    decide_true, Bool.true_and]
  rw [if_neg (by omega), if_pos (by omega)]
  exact BitVec.getLsbD_zero.trans BitVec.getLsbD_zero.symm

lemma y_localPointer : (localPointer P S A).y = A := BitVec.extractLsb'_append_eq_right

end Fields

/-- It names the byte at its position of the word at its address. -/
lemma names_localPointer (s : Cpu) (P S : BitVec 6) (A : BitVec 18) :
    Names s (.L1 (localPointer P S A)) P.toNat S.toNat A where
  positionSize := by
    change some ((p (localPointer P S A)).toNat, (BytePointer.s (localPointer P S A)).toNat) = _
    rw [p_localPointer, s_localPointer]
  address := by
    change IsEffectiveAddress s ⟨_, _, (localPointer P S A).y⟩ A
    rw [x_localPointer, i_localPointer, y_localPointer]
    exact .direct rfl

end KM10
