import KM10.Bytes.Pointers

/-!
The three formats of a byte pointer.

One word global pointers have their position and size in a table, of which one entry is wrong, and
which lacks the entry of the last code.  `getPSA` reads the fields of a two word pointer from the
wrong one of its words.

* `globalPointer`, `firstWord`: pointers in the other formats;
* `SameByte`: what the formats promise;
* `returnsByte_iff`: the bytes that pointers in memory load;
* `byte_formats_iff`: when they are the same;
* `byte_formats_differ`: pointers that load different bytes.
-/

namespace KM10

open BytePointer StateExcept

/-! ### What the formats promise -/

/-- A one word global pointer. -/
def globalPointer (code : BitVec 6) (A : BitVec 18) : W36 := code ++ (0 : BitVec 12) ++ A

/-- The first word of a two word pointer, with a field for the user; the second one is the
address. -/
def firstWord (P S : BitVec 6) (user : BitVec 18) : W36 := P ++ S ++ (0o40 : BitVec 6) ++ user

/-- The first of the codes for bytes of `S` bits in one word global pointers. -/
def firstCode (S : ℕ) : Option ℕ :=
  match S with
  | 6 => some 37
  | 8 => some 44
  | 7 => some 49
  | 9 => some 55
  | 18 => some 60
  | _ => none

/-- `makeFrom` and `getByte` return a byte. -/
def ReturnsByte (s : Cpu) (bpa : W36) (b : BitVec 32) : Prop :=
  ∃ t, (do let bp ← makeFrom bpa; bp.getByte : Exec (BitVec 32)).run s = .ok (b, t)

/-- They return the same byte for pointers at two addresses. -/
def SameByte (s : Cpu) (bpa bpa' : W36) : Prop := ∃ b, ReturnsByte s bpa b ∧ ReturnsByte s bpa' b

/-! ### Pointers in memory -/

section Fields

variable (P S code : BitVec 6) (A user : BitVec 18)

lemma p_globalPointer : p (globalPointer code A) = code := by
  apply BitVec.eq_of_getLsbD_eq
  intro n hn
  simp only [p, globalPointer, BitVec.getLsbD_extractLsb', BitVec.getLsbD_append, hn, decide_true,
    Bool.true_and]
  rw [if_neg (by omega), if_neg (by omega)]
  congr 1
  omega

lemma p_firstWord : p (firstWord P S user) = P := by
  apply BitVec.eq_of_getLsbD_eq
  intro n hn
  simp only [p, firstWord, BitVec.getLsbD_extractLsb', BitVec.getLsbD_append, hn, decide_true,
    Bool.true_and]
  rw [if_neg (by omega), if_neg (by omega), if_neg (by omega)]
  congr 1
  omega

lemma bit_firstWord : (firstWord P S user).getLsbD 23 = true := by
  simp only [firstWord, BitVec.getLsbD_append]
  rfl

end Fields

section Fetched

variable {s : Cpu} {bpa : W36}

lemma fetch_local {P S : BitVec 6} {A : BitVec 18} (hP : P.toNat ≤ 36)
    (h : s.word bpa.rhu = localPointer P S A) :
    ∃ running, (makeFrom bpa).run s =
      .ok (.L1 (localPointer P S A), { s with running := running }) := by
  obtain ⟨running, hget⟩ := exists_run_memGetN bpa s
  refine ⟨running, ?_⟩
  rw [makeFrom, run_bind_of_ok hget, h, p_localPointer, if_neg (not_lt.mpr hP), bit_localPointer]
  rfl

lemma fetch_global {code : BitVec 6} {A : BitVec 18} (hcode : 36 < code.toNat)
    (h : s.word bpa.rhu = globalPointer code A) :
    ∃ running, (makeFrom bpa).run s =
      .ok (.G1 (globalPointer code A), { s with running := running }) := by
  obtain ⟨running, hget⟩ := exists_run_memGetN bpa s
  refine ⟨running, ?_⟩
  rw [makeFrom, run_bind_of_ok hget, h, p_globalPointer, if_pos hcode]
  rfl

lemma fetch_two {P S : BitVec 6} {user A : BitVec 18} (hP : P.toNat ≤ 36)
    (h : s.word bpa.rhu = firstWord P S user) (h' : s.word (bpa + 1).rhu = W36.halves 0 A) :
    ∃ running, (makeFrom bpa).run s =
      .ok (.G2 (firstWord P S user ++ W36.halves 0 A), { s with running := running }) := by
  obtain ⟨running, hget⟩ := exists_run_memGetN bpa s
  obtain ⟨running', hget'⟩ := exists_run_memGetN (bpa + 1) { s with running := running }
  refine ⟨running', ?_⟩
  rw [makeFrom, run_bind_of_ok hget, h, p_firstWord, if_neg (not_lt.mpr hP), bit_firstWord,
    if_pos rfl, run_bind_of_ok hget']
  change Except.ok (BytePointer.G2 (_ ++ s.word (bpa + 1).rhu), _) = _
  rw [h']

/-- What a pointer in memory loads. -/
lemma returnsByte_iff {bp : BytePointer} {P S : ℕ}
    (hfetch : ∃ running, (makeFrom bpa).run s = .ok (bp, { s with running := running }))
    (hps : bp.positionSize = some (P, S)) {b : BitVec 32} :
    ReturnsByte s bpa b ↔ ∃ a, Names s bp P S a ∧ (s.word a).loaded P S = b.setWidth 36 := by
  obtain ⟨running, hfetch⟩ := hfetch
  let t : Cpu := { s with running := running }
  have hload := @getByte_returns_iff t bp P S hps b.toNat
  have hwidth (w : W36) : w.toNat = b.toNat ↔ w = b.setWidth 36 := by
    rw [← BitVec.toNat_inj, toNat_setWidth_byte]
  simp only [BitVec.toNat_inj, exists_and_right, exists_eq_right, hwidth] at hload
  rw [ReturnsByte, run_bind_of_ok hfetch, hload]
  constructor
  · rintro ⟨a, ha, hbyte⟩
    exact ⟨a, ha.with_running s.running, hbyte⟩
  · rintro ⟨a, ha, hbyte⟩
    exact ⟨a, ha.with_running running, hbyte⟩

end Fetched

/-! ### The table -/

/-- The table has the position and the size of each code, but for the fourth one. -/
lemma toPS_code {S c k : ℕ} (hc : firstCode S = some c) (hk : k * S ≤ 36) :
    toPS[c + k - 37]? = some (if c + k = 40 then 28 else 36 - k * S, S) := by
  unfold firstCode at hc
  split at hc <;> cases hc
  · have hk : k ≤ 6 := by omega
    interval_cases k <;> rfl
  · have hk : k ≤ 4 := by omega
    interval_cases k <;> rfl
  · have hk : k ≤ 5 := by omega
    interval_cases k <;> rfl
  · have hk : k ≤ 4 := by omega
    interval_cases k <;> rfl
  · have hk : k ≤ 2 := by omega
    interval_cases k <;> rfl

/-- The codes are those of global pointers. -/
lemma firstCode_bounds {S c k : ℕ} (hc : firstCode S = some c) (hk : k * S ≤ 36) :
    36 < c + k ∧ c + k < 63 ∧ S < 64 := by
  unfold firstCode at hc
  split at hc <;> cases hc <;> omega

/-- It has an entry for each code but the last one. -/
lemma toPS_length_iff {u : W36} (hu : 36 < (p u).toNat) :
    (p u).toNat - 37 < toPS.length ↔ p u ≠ 63 := by
  have hlt := (p u).isLt
  have hlength : toPS.length = 26 := rfl
  have hlast : (63 : BitVec 6).toNat = 63 := rfl
  rw [hlength, Ne, ← BitVec.toNat_inj, hlast]
  omega

/-- The bytes that the table names are those of the codes, as long as the fourth is. -/
lemma code_iff {w : W36} {S c k : ℕ} (hc : firstCode S = some c) (hk : k * S ≤ 36) :
    w.loaded (if c + k = 40 then 28 else 36 - k * S) S = w.loaded (36 - k * S) S ↔
      (c + k = 40 → w.loaded 28 6 = w.loaded 18 6) := by
  split
  case isTrue hcode =>
    obtain ⟨rfl, rfl⟩ : S = 6 ∧ k = 3 := by
      unfold firstCode at hc
      split at hc <;> cases hc <;> omega
    exact ⟨fun h _ => h, fun h => h hcode⟩
  case isFalse hcode => exact iff_of_true rfl fun h => absurd h hcode

/-! ### The formats -/

/-- A plain address is its own effective address. -/
lemma isEffectiveAddress_plain (s : Cpu) (A : BitVec 18) : IsEffectiveAddress s ⟨false, 0, A⟩ A :=
  .direct rfl

section Names

variable (s : Cpu) {P S : BitVec 6} {A user : BitVec 18}

lemma names_globalPointer {code : BitVec 6} {ps : ℕ × ℕ} (h : toPS[code.toNat - 37]? = some ps) :
    Names s (.G1 (globalPointer code A)) ps.1 ps.2 A where
  positionSize := by
    rw [BytePointer.positionSize, p_globalPointer, h]
  address := by
    have hy : (globalPointer code A).extractLsb' 0 18 = A := BitVec.extractLsb'_append_eq_right
    rw [BytePointer.eaFields, hy]
    exact isEffectiveAddress_plain s A

/-- The position and the size are read from the address. -/
lemma positionSize_two :
    (BytePointer.G2 (firstWord P S user ++ W36.halves 0 A)).positionSize = some (0, 0) := by
  have hlow : (firstWord P S user ++ W36.halves 0 A).setWidth 36 = W36.halves 0 A :=
    BitVec.setWidth_append_eq_right
  have hzero (n k : ℕ) (hn : 18 ≤ n) : (W36.halves 0 A).extractLsb' n k = 0 := by
    apply BitVec.eq_of_getLsbD_eq
    intro j hj
    simp only [W36.halves, BitVec.getLsbD_extractLsb', BitVec.getLsbD_append, hj, decide_true,
      Bool.true_and]
    rw [if_neg (by omega)]
    exact BitVec.getLsbD_zero.trans BitVec.getLsbD_zero.symm
  have hp : p (W36.halves 0 A) = 0 := hzero 30 6 (by decide)
  have hs : BytePointer.s (W36.halves 0 A) = 0 := hzero 24 6 (by decide)
  rw [BytePointer.positionSize, hlow, hp, hs]
  rfl

/-- The fields for the address are read from the position and the field for the user. -/
lemma eaFields_two : (BytePointer.G2 (firstWord P S user ++ W36.halves 0 A)).eaFields =
    ⟨P.getLsbD 4, P.setWidth 4, user⟩ := by
  have hi : (firstWord P S user ++ W36.halves 0 A).getLsbD 70 = P.getLsbD 4 := by
    simp only [firstWord, BitVec.getLsbD_append]
    rfl
  have hx : (firstWord P S user ++ W36.halves 0 A).extractLsb' 66 4 = P.setWidth 4 := by
    apply BitVec.eq_of_getLsbD_eq
    intro n hn
    simp only [firstWord, BitVec.getLsbD_extractLsb', BitVec.getLsbD_append, hn, decide_true,
      Bool.true_and, BitVec.getLsbD_setWidth]
    rw [if_neg (by omega), if_neg (by omega), if_neg (by omega), if_neg (by omega)]
    congr 1
    omega
  have hy : (firstWord P S user ++ W36.halves 0 A).extractLsb' 36 18 = user := by
    apply BitVec.eq_of_getLsbD_eq
    intro n hn
    simp only [firstWord, BitVec.getLsbD_extractLsb', BitVec.getLsbD_append, hn, decide_true,
      Bool.true_and]
    rw [if_neg (by omega), if_pos (by omega)]
    congr 1
    omega
  rw [BytePointer.eaFields, hi, hx, hy]

/-- It names no bits of whatever word it names. -/
lemma names_two {e : BitVec 18} (h : IsEffectiveAddress s ⟨P.getLsbD 4, P.setWidth 4, user⟩ e) :
    Names s (.G2 (firstWord P S user ++ W36.halves 0 A)) 0 0 e :=
  ⟨positionSize_two, eaFields_two ▸ h⟩

lemma loaded_zero (w : W36) : w.loaded 0 0 = 0 := by
  have hmask : W36.rMask 0 = 0 := rfl
  rw [W36.loaded, hmask]
  change (((w.setWidth 64 >>> 0) &&& 0#64).setWidth 32).setWidth 36 = 0
  rw [BitVec.and_zero]
  rfl

end Names

/-- `getPSA` returns if the table has an entry for the code. -/
lemma getPSA_returns_iff {s : Cpu} (u : W36) :
    (∃ r, (BytePointer.G1 u).getPSA.run s = .ok r) ↔ (p u).toNat - 37 < toPS.length := by
  constructor
  · rintro ⟨⟨psa, t⟩, hrun⟩
    obtain ⟨a, hnames⟩ := names_of_run hrun
    exact (List.getElem?_eq_some_iff.mp hnames.positionSize).1
  · intro hlt
    have hnames : Names s (.G1 u) toPS[(p u).toNat - 37].1 toPS[(p u).toNat - 37].2
        (u.extractLsb' 0 18) :=
      ⟨List.getElem?_eq_getElem hlt, isEffectiveAddress_plain s _⟩
    obtain ⟨a', running, hrun, -⟩ := run_getPSA_of_names hnames
    exact ⟨_, hrun⟩

/-- Two pointers load the same byte if the bytes that they name are the same. -/
lemma sameByte_iff {s : Cpu} {bpa bpa' : W36} {bp bp' : BytePointer} {P S P' S' : ℕ}
    {a a' : BitVec 18}
    (hfetch : ∃ running, (makeFrom bpa).run s = .ok (bp, { s with running := running }))
    (hfetch' : ∃ running, (makeFrom bpa').run s = .ok (bp', { s with running := running }))
    (h : Names s bp P S a) (h' : Names s bp' P' S' a') :
    SameByte s bpa bpa' ↔ (s.word a).loaded P S = (s.word a').loaded P' S' := by
  rw [SameByte]
  simp only [returnsByte_iff hfetch h.positionSize, returnsByte_iff hfetch' h'.positionSize]
  constructor
  · rintro ⟨b, ⟨d, hd, hb⟩, d', hd', hb'⟩
    rw [h.address.unique hd.address, h'.address.unique hd'.address, hb, hb']
  · intro hsame
    exact ⟨_, ⟨a, h, rfl⟩, a', h', hsame.symm⟩

section Agreement

variable {s : Cpu} {A : BitVec 18} {bpa bpa' : W36}

/-- A one word global pointer loads the byte that the table says. -/
lemma sameByte_global_iff {S c k : ℕ} (hc : firstCode S = some c) (hk : k * S ≤ 36)
    (h : s.word bpa.rhu = globalPointer (.ofNat 6 (c + k)) A)
    (h' : s.word bpa'.rhu = localPointer (.ofNat 6 (36 - k * S)) (.ofNat 6 S) A) :
    SameByte s bpa bpa' ↔ (c + k = 40 → (s.word A).loaded 28 6 = (s.word A).loaded 18 6) := by
  obtain ⟨hlow, hhigh, hS⟩ := firstCode_bounds hc hk
  have hcode : (BitVec.ofNat 6 (c + k)).toNat = c + k := toNat_field (by omega)
  have hfetch := fetch_global (by rw [hcode]; exact hlow) h
  have hfetch' := fetch_local (by rw [toNat_field (by omega)]; omega) h'
  have hnames := names_globalPointer s (A := A) (by rw [hcode]; exact toPS_code hc hk)
  have hnames' := names_localPointer s (.ofNat 6 (36 - k * S)) (.ofNat 6 S) A
  rw [toNat_field (by omega), toNat_field hS] at hnames'
  rw [sameByte_iff hfetch hfetch' hnames hnames']
  exact code_iff hc hk

/-- A two word pointer loads a byte of no bits, if it loads one. -/
lemma sameByte_two_iff {P S : BitVec 6} {user : BitVec 18} (hP : P.toNat ≤ 36)
    (h : s.word bpa.rhu = firstWord P S user) (h2 : s.word (bpa + 1).rhu = W36.halves 0 A)
    (h' : s.word bpa'.rhu = localPointer P S A) :
    SameByte s bpa bpa' ↔
      (∃ e, IsEffectiveAddress s ⟨P.getLsbD 4, P.setWidth 4, user⟩ e) ∧
        (s.word A).loaded P.toNat S.toNat = 0 := by
  have hfetch := fetch_two hP h h2
  have hfetch' := fetch_local hP h'
  have hnames' := names_localPointer s P S A
  constructor
  · rintro ⟨b, hb, hb'⟩
    obtain ⟨e, he, -⟩ := (returnsByte_iff hfetch positionSize_two).mp hb
    have haddress : IsEffectiveAddress s ⟨P.getLsbD 4, P.setWidth 4, user⟩ e :=
      eaFields_two (A := A) ▸ he.address
    refine ⟨⟨e, haddress⟩, ?_⟩
    have hsame := (sameByte_iff hfetch hfetch' he hnames').mp ⟨b, hb, hb'⟩
    rw [← hsame, loaded_zero]
  · rintro ⟨⟨e, he⟩, hzero⟩
    rw [sameByte_iff hfetch hfetch' (names_two s he) hnames', loaded_zero, hzero]

end Agreement

/-- A one word global pointer loads the byte of the local one, unless its code is the fourth and the
bytes at 28 and 18 differ.  A two word pointer loads a byte of no bits, as long as its position and
the field for the user do not lead to indirect words without an end.  The table lacks the last
code. -/
theorem byte_formats_iff (s : Cpu) :
    (∀ (S c k : ℕ) (A : BitVec 18) (bpa bpa' : W36), firstCode S = some c → k * S ≤ 36 →
      s.word bpa.rhu = globalPointer (.ofNat 6 (c + k)) A →
      s.word bpa'.rhu = localPointer (.ofNat 6 (36 - k * S)) (.ofNat 6 S) A →
      (SameByte s bpa bpa' ↔
        (c + k = 40 → (s.word A).loaded 28 6 = (s.word A).loaded 18 6))) ∧
    (∀ (P S : BitVec 6) (user A : BitVec 18) (bpa bpa' : W36), P.toNat ≤ 36 →
      s.word bpa.rhu = firstWord P S user → s.word (bpa + 1).rhu = W36.halves 0 A →
      s.word bpa'.rhu = localPointer P S A →
      (SameByte s bpa bpa' ↔
        (∃ e, IsEffectiveAddress s ⟨P.getLsbD 4, P.setWidth 4, user⟩ e) ∧
          (s.word A).loaded P.toNat S.toNat = 0)) ∧
    ∀ u : W36, 36 < (p u).toNat →
      ((∃ r, (BytePointer.G1 u).getPSA.run s = .ok r) ↔ p u ≠ 63) := by
  refine ⟨fun S c k A bpa bpa' hc hk h h' => sameByte_global_iff hc hk h h',
    fun P S user A bpa bpa' hP h h2 h' => sameByte_two_iff hP h h2 h', fun u hu => ?_⟩
  rw [← toPS_length_iff hu]
  exact getPSA_returns_iff u

/-- Pointers to the third character of the word at 0200: a local one at 0100, a global one at 0101,
and one of two words at 0102. -/
def threeFormats (w : W36) : Cpu :=
  ((((Cpu.initial.setWord (localPointer 18 6 0o200) 0o100).setWord
    (globalPointer 40 0o200) 0o101).setWord (firstWord 18 6 0) 0o102).setWord
    (W36.halves 0 0o200) 0o103).setWord w 0o200

/-- They load the same byte of a word of zeros. -/
theorem byte_formats_zeros :
    SameByte (threeFormats 0) 0o101 0o100 ∧ SameByte (threeFormats 0) 0o102 0o100 :=
  ⟨((byte_formats_iff _).1 6 37 3 0o200 0o101 0o100 rfl (by decide) rfl rfl).mpr fun _ => rfl,
    ((byte_formats_iff _).2.1 18 6 0 0o200 0o102 0o100 (by decide) rfl rfl rfl).mpr
      ⟨⟨_, .indirect rfl (.direct rfl)⟩, rfl⟩⟩

/-- They do not if the character is one, and the last code has no entry. -/
theorem byte_formats_differ :
    ¬ SameByte (threeFormats 0o1000000) 0o101 0o100 ∧
      ¬ SameByte (threeFormats 0o1000000) 0o102 0o100 ∧
      36 < (p (globalPointer 63 0o200)).toNat ∧
      ¬ ∃ r, (BytePointer.G1 (globalPointer 63 0o200)).getPSA.run Cpu.initial = .ok r := by
  have hlocal := @fetch_local (threeFormats 0o1000000) 0o100 18 6 0o200 (by decide) rfl
  have hnames := names_localPointer (threeFormats 0o1000000) 18 6 0o200
  refine ⟨fun h => ?_, fun h => ?_, by decide, fun h => ?_⟩
  · have hglobal := @fetch_global (threeFormats 0o1000000) 0o101 40 0o200 (by decide) rfl
    have hsame := (sameByte_iff hglobal hlocal (names_globalPointer _ rfl) hnames).mp h
    exact absurd hsame (by decide)
  · have htwo := @fetch_two (threeFormats 0o1000000) 0o102 18 6 0 0o200 (by decide) rfl rfl
    have hsame := (sameByte_iff htwo hlocal (names_two _ (.indirect rfl (.direct rfl))) hnames).mp h
    exact absurd hsame (by decide)
  · rw [getPSA_returns_iff, p_globalPointer] at h
    exact absurd h (by decide)

end KM10
