import KM10.Library.BitStream
import KM10.Machine.Word
import Mathlib.Data.Nat.Basic

/-!
The words of a REL file (`readFileW36s` of `debugger.cpp`).

A file is a list of bytes; every nine of them hold two words, which share the middle byte.

* `HostFile`: a file with what the calls of the host answer for it;
* `value1`, `value2`, `unpack`, `readFileW36s`: the two words of nine bytes, the loop, and the
  function with its errors;
* `stream_unpack`: the words have the bits of the bytes;
* `readFileW36s_unpacks`: what is read of which files, and that this is a bijection.
-/

namespace KM10

open BitStream

/-- A file, and whether the calls of `open`, `fstat`, `mmap` and `munmap` succeed for it. -/
structure HostFile where
  bytes : List (BitVec 8)
  opens : Bool
  stats : Bool
  maps : Bool
  unmaps : Bool

/-- The first of the two words in nine bytes. -/
def value1 (b0 b1 b2 b3 b4 : BitVec 8) : BitVec 64 :=
  b0.setWidth 64 <<< 28 ||| b1.setWidth 64 <<< 20 ||| b2.setWidth 64 <<< 12 |||
    b3.setWidth 64 <<< 4 ||| b4.setWidth 64 >>> 4

/-- The second of the two words in nine bytes. -/
def value2 (b4 b5 b6 b7 b8 : BitVec 8) : BitVec 64 :=
  (b4 &&& 0x0F).setWidth 64 <<< 32 ||| b5.setWidth 64 <<< 24 ||| b6.setWidth 64 <<< 16 |||
    b7.setWidth 64 <<< 8 ||| b8.setWidth 64

/-- The loop over the bytes, nine at a time. -/
def unpack : List (BitVec 8) → List W36
  | b0 :: b1 :: b2 :: b3 :: b4 :: b5 :: b6 :: b7 :: b8 :: inputBytes =>
      (value1 b0 b1 b2 b3 b4).setWidth 36 :: (value2 b4 b5 b6 b7 b8).setWidth 36 ::
        unpack inputBytes
  | _ => []

/-- `readFileW36s`. -/
def readFileW36s (f : HostFile) : Except String (List W36) :=
  if !f.opens then .error "Failed to open file"
  else if !f.stats then .error "Failed to get file size"
  else if f.bytes.length % 9 ≠ 0 then .error "File size is not divisible by 9"
  else if !f.maps then .error "Failed to mmap file"
  else if !f.unmaps then .error "Failed to unmap file"
  else .ok (unpack f.bytes)

/-- All calls succeed for the file. -/
structure HostFile.Served (f : HostFile) : Prop where
  opens : f.opens = true
  stats : f.stats = true
  maps : f.maps = true
  unmaps : f.unmaps = true

/-! ### Nine bytes -/

/-- The nine bytes side by side. -/
def nineBytes (b0 b1 b2 b3 b4 b5 b6 b7 b8 : BitVec 8) : BitVec 72 :=
  b0 ++ (b1 ++ (b2 ++ (b3 ++ (b4 ++ (b5 ++ (b6 ++ (b7 ++ b8)))))))

/-- One number or another, the second below the bits of the first. -/
lemma shiftLeft_or_eq (a : ℕ) {b n : ℕ} (h : b < 2 ^ n) : a <<< n ||| b = a * 2 ^ n + b := by
  rw [← Nat.shiftLeft_add_eq_or_of_lt h, Nat.shiftLeft_eq]

/-- A byte moved to the left within 64 bits. -/
lemma toNat_byte_shiftLeft (b : BitVec 8) {n : ℕ} (h : n ≤ 56) :
    (b.setWidth 64 <<< n).toNat = b.toNat <<< n := by
  have hlt : b.toNat <<< n < 2 ^ 64 := by
    rw [Nat.shiftLeft_eq]
    calc b.toNat * 2 ^ n < 2 ^ 8 * 2 ^ n := Nat.mul_lt_mul_of_pos_right b.isLt (Nat.two_pow_pos n)
      _ ≤ 2 ^ 8 * 2 ^ 56 := Nat.mul_le_mul_left _ (Nat.pow_le_pow_right Nat.two_pos h)
      _ = 2 ^ 64 := rfl
  rw [BitVec.toNat_shiftLeft, BitVec.toNat_setWidth_of_le (by decide), Nat.mod_eq_of_lt hlt]

lemma toNat_value1 (b0 b1 b2 b3 b4 : BitVec 8) :
    (value1 b0 b1 b2 b3 b4).toNat = b0.toNat * 2 ^ 28 + (b1.toNat * 2 ^ 20 +
      (b2.toNat * 2 ^ 12 + (b3.toNat * 2 ^ 4 + b4.toNat / 2 ^ 4))) := by
  have h1 := b1.isLt
  have h2 := b2.isLt
  have h3 := b3.isLt
  have h4 := b4.isLt
  rw [value1, BitVec.toNat_or, BitVec.toNat_or, BitVec.toNat_or, BitVec.toNat_or,
    toNat_byte_shiftLeft b0 (by decide), toNat_byte_shiftLeft b1 (by decide),
    toNat_byte_shiftLeft b2 (by decide), toNat_byte_shiftLeft b3 (by decide),
    BitVec.toNat_ushiftRight, BitVec.toNat_setWidth_of_le (by decide),
    Nat.shiftRight_eq_div_pow, Nat.or_assoc, Nat.or_assoc, Nat.or_assoc,
    shiftLeft_or_eq b3.toNat (by omega), shiftLeft_or_eq b2.toNat (by omega),
    shiftLeft_or_eq b1.toNat (by omega), shiftLeft_or_eq b0.toNat (by omega)]

lemma toNat_value2 (b4 b5 b6 b7 b8 : BitVec 8) :
    (value2 b4 b5 b6 b7 b8).toNat = b4.toNat % 2 ^ 4 * 2 ^ 32 + (b5.toNat * 2 ^ 24 +
      (b6.toNat * 2 ^ 16 + (b7.toNat * 2 ^ 8 + b8.toNat))) := by
  have h5 := b5.isLt
  have h6 := b6.isLt
  have h7 := b7.isLt
  have h8 := b8.isLt
  have hlow : (b4 &&& 0x0F).toNat = b4.toNat % 2 ^ 4 :=
    (BitVec.toNat_and b4 0x0F).trans (Nat.and_two_pow_sub_one_eq_mod b4.toNat 4)
  rw [value2, BitVec.toNat_or, BitVec.toNat_or, BitVec.toNat_or, BitVec.toNat_or,
    toNat_byte_shiftLeft _ (by decide), toNat_byte_shiftLeft b5 (by decide),
    toNat_byte_shiftLeft b6 (by decide), toNat_byte_shiftLeft b7 (by decide), hlow,
    BitVec.toNat_setWidth_of_le (by decide), Nat.or_assoc, Nat.or_assoc, Nat.or_assoc,
    shiftLeft_or_eq b7.toNat (by omega), shiftLeft_or_eq b6.toNat (by omega),
    shiftLeft_or_eq b5.toNat (by omega), shiftLeft_or_eq _ (by omega)]

/-- **Nine bytes** have the bits of their two words. -/
lemma values_append (b0 b1 b2 b3 b4 b5 b6 b7 b8 : BitVec 8) :
    (value1 b0 b1 b2 b3 b4).setWidth 36 ++ (value2 b4 b5 b6 b7 b8).setWidth 36 =
      nineBytes b0 b1 b2 b3 b4 b5 b6 b7 b8 := by
  have h0 := b0.isLt
  have h1 := b1.isLt
  have h2 := b2.isLt
  have h3 := b3.isLt
  have h4 := b4.isLt
  have h5 := b5.isLt
  have h6 := b6.isLt
  have h7 := b7.isLt
  have h8 := b8.isLt
  apply BitVec.eq_of_toNat_eq
  simp only [nineBytes, BitVec.toNat_append, BitVec.toNat_setWidth, toNat_value1, toNat_value2]
  rw [shiftLeft_or_eq b7.toNat (by omega), shiftLeft_or_eq b6.toNat (by omega),
    shiftLeft_or_eq b5.toNat (by omega), shiftLeft_or_eq b4.toNat (by omega),
    shiftLeft_or_eq b3.toNat (by omega), shiftLeft_or_eq b2.toNat (by omega),
    shiftLeft_or_eq b1.toNat (by omega), shiftLeft_or_eq b0.toNat (by omega),
    shiftLeft_or_eq _ (by omega)]
  omega

/-! ### Files -/

/-- The words of whole groups of nine bytes: as many as they should be, with the same bits. -/
lemma stream_unpack (k : ℕ) {bytes : List (BitVec 8)} (h : bytes.length = 9 * k) :
    (unpack bytes).length = 2 * k ∧ stream (unpack bytes) = stream bytes := by
  induction k generalizing bytes with
  | zero =>
      rw [List.length_eq_zero_iff.mp h]
      exact ⟨rfl, rfl⟩
  | succ k ih =>
      match bytes, h with
      | b0 :: b1 :: b2 :: b3 :: b4 :: b5 :: b6 :: b7 :: b8 :: inputBytes, h =>
          simp only [List.length_cons] at h
          have hrest : inputBytes.length = 9 * k := by omega
          obtain ⟨hlength, hstream⟩ := ih hrest
          constructor
          · rw [unpack, List.length_cons, List.length_cons, hlength]
            omega
          · have hbits := congrArg bits (values_append b0 b1 b2 b3 b4 b5 b6 b7 b8)
            simp only [nineBytes, bits_append] at hbits
            simp only [unpack, stream_cons, hstream]
            rw [← List.append_assoc, hbits]
            simp only [List.append_assoc]

/-- A file that is served is read when it is made of groups of nine bytes. -/
lemma readFileW36s_of_dvd {f : HostFile} (h : f.Served) (h9 : 9 ∣ f.bytes.length) :
    readFileW36s f = .ok (unpack f.bytes) := by
  rw [readFileW36s, h.opens, h.stats, h.maps, h.unmaps,
    if_neg (not_not.mpr (Nat.mod_eq_zero_of_dvd h9))]
  rfl

/-- No other file is read. -/
lemma readFileW36s_of_not_dvd {f : HostFile} (h9 : ¬ 9 ∣ f.bytes.length) :
    ∃ e, readFileW36s f = .error e := by
  rw [readFileW36s]
  split
  case isTrue => exact ⟨_, rfl⟩
  case isFalse =>
    split
    case isTrue => exact ⟨_, rfl⟩
    case isFalse =>
      rw [if_pos fun hzero => h9 (Nat.dvd_of_mod_eq_zero hzero)]
      exact ⟨_, rfl⟩

/-- A file with given bytes whose calls all succeed. -/
def HostFile.of (bytes : List (BitVec 8)) : HostFile := ⟨bytes, true, true, true, true⟩

lemma HostFile.served_of (bytes : List (BitVec 8)) : (HostFile.of bytes).Served :=
  ⟨rfl, rfl, rfl, rfl⟩

/-- **Unpacking**: of a file that is not empty and whose calls succeed, every group of nine bytes
gives two words, and word `i` has the bits from `36 * i` on of the bytes in a row; every list of
words of even length comes from one file; a file of any other length is not read. -/
theorem readFileW36s_unpacks :
    (∀ f : HostFile, f.Served → f.bytes ≠ [] → 9 ∣ f.bytes.length →
      ∃ words, readFileW36s f = .ok words ∧ words.length = 2 * (f.bytes.length / 9) ∧
        ∀ i < words.length, bits (words.getD i 0) = ((stream f.bytes).drop (i * 36)).take 36) ∧
      (∀ k (words : List W36), 0 < k → words.length = 2 * k →
        ∃! bytes, bytes.length = 9 * k ∧ readFileW36s (.of bytes) = .ok words) ∧
      ∀ f : HostFile, ¬ 9 ∣ f.bytes.length → ∃ e, readFileW36s f = .error e := by
  refine ⟨fun f hf _ h9 => ?_, fun k words _ hwords => ?_, fun f => readFileW36s_of_not_dvd⟩
  · obtain ⟨hlength, hstream⟩ :=
      stream_unpack (f.bytes.length / 9) (Nat.mul_div_cancel' h9).symm
    refine ⟨unpack f.bytes, readFileW36s_of_dvd hf h9, hlength, fun i hi => ?_⟩
    rw [← hstream, take_drop_stream _ hi]
  · have hunique := existsUnique_of_stream_eq (v := 8) (w := 36) (m := 9 * k) (k := 2 * k)
      (by decide) (by decide) (by omega) (f := unpack)
      (fun bytes hbytes => (stream_unpack k hbytes).2) hwords
    refine (existsUnique_congr fun bytes => and_congr_right fun hbytes => ?_).mp hunique
    rw [readFileW36s_of_dvd (HostFile.served_of bytes) ⟨k, hbytes⟩]
    exact ⟨congrArg Except.ok, Except.ok.inj⟩

/-- Nine bytes give two words, two words come from nine bytes, and one byte gives none. -/
theorem readFileW36s_unpacks_nine :
    (∃ words, readFileW36s (.of [0x12, 0x34, 0x56, 0x78, 0x9A, 0xBC, 0xDE, 0xF0, 0x11]) =
        .ok words ∧ words.length = 2) ∧
      (∃ bytes, readFileW36s (.of bytes) = .ok [1, 2]) ∧
      ∃ e, readFileW36s (.of [0x12]) = .error e := by
  obtain ⟨hread, hunique, hfail⟩ := readFileW36s_unpacks
  refine ⟨?_, ?_, hfail _ (by decide)⟩
  · obtain ⟨words, hwords, hlength, -⟩ :=
      hread (.of [0x12, 0x34, 0x56, 0x78, 0x9A, 0xBC, 0xDE, 0xF0, 0x11]) (HostFile.served_of _)
        (List.cons_ne_nil _ _) (Nat.dvd_refl 9)
    exact ⟨words, hwords, hlength⟩
  · obtain ⟨bytes, ⟨-, hbytes⟩, -⟩ := hunique 1 [1, 2] Nat.one_pos rfl
    exact ⟨bytes, hbytes⟩

end KM10
