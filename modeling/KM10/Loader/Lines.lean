import KM10.Loader.Records

/-!
The loader on the lines of a file.

* `IsField.getWord_append`: `getWord` reads the value of a field;
* `IsData.store_append`: a T record stores its words;
* `IsLine.loadRecords_append`: the loop does with a line what its record says, if the load address
  is in the first 64K;
* `IsFile.loadRecords_eq`: so it does with a file, by induction on its lines.
-/

namespace KM10

/-! ### Fields -/

/-- A character adds its six low bits. -/
lemma digit_ofNat (n : ℕ) (ch : BitVec 8) :
    BitVec.ofNat 32 n <<< 6 ||| (ch &&& 0o77).setWidth 32 =
      BitVec.ofNat 32 (64 * n + ch.toNat % 64) := by
  have hdigit : (ch &&& 0o77).toNat = ch.toNat % 2 ^ 6 := by
    rw [BitVec.toNat_and]
    exact Nat.and_two_pow_sub_one_eq_mod _ 6
  have hshift : (n % 2 ^ 32) <<< 6 % 2 ^ 32 = (n % 2 ^ 26) <<< 6 := by
    rw [Nat.shiftLeft_eq, Nat.shiftLeft_eq]
    omega
  have hlt : ch.toNat % 2 ^ 6 % 2 ^ 32 < 2 ^ 6 := by omega
  apply BitVec.eq_of_toNat_eq
  rw [BitVec.toNat_or, BitVec.toNat_shiftLeft, BitVec.toNat_setWidth, hdigit, BitVec.toNat_ofNat,
    hshift, ← Nat.shiftLeft_add_eq_or_of_lt hlt, Nat.shiftLeft_eq, BitVec.toNat_ofNat]
  omega

/-- By induction on the characters of a field, with the value so far. -/
lemma getWordFrom_append {chars : InStream} (h : ∀ ch ∈ chars, ¬ IsSeparator ch) {sep : BitVec 8}
    (hsep : IsSeparator sep) (rest : InStream) (n : ℕ) :
    getWordFrom (BitVec.ofNat 32 n) (chars ++ sep :: rest) =
      (BitVec.ofNat 16 (chars.foldl (fun v ch => 64 * v + ch.toNat % 64) n), rest) := by
  induction chars generalizing n with
  | nil =>
      rw [List.nil_append, getWordFrom, if_pos hsep, BitVec.setWidth_ofNat_of_le (by decide)]
      rfl
  | cons ch chars ih =>
      rw [List.forall_mem_cons] at h
      rw [List.cons_append, getWordFrom, if_neg h.1, digit_ofNat, ih h.2]
      rfl

/-- A field is read as its value. -/
lemma IsField.getWord_append {chars : InStream} {v : BitVec 16} (h : IsField chars v)
    (rest : InStream) : getWord (chars ++ ascii ',' :: rest) = (v, rest) := by
  have hsep : IsSeparator (ascii ',') := by decide
  have hget := getWordFrom_append h.separators hsep rest 0
  have hvalue : BitVec.ofNat 16 (fieldValue chars) = v := by
    rw [h.value, BitVec.ofNat_toNat, BitVec.setWidth_eq]
  rw [fieldValue] at hvalue
  rw [hvalue] at hget
  exact hget

/-- The rest of a line is skipped. -/
lemma ignoreLine_append {text : InStream} (h : ascii '\n' ∉ text) (rest : InStream) :
    ignoreLine (text ++ ascii '\n' :: rest) = rest := by
  induction text with
  | nil => rw [List.nil_append, ignoreLine, if_pos rfl]
  | cons ch text ih =>
      rw [List.mem_cons, not_or] at h
      rw [List.cons_append, ignoreLine, if_neg (Ne.symm h.1), ih h.2]

/-! ### Storing -/

/-- The words from `addr` on, with the bounds. -/
def Loading.putAll (l : Loading) (addr : ℕ) : List W36 → Loading
  | [] => l
  | w :: words => (l.put addr w).putAll (addr + 1) words

/-- A Z record puts zeros. -/
lemma Loading.zero_eq_putAll (l : Loading) (addr count : ℕ) :
    l.zero addr count = l.putAll addr (List.replicate count 0) := by
  induction count generalizing l addr with
  | zero => rfl
  | succ count ih => exact ih _ _

/-- A T record puts the words that its fields make up. -/
lemma IsData.store_append {words : List W36} {text : InStream} (h : IsData words text)
    (l : Loading) (addr : ℕ) (rest : InStream) :
    l.store addr (text ++ rest) words.length = (l.putAll addr words, rest) := by
  induction h generalizing l addr with
  | nil => rfl
  | @cons w words low middle high text hlow hmiddle hhigh _ ih =>
      have hw : ((w.extractLsb' 32 4).setWidth 16).setWidth 4 ++ w.extractLsb' 16 16 ++
          w.extractLsb' 0 16 = w := by
        rw [BitVec.setWidth_setWidth_of_le _ (by decide), BitVec.setWidth_eq,
          BitVec.extractLsb'_append_extractLsb'_eq_extractLsb' (show 32 = 16 + 16 from rfl),
          BitVec.extractLsb'_append_extractLsb'_eq_extractLsb' (show 16 = 0 + 16 from rfl),
          BitVec.extractLsb'_eq_self]
      simp only [List.append_assoc, List.cons_append]
      rw [List.length_cons, Loading.store, hlow.getWord_append]
      simp only [hmiddle.getWord_append, hhigh.getWord_append, hw]
      exact ih _ _

/-- What the records should do to the loader. -/
def Loading.load (l : Loading) : Record → Loading
  | .comment => l
  | .zero address count _ => l.putAll address.toNat (List.replicate (zeroWords count) 0)
  | .data address words _ _ _ => l.putAll address.toNat words
  | .transfer address => { l with cpu := { l.cpu with pc := W36.halves 0 address } }

/-! ### Lines -/

/-- The high bits of the address are below the ones that are taken for them. -/
lemma countField_mask (address : BitVec 18) {n : ℕ} (hn : n < 2 ^ 8) :
    countField address n &&& 0xC000 = 0 ∧
      countField address n &&& ~~~0xC000 = countField address n := by
  have hlt : (countField address n).toNat < 2 ^ 14 := by
    have haddress := address.isLt
    rw [countField, BitVec.toNat_ofNat]
    omega
  have hbit {i : ℕ} (h : (countField address n).getLsbD i = true) :
      (0xC000 : BitVec 16).getLsbD i = false := by
    have hi : i < 14 := by
      by_contra hge
      rw [BitVec.getLsbD, Nat.testBit_lt_two_pow
        (hlt.trans_le (Nat.pow_le_pow_right (by decide) (not_lt.mp hge)))] at h
      cases h
    clear h
    interval_cases i <;> rfl
  constructor
  · apply BitVec.eq_of_getLsbD_eq
    intro i _
    rw [BitVec.getLsbD_and]
    cases h : (countField address n).getLsbD i with
    | false => exact (BitVec.getLsbD_zero).symm
    | true => exact (hbit h).trans (BitVec.getLsbD_zero).symm
  · apply BitVec.eq_of_getLsbD_eq
    intro i hi
    rw [BitVec.getLsbD_and]
    cases h : (countField address n).getLsbD i with
    | false => rfl
    | true => rw [BitVec.getLsbD_not, hbit h, decide_eq_true hi]; rfl

/-- The fields of a line are read as they are written. -/
lemma loadRecord_fields {recType : BitVec 8} {address : BitVec 18} {n : ℕ} {wc adr : InStream}
    (hn : n < 2 ^ 8) (hwc : IsField wc (countField address n))
    (hadr : IsField adr (address.setWidth 16)) (l : Loading) (text : InStream) :
    loadRecord l recType (ascii ' ' :: (wc ++ ascii ',' :: (adr ++ ascii ',' :: text))) =
      loadFields l recType (countField address n) (address.setWidth 16) text := by
  obtain ⟨hhigh, hlow⟩ := countField_mask address hn
  rw [loadRecord]
  simp only [getChar, hwc.getWord_append, hadr.getWord_append, hhigh, hlow]
  rw [show (0 : BitVec 16) = 0#16 from rfl, BitVec.or_zero]

/-- The loop goes on after a record. -/
lemma loadRecords_cons {recType : BitVec 8} (h : recType = ascii 'Z' ∨ recType = ascii 'T')
    (l : Loading) (inS : InStream) :
    loadRecords l (recType :: inS) =
      loadRecords (loadRecord l recType inS).1 (loadRecord l recType inS).2 := by
  rw [loadRecords]
  obtain rfl | rfl := h
  · rw [if_neg (by decide), if_neg (by decide)]
  · rw [if_neg (by decide), if_neg (by decide)]

/-- After its type and its first two fields, a line is up to the `switch`. -/
lemma loadRecords_fields {recType : BitVec 8} (h : recType = ascii 'Z' ∨ recType = ascii 'T')
    {address : BitVec 18} {n : ℕ} {wc adr : InStream} (hn : n < 2 ^ 8)
    (hwc : IsField wc (countField address n)) (hadr : IsField adr (address.setWidth 16))
    (l : Loading) (text : InStream) :
    loadRecords l (recType :: ascii ' ' :: (wc ++ ascii ',' :: (adr ++ ascii ',' :: text))) =
      loadRecords (loadFields l recType (countField address n) (address.setWidth 16) text).1
        (loadFields l recType (countField address n) (address.setWidth 16) text).2 := by
  rw [loadRecords_cons h, loadRecord_fields hn hwc hadr]

/-- A Z record, whatever its word count. -/
lemma loadFields_zero {cnt rest : InStream} {count : BitVec 16} (hcnt : IsField cnt count)
    (hrest : ascii '\n' ∉ rest) (l : Loading) (wc addr : BitVec 16) (more : InStream) :
    loadFields l (ascii 'Z') wc addr (cnt ++ ascii ',' :: (rest ++ ascii '\n' :: more)) =
      (l.putAll addr.toNat (List.replicate (zeroWords count) 0), more) := by
  rw [loadFields, if_pos rfl, hcnt.getWord_append]
  simp only [ignoreLine_append hrest]
  rw [Loading.zero_eq_putAll, zeroWords]

/-- A T record whose word count is right. -/
lemma loadFields_data {words : List W36} {text cksum : InStream} (hdata : IsData words text)
    (hcksum : ascii '\n' ∉ cksum) (l : Loading) {wc : BitVec 16}
    (hwc : wc.toNat = 3 * words.length) (addr : BitVec 16) (more : InStream) :
    loadFields l (ascii 'T') wc addr (text ++ (cksum ++ ascii '\n' :: more)) =
      ((if words = [] then l.transfer addr else l).putAll addr.toNat words, more) := by
  have hcount : wc.toNat / 3 = words.length := by omega
  have hnil : wc = 0 ↔ words = [] := by
    rw [← List.length_eq_zero_iff, ← BitVec.toNat_inj, hwc]
    change 3 * words.length = 0 ↔ _
    omega
  rw [loadFields, if_neg (by decide), if_pos rfl, hcount]
  simp only [hdata.store_append, ignoreLine_append hcksum, hnil]

/-- The load address, if there is one, is in the first 64K. -/
def Record.Low (r : Record) : Prop := ∀ address ∈ r.address, address.toNat < 0o200000

lemma toNat_countField {address : BitVec 18} (h : address.toNat < 0o200000) {n : ℕ}
    (hn : n < 2 ^ 8) : (countField address n).toNat = n := by
  rw [countField, BitVec.toNat_ofNat]
  omega

lemma toNat_setWidth_of_low {address : BitVec 18} (h : address.toNat < 0o200000) :
    (address.setWidth 16).toNat = address.toNat := by
  rw [BitVec.toNat_setWidth]
  omega

/-- **One line** of a record in the first 64K is loaded as the record says. -/
lemma IsLine.loadRecords_append {r : Record} {line : InStream} (h : IsLine r line) (hlow : r.Low)
    (l : Loading) (more : InStream) :
    loadRecords l (line ++ more) = loadRecords (l.load r) more := by
  cases h with
  | comment htext =>
      simp only [List.cons_append, List.append_assoc]
      rw [loadRecords, if_neg (by decide), if_pos rfl, ignoreLine_append htext]
      rfl
  | @zero address count _ n wc adr cnt rest hn hwc hadr hcnt hrest =>
      have haddress : address.toNat < 0o200000 := hlow address rfl
      simp only [List.cons_append, List.append_assoc, List.nil_append]
      rw [loadRecords_fields (.inl rfl) (by omega) hwc hadr,
        loadFields_zero hcnt hrest, toNat_setWidth_of_low haddress]
      rfl
  | @data address words nonempty _ hbyte wc adr text cksum hwc hadr hdata hcksum =>
      have haddress : address.toNat < 0o200000 := hlow address rfl
      simp only [List.cons_append, List.append_assoc, List.nil_append]
      rw [loadRecords_fields (.inr rfl) hbyte hwc hadr,
        loadFields_data hdata hcksum l (toNat_countField haddress hbyte), if_neg nonempty,
        toNat_setWidth_of_low haddress]
      rfl
  | @transfer address wc adr cksum hwc hadr hcksum =>
      have haddress : address.toNat < 0o200000 := hlow address rfl
      have hpc : (address.setWidth 16).setWidth 18 = address := by
        apply BitVec.eq_of_toNat_eq
        rw [BitVec.toNat_setWidth, toNat_setWidth_of_low haddress]
        omega
      have hzero : (countField address 0).toNat = 3 * ([] : List W36).length :=
        toNat_countField haddress (by decide)
      have hfields := loadFields_data IsData.nil hcksum l hzero (address.setWidth 16) more
      rw [List.nil_append, if_pos rfl] at hfields
      simp only [List.cons_append, List.append_assoc, List.nil_append]
      rw [loadRecords_fields (.inr rfl) (by decide) hwc hadr, hfields,
        Loading.transfer, hpc]
      rfl

/-- **A file** of such records is loaded as they say. -/
theorem IsFile.loadRecords_eq {records : List Record} {text : InStream} (h : IsFile records text)
    (hlow : ∀ r ∈ records, r.Low) (l : Loading) :
    loadRecords l text = records.foldl Loading.load l := by
  induction h generalizing l with
  | eof => rw [loadRecords]; rfl
  | nul rest => rw [loadRecords, if_pos (.inr rfl)]; rfl
  | cons hline _ ih =>
      rw [List.forall_mem_cons] at hlow
      rw [hline.loadRecords_append hlow.1, ih hlow.2]
      rfl

end KM10
