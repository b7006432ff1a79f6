import KM10.Loader.Lines

/-!
What the loader makes of a file.

* `Loading.followsAll_foldl`: the records in order give the memory, the PC and the bounds;
* `IsFile.loads`: files of records in the first 64K are loaded right;
* `IsLine.lowestAddr_lt`: a record from there on is loaded below, since the high bits of its
  address are left in the word count;
* `a10_loads`: the files that are loaded right, and files that are not.
-/

namespace KM10

/-! ### The bounds -/

/-- The bounds are those of the addresses `S`. -/
structure Loading.Bounds (l : Loading) (S : Set ℕ) : Prop where
  lowest : IsLeast (insert 0o777777 S) l.lowestAddr
  highest : IsGreatest (insert 0 S) l.highestAddr

lemma Loading.Bounds.put {l : Loading} {S : Set ℕ} (h : l.Bounds S) (a : ℕ) (w : W36) :
    (l.put a w).Bounds (insert a S) where
  lowest := by
    rw [Set.insert_comm, Loading.put, ← min_def_lt]
    exact h.lowest.insert a
  highest := by
    rw [Set.insert_comm, Loading.put, ← max_def_lt, max_comm]
    exact h.highest.insert a

lemma Loading.Bounds.putAll {l : Loading} {S : Set ℕ} (h : l.Bounds S) (a : ℕ)
    (words : List W36) :
    (l.putAll a words).Bounds (S ∪ {b | a ≤ b ∧ b < a + words.length}) := by
  induction words generalizing l S a with
  | nil =>
      have hempty : {b | a ≤ b ∧ b < a + ([] : List W36).length} = ∅ :=
        Set.eq_empty_of_forall_notMem fun b hb => absurd hb.2 (not_lt.mpr hb.1)
      rw [hempty, Set.union_empty]
      exact h
  | cons w words ih =>
      have hsplit : S ∪ {b | a ≤ b ∧ b < a + (w :: words).length} =
          insert a S ∪ {b | a + 1 ≤ b ∧ b < a + 1 + words.length} := by
        ext b
        simp only [Set.mem_union, Set.mem_insert_iff, Set.mem_ofPred_eq, List.length_cons]
        by_cases hb : b ∈ S
        · simp only [hb, true_or, or_true]
        · simp only [hb, false_or, or_false]
          omega
      rw [hsplit]
      exact ih (h.put a w) (a + 1)

/-! ### The memory -/

lemma overlay_nil (memP : BitVec 18 → W36) (a : ℕ) : overlay memP a [] = memP := by
  funext b
  rw [overlay]
  split <;> rfl

/-- The first word may be stored first. -/
lemma overlay_cons (memP : BitVec 18 → W36) {a : ℕ} (ha : a < 2 ^ 18) (w : W36)
    (words : List W36) :
    overlay memP a (w :: words) =
      overlay (fun b => if b = BitVec.ofNat 18 a then w else memP b) (a + 1) words := by
  funext b
  have heq : b = BitVec.ofNat 18 a ↔ b.toNat = a := by
    rw [← BitVec.toNat_inj, BitVec.toNat_ofNat, Nat.mod_eq_of_lt ha]
  simp only [overlay, heq]
  rcases lt_trichotomy b.toNat a with hlt | rfl | hgt
  · rw [if_neg (by omega), if_neg (by omega), if_neg (by omega)]
  · rw [if_pos le_rfl, if_neg (by omega), if_pos rfl, Nat.sub_self]
    rfl
  · have hsub : b.toNat - a = b.toNat - (a + 1) + 1 := by omega
    rw [if_pos hgt.le, if_pos (by omega), if_neg (by omega), hsub, List.getElem?_cons_succ]

/-- Words outside are not touched. -/
lemma overlay_of_not (memP : BitVec 18 → W36) {a : ℕ} {words : List W36} {b : BitVec 18}
    (h : ¬ (a ≤ b.toNat ∧ b.toNat < a + words.length)) : overlay memP a words b = memP b := by
  rw [overlay]
  split
  case isTrue hle =>
    rw [List.getElem?_eq_none (by omega)]
    rfl
  case isFalse => rfl

/-- Only the memory changes. -/
lemma Loading.cpu_putAll (l : Loading) {a : ℕ} {words : List W36} (h : a + words.length ≤ 2 ^ 18) :
    (l.putAll a words).cpu = { l.cpu with memP := overlay l.cpu.memP a words } := by
  induction words generalizing l a with
  | nil => rw [overlay_nil]; rfl
  | cons w words ih =>
      rw [List.length_cons] at h
      rw [overlay_cons _ (by omega), Loading.putAll, ih _ (by omega)]
      rfl

/-! ### The records -/

/-- The addresses of a record are those of its words. -/
lemma Record.setOf_writes {r : Record} {address : BitVec 18} (h : r.address = some address) :
    {a | r.Writes a} = {a | address.toNat ≤ a ∧ a < address.toNat + r.words.length} := by
  ext a
  rw [Set.mem_ofPred_eq, Set.mem_ofPred_eq, Record.Writes, h]
  simp only [Option.mem_some_iff, exists_eq_left']

/-- What a record does to the loader, apart from the PC. -/
structure Loading.Follows (r : Record) (l l' : Loading) : Prop where
  cpu : l'.cpu = { l.cpu with memP := r.apply l.cpu.memP, pc := l'.cpu.pc }
  bounds : ∀ {S}, l.Bounds S → l'.Bounds (S ∪ {a | r.Writes a})

/-- Storing the words of a record does it. -/
lemma Loading.follows_putAll {r : Record} {address : BitVec 18} (h : r.address = some address)
    (hfits : address.toNat + r.words.length ≤ 2 ^ 18) (l : Loading) :
    Follows r l (l.putAll address.toNat r.words) where
  cpu := by
    rw [Loading.cpu_putAll l hfits, Record.apply, h]
  bounds hl := by
    rw [Record.setOf_writes h]
    exact hl.putAll address.toNat r.words

lemma Loading.follows_load (l : Loading) (r : Record) : Follows r l (l.load r) := by
  cases r with
  | comment =>
      have hempty : {a | Record.comment.Writes a} = ∅ :=
        Set.eq_empty_of_forall_notMem fun a ⟨_, haddress, _⟩ => by cases haddress
      exact ⟨rfl, fun hl => by rw [hempty, Set.union_empty]; exact hl⟩
  | zero address count fits =>
      refine follows_putAll (r := .zero address count fits) rfl ?_ l
      change address.toNat + (List.replicate (zeroWords count) (0 : W36)).length ≤ 2 ^ 18
      rw [List.length_replicate]
      exact fits
  | data address words nonempty fits wc =>
      exact follows_putAll (r := .data address words nonempty fits wc) rfl fits l
  | transfer address =>
      have hnone := follows_putAll (r := .transfer address) rfl address.isLt.le l
      refine ⟨?_, fun hl => ⟨(hnone.bounds hl).lowest, (hnone.bounds hl).highest⟩⟩
      change _ = { l.cpu with
        memP := overlay l.cpu.memP address.toNat []
        pc := W36.halves 0 address }
      rw [overlay_nil]
      rfl

/-- Words that no record loads stay. -/
lemma foldl_apply_of_notMem {records : List Record} {a : BitVec 18}
    (h : a.toNat ∉ written records) (memP : BitVec 18 → W36) :
    records.foldl Record.apply memP a = memP a := by
  induction records generalizing memP with
  | nil => rfl
  | cons r records ih =>
      have hrest : a.toNat ∉ written records := fun ⟨r', hr', hwrites⟩ =>
        h ⟨r', List.mem_cons_of_mem _ hr', hwrites⟩
      have hr : ¬ r.Writes a.toNat := fun hwrites => h ⟨r, List.mem_cons_self, hwrites⟩
      rw [List.foldl_cons, ih hrest, Record.apply]
      cases haddress : r.address with
      | none => rfl
      | some address => exact overlay_of_not _ fun hrange => hr ⟨address, haddress, hrange⟩

/-- The first record loads before the others. -/
lemma written_cons (r : Record) (records : List Record) :
    written (r :: records) = {a | r.Writes a} ∪ written records := by
  ext a
  simp only [written, List.mem_cons, exists_eq_or_imp, Set.mem_union, Set.mem_ofPred_eq]

/-- What the loader has done after some records. -/
structure Loading.FollowsAll (records : List Record) (l l' : Loading) : Prop where
  memP : l'.cpu.memP = records.foldl Record.apply l.cpu.memP
  pc : l'.cpu.pc = ((lastTransfer records).map (W36.halves 0)).getD l.cpu.pc
  others : l'.cpu = { l.cpu with memP := l'.cpu.memP, pc := l'.cpu.pc }
  bounds : ∀ {S}, l.Bounds S → l'.Bounds (S ∪ written records)

@[simp] lemma Loading.pc_putAll (l : Loading) (a : ℕ) (words : List W36) :
    (l.putAll a words).cpu.pc = l.cpu.pc := by
  induction words generalizing l a with
  | nil => rfl
  | cons w words ih => exact ih _ _

/-- The last transfer record decides. -/
lemma Loading.pc_foldl (records : List Record) (l : Loading) :
    (records.foldl Loading.load l).cpu.pc =
      ((lastTransfer records).map (W36.halves 0)).getD l.cpu.pc := by
  induction records generalizing l with
  | nil => rfl
  | cons r records ih =>
      rw [List.foldl_cons, ih]
      cases r with
      | comment => rfl
      | zero address count fits => exact congrArg _ (l.pc_putAll _ _)
      | data address words nonempty fits wc => exact congrArg _ (l.pc_putAll _ _)
      | transfer address =>
          have hlast : lastTransfer (.transfer address :: records) =
              some ((lastTransfer records).getD address) := List.getLast?_cons
          rw [hlast]
          cases lastTransfer records <;> rfl

/-- **By induction on the records**, the loader does what they say. -/
lemma Loading.followsAll_foldl (records : List Record) (l : Loading) :
    FollowsAll records l (records.foldl Loading.load l) := by
  induction records generalizing l with
  | nil =>
      have hempty : written [] = ∅ :=
        Set.eq_empty_of_forall_notMem fun a ⟨_, hr, _⟩ => absurd hr List.not_mem_nil
      exact ⟨rfl, rfl, rfl, fun hl => by rw [hempty, Set.union_empty]; exact hl⟩
  | cons r records ih =>
      obtain ⟨hcpu, hbounds⟩ := l.follows_load r
      obtain ⟨hmemP, -, hothers, hall⟩ := ih (l.load r)
      have hmem : (l.load r).cpu.memP = r.apply l.cpu.memP := by rw [hcpu]
      refine ⟨by rw [List.foldl_cons, hmemP, hmem]; rfl, l.pc_foldl _, ?_, fun {S} hl => ?_⟩
      · rw [List.foldl_cons, hothers, hcpu]
      · rw [written_cons, ← Set.union_assoc]
        exact hall (hbounds hl)

/-! ### Addresses from 64K on -/

/-- From `l` to `l'` the lowest address has not gone up, and the highest one is one that the loader
can reach: its addresses have 16 bits, and it stores 64K words at most. -/
structure Loading.Reaches (l l' : Loading) : Prop where
  lowest : l'.lowestAddr ≤ l.lowestAddr
  highest : l.highestAddr < 0o377777 → l'.highestAddr < 0o377777

lemma Loading.Reaches.refl (l : Loading) : l.Reaches l := ⟨le_rfl, id⟩

lemma Loading.Reaches.trans {l l' l'' : Loading} (h : l.Reaches l') (h' : l'.Reaches l'') :
    l.Reaches l'' := ⟨h'.lowest.trans h.lowest, h'.highest ∘ h.highest⟩

lemma Loading.reaches_put (l : Loading) {a : ℕ} (ha : a < 0o377777) (w : W36) :
    l.Reaches (l.put a w) where
  lowest := by
    rw [Loading.put, ← min_def_lt]
    exact min_le_right _ _
  highest hl := by
    rw [Loading.put, ← max_def_lt]
    exact max_lt hl ha

lemma Loading.lowestAddr_put_le (l : Loading) (a : ℕ) (w : W36) :
    (l.put a w).lowestAddr ≤ a := by
  rw [Loading.put, ← min_def_lt]
  exact min_le_left _ _

lemma Loading.reaches_zero (l : Loading) {addr count : ℕ} (h : addr + count ≤ 0o377777) :
    l.Reaches (l.zero addr count) := by
  induction count generalizing l addr with
  | zero => exact .refl l
  | succ count ih => exact (l.reaches_put (by omega) 0).trans (ih _ (by omega))

lemma Loading.reaches_store (l : Loading) {addr count : ℕ} (h : addr + count ≤ 0o377777)
    (inS : InStream) : l.Reaches (l.store addr inS count).1 := by
  induction count generalizing l addr inS with
  | zero => exact .refl l
  | succ count ih => exact (l.reaches_put (by omega) _).trans (ih _ (by omega) _)

lemma zeroWords_bounds (count : BitVec 16) : 1 ≤ zeroWords count ∧ zeroWords count ≤ 64 * 1024 := by
  rw [zeroWords]
  split
  case isTrue => exact ⟨by decide, le_rfl⟩
  case isFalse hcount =>
    have hpos : count.toNat ≠ 0 := fun h => hcount (BitVec.toNat_inj.mp h)
    have hlt := count.isLt
    omega

lemma reaches_loadFields (l : Loading) (recType : BitVec 8) (wc addr : BitVec 16)
    (inS : InStream) : l.Reaches (loadFields l recType wc addr inS).1 := by
  have haddr := addr.isLt
  rw [loadFields]
  split
  · have hcount := zeroWords_bounds (getWord inS).1
    rw [zeroWords] at hcount
    exact l.reaches_zero (by omega)
  · split
    · have hwc := wc.isLt
      have hl : l.Reaches (if wc = 0 then l.transfer addr else l) := by
        split
        · exact ⟨le_rfl, id⟩
        · exact .refl l
      exact hl.trans (Loading.reaches_store _ (by omega) inS)
    · exact .refl l

/-- Whatever the file, the loader stays within its reach. -/
lemma reaches_loadRecords (l : Loading) (inS : InStream) : l.Reaches (loadRecords l inS) := by
  induction l, inS using loadRecords.induct with
  | case1 l => rw [loadRecords]; exact .refl l
  | case2 l recType inS hend => rw [loadRecords, if_pos hend]; exact .refl l
  | case3 l inS hend ih =>
      rw [loadRecords, if_neg hend, if_pos rfl]
      exact ih
  | case4 l recType inS hend hcomment ih =>
      rw [loadRecords, if_neg hend, if_neg hcomment]
      exact (reaches_loadFields _ _ _ _ _).trans ih

/-- A record of which a word is stored takes the lowest address below 64K. -/
lemma lowestAddr_loadFields_lt (l : Loading) {recType : BitVec 8} {wc : BitVec 16}
    (h : recType = ascii 'Z' ∨ recType = ascii 'T' ∧ 3 ≤ wc.toNat) (addr : BitVec 16)
    (inS : InStream) : (loadFields l recType wc addr inS).1.lowestAddr < 0o200000 := by
  have haddr := addr.isLt
  rw [loadFields]
  obtain rfl | ⟨rfl, hwc⟩ := h
  · have hcount := zeroWords_bounds (getWord inS).1
    rw [zeroWords] at hcount
    obtain ⟨n, hn⟩ := Nat.exists_eq_add_of_le' hcount.1
    rw [hn] at hcount
    rw [if_pos rfl]
    change (l.zero addr.toNat (if (getWord inS).1 = 0 then _ else _)).lowestAddr < _
    rw [hn]
    have hzero := (l.put addr.toNat 0).reaches_zero
      (show addr.toNat + 1 + n ≤ 0o377777 by omega)
    exact (hzero.lowest.trans (l.lowestAddr_put_le _ _)).trans_lt haddr
  · have hlt := wc.isLt
    obtain ⟨n, hn⟩ := Nat.exists_eq_add_of_le' (show 1 ≤ wc.toNat / 3 by omega)
    have hpos : wc ≠ 0 := by
      rintro rfl
      exact absurd hwc (by decide)
    rw [if_neg (by decide), if_pos rfl, if_neg hpos, hn]
    refine LE.le.trans_lt ?_ haddr
    have hreach : addr.toNat + 1 + n ≤ 0o377777 := by omega
    exact (Loading.reaches_store _ hreach _).lowest.trans (l.lowestAddr_put_le _ _)

/-- The word count of a record from 64K on is more than its words. -/
lemma le_countField {address : BitVec 18} (h : 0o200000 ≤ address.toNat) {n : ℕ} (hn : n < 2 ^ 8) :
    3 ≤ (countField address n).toNat := by
  have haddress := address.isLt
  rw [countField, BitVec.toNat_ofNat]
  omega

/-- So does a line with such fields. -/
lemma lowestAddr_fields_lt {recType : BitVec 8} {address : BitVec 18} {n : ℕ} {wc adr : InStream}
    (hn : n < 2 ^ 8) (hwc : IsField wc (countField address n))
    (hadr : IsField adr (address.setWidth 16))
    (h : recType = ascii 'Z' ∨ recType = ascii 'T' ∧ 0o200000 ≤ address.toNat)
    (l : Loading) (text : InStream) :
    (loadRecords l (recType :: ascii ' ' :: (wc ++ ascii ',' :: (adr ++ ascii ',' ::
      text)))).lowestAddr < 0o200000 := by
  have hstored : recType = ascii 'Z' ∨ recType = ascii 'T' ∧ 3 ≤ (countField address n).toNat :=
    h.imp_right fun h => ⟨h.1, le_countField h.2 hn⟩
  rw [loadRecords_fields (h.imp_right And.left) hn hwc hadr]
  exact (reaches_loadRecords _ _).lowest.trans_lt (lowestAddr_loadFields_lt l hstored _ _)

/-- A record that is not in the first 64K is from there on. -/
lemma Record.le_address {r : Record} (h : ¬ r.Low) {address : BitVec 18}
    (haddress : r.address = some address) : 0o200000 ≤ address.toNat := by
  by_contra hlt
  refine h fun a ha => ?_
  rw [haddress] at ha
  cases ha
  exact not_le.mp hlt

/-- **A record from 64K on** is loaded below. -/
lemma IsLine.lowestAddr_lt {r : Record} {line : InStream} (h : IsLine r line) (hhigh : ¬ r.Low)
    (l : Loading) (more : InStream) : (loadRecords l (line ++ more)).lowestAddr < 0o200000 := by
  cases h with
  | comment => exact absurd (fun _ ha => by cases ha) hhigh
  | zero hn hwc hadr hcnt hrest =>
      simp only [List.cons_append, List.append_assoc]
      exact lowestAddr_fields_lt (by omega) hwc hadr (.inl rfl) l _
  | @data address words nonempty _ hbyte wc adr text cksum hwc hadr hdata hcksum =>
      simp only [List.cons_append, List.append_assoc]
      exact lowestAddr_fields_lt hbyte hwc hadr (.inr ⟨rfl, Record.le_address hhigh rfl⟩) l _
  | transfer hwc hadr hcksum =>
      simp only [List.cons_append, List.append_assoc]
      exact lowestAddr_fields_lt (by decide) hwc hadr (.inr ⟨rfl, Record.le_address hhigh rfl⟩) l _

/-- So is every file with such a record. -/
lemma IsFile.lowestAddr_lt {records : List Record} {text : InStream} (h : IsFile records text)
    (hhigh : ∃ r ∈ records, ¬ r.Low) (l : Loading) :
    (loadRecords l text).lowestAddr < 0o200000 := by
  induction h generalizing l with
  | eof =>
      obtain ⟨r, hr, -⟩ := hhigh
      exact absurd hr List.not_mem_nil
  | nul =>
      obtain ⟨r, hr, -⟩ := hhigh
      exact absurd hr List.not_mem_nil
  | @cons r line text records hline _ ih =>
      by_cases hr : r.Low
      · rw [hline.loadRecords_append hr]
        refine ih ?_ _
        obtain ⟨r', hr', hhigh⟩ := hhigh
        rcases List.mem_cons.mp hr' with rfl | hr'
        · exact absurd hr hhigh
        · exact ⟨r', hr', hhigh⟩
      · exact hline.lowestAddr_lt hr l text

/-! ### Files -/

/-- A file of records in the first 64K. -/
lemma IsFile.loads {records : List Record} {text : InStream} (h : IsFile records text)
    (hlow : ∀ r ∈ records, r.Low) (s : Cpu) : Loads records s (s.loadA10 text) := by
  have hfollows := Loading.followsAll_foldl records ⟨s, 0o777777, 0⟩
  rw [← h.loadRecords_eq hlow] at hfollows
  have hstart : Loading.Bounds ⟨s, 0o777777, 0⟩ ∅ :=
    ⟨by rw [insert_empty_eq]; exact isLeast_singleton,
      by rw [insert_empty_eq]; exact isGreatest_singleton⟩
  have hbounds := hfollows.bounds hstart
  rw [Set.empty_union] at hbounds
  exact
    { memP := hfollows.memP
      untouched := fun a ha => (congrFun hfollows.memP a).trans (foldl_apply_of_notMem ha _)
      pc := hfollows.pc
      others := hfollows.others
      lowest := hbounds.lowest
      highest := hbounds.highest }

/-- A file that writes nothing in the first 64K is not loaded if a record is from there on. -/
lemma IsFile.not_loads {records : List Record} {text : InStream} (h : IsFile records text)
    (hhigh : ∃ r ∈ records, ¬ r.Low) (hwritten : ∀ a ∈ written records, 0o200000 ≤ a) (s : Cpu) :
    ¬ Loads records s (s.loadA10 text) := by
  intro hloads
  have hlt : (s.loadA10 text).1.1 < 0o200000 := h.lowestAddr_lt hhigh _
  rcases hloads.lowest.1 with heq | hmem
  · rw [heq] at hlt
    exact absurd hlt (by decide)
  · exact absurd hlt (not_lt.mpr (hwritten _ hmem))

/-- Nor is one that writes an address which the loader does not reach. -/
lemma not_loads_of_written {records : List Record} (text : InStream)
    (h : ∃ a ∈ written records, 0o377777 ≤ a) (s : Cpu) :
    ¬ Loads records s (s.loadA10 text) := by
  intro hloads
  obtain ⟨a, ha, hle⟩ := h
  have hlt : (s.loadA10 text).1.2 < 0o377777 :=
    (reaches_loadRecords _ text).highest (show 0 < 0o377777 by decide)
  have hge := hloads.highest.2 (Set.mem_insert_of_mem 0 ha)
  omega

/-- **ASCIIZED files** of records in the first 64K are loaded right.  A file with another record is
not, if it writes nothing in the first 64K or writes an address that the loader does not reach; and
a file of one record is loaded right exactly if it is in the first 64K. -/
theorem a10_loads {records : List Record} {text : InStream} (h : IsFile records text) (s : Cpu) :
    ((∀ r ∈ records, r.Low) → Loads records s (s.loadA10 text)) ∧
      ((∃ r ∈ records, ¬ r.Low) → (∀ a ∈ written records, 0o200000 ≤ a) →
        ¬ Loads records s (s.loadA10 text)) ∧
      ((∃ a ∈ written records, 0o377777 ≤ a) → ¬ Loads records s (s.loadA10 text)) ∧
      ∀ r, records = [r] → (Loads records s (s.loadA10 text) ↔ r.Low) := by
  refine ⟨fun hlow => h.loads hlow s, fun hhigh hwritten => h.not_loads hhigh hwritten s,
    fun hreach => not_loads_of_written text hreach s, ?_⟩
  rintro r rfl
  constructor
  · intro hloads
    by_contra hhigh
    refine h.not_loads ⟨r, List.mem_singleton_self r, hhigh⟩ ?_ s hloads
    rintro a ⟨r', hr', address, haddress, hle, -⟩
    cases List.mem_singleton.mp hr'
    exact (Record.le_address hhigh haddress).trans hle
  · intro hlow
    exact h.loads (List.forall_mem_singleton.mpr hlow) s

/-- JRST 4,1000, a word to load. -/
def haltWord : W36 := 0o254200001000

/-- Its three fields. -/
lemma isData_haltWord :
    IsData [haltWord] (['H', '@', ',', 'F', 'H', '@', ',', 'E', ','].map ascii) :=
  @IsData.cons haltWord [] (['H', '@'].map ascii) (['F', 'H', '@'].map ascii) (['E'].map ascii) []
    ⟨by decide, by decide⟩ ⟨by decide, by decide⟩ ⟨by decide, by decide⟩ .nil

/-- The word at 01000. -/
def lowRecord : Record := .data 0o1000 [haltWord] (by decide) (by decide) (by decide)

/-- Its line. -/
def lowLine : InStream :=
  (['T', ' ', 'C', ',', 'H', '@', ','] ++ ['H', '@', ',', 'F', 'H', '@', ',', 'E', ','] ++
    ['I', 'g', 'x', '\n']).map ascii

lemma isLine_lowLine : IsLine lowRecord lowLine :=
  @IsLine.data 0o1000 [haltWord] _ _ _ (['C'].map ascii) (['H', '@'].map ascii) _
    (['I', 'g', 'x'].map ascii) ⟨by decide, by decide⟩ ⟨by decide, by decide⟩ isData_haltWord
    (by decide)

/-- The transfer to it. -/
def transferLine : InStream := ['T', ' ', ',', 'H', '@', ',', 'O', 'x', '@', '\n'].map ascii

lemma isLine_transferLine : IsLine (.transfer 0o1000) transferLine :=
  @IsLine.transfer 0o1000 [] (['H', '@'].map ascii) (['O', 'x', '@'].map ascii)
    ⟨by decide, by decide⟩ ⟨by decide, by decide⟩ (by decide)

theorem a10_loads_low :
    Loads [lowRecord, .transfer 0o1000] Cpu.initial
      (Cpu.initial.loadA10 (lowLine ++ (transferLine ++ []))) := by
  refine (a10_loads (.cons isLine_lowLine (.cons isLine_transferLine .eof)) Cpu.initial).1 ?_
  rw [List.forall_mem_cons, List.forall_mem_singleton]
  constructor
  · rintro _ ⟨⟩
    decide
  · rintro _ ⟨⟩
    decide

/-- The word at 0200000. -/
def highRecord : Record := .data 0o200000 [haltWord] (by decide) (by decide) (by decide)

/-- Its line. -/
def highLine : InStream :=
  (['T', ' ', 'D', 'C', ',', ','] ++ ['H', '@', ',', 'F', 'H', '@', ',', 'E', ','] ++
    ['I', 'k', 'x', '\n']).map ascii

/-- What the loader makes of it. -/
def highLoaded : Loading :=
  (loadRecord ⟨Cpu.initial, 0o777777, 0⟩ (ascii 'T') highLine.tail).1

lemma loadRecords_highLine : loadRecords ⟨Cpu.initial, 0o777777, 0⟩ highLine = highLoaded := by
  have hcons : highLine = ascii 'T' :: highLine.tail := by decide
  have hend : (loadRecord ⟨Cpu.initial, 0o777777, 0⟩ (ascii 'T') highLine.tail).2 = [] := by
    decide +kernel
  rw [hcons, loadRecords_cons (.inr rfl), hend, loadRecords]
  rfl

/-- **The word at 0200000** is loaded at 0, and 85 more after it. -/
theorem a10_high_at_zero :
    IsFile [highRecord] (highLine ++ []) ∧
      (Cpu.initial.loadA10 (highLine ++ [])).1 = (0, 85) ∧
      (Cpu.initial.loadA10 (highLine ++ [])).2.memP 0 = haltWord ∧
      ¬ Loads [highRecord] Cpu.initial (Cpu.initial.loadA10 (highLine ++ [])) := by
  have hline : IsLine highRecord highLine :=
    @IsLine.data 0o200000 [haltWord] _ _ _ (['D', 'C'].map ascii) [] _
      (['I', 'k', 'x'].map ascii) ⟨by decide, by decide⟩ ⟨by decide, by decide⟩ isData_haltWord
      (by decide)
  have hbounds : (highLoaded.lowestAddr, highLoaded.highestAddr) = (0, 85) := by decide +kernel
  have hmemP : highLoaded.cpu.memP 0 = haltWord := by decide +kernel
  rw [List.append_nil, Cpu.loadA10, loadRecords_highLine]
  refine ⟨?_, hbounds, hmemP, fun hloads => ?_⟩
  · rw [← List.append_nil highLine]
    exact .cons hline .eof
  · have hzero := congrFun hloads.memP 0
    rw [hmemP] at hzero
    exact absurd hzero (by decide)

end KM10
