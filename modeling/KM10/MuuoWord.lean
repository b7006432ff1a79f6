import KM10.Effects.UUOs

/-!
The word with flags, opcode and AC that an MUUO stores at 424 of the UPT.

In executive mode the whole process context word is added to it, whose fields overlap those of
the flags, the opcode and the AC.

* `Cpu.muuoWord`, `exists_run_of_executesMUUO`: the word, and that an MUUO stores it;
* `getLsbD_uuoWord`: its bits without the context word;
* `LeavesRoom`: the context words that have nothing where the word has its fields;
* `decodableAt_iff`: with these, and no others, two MUUOs that store the same word had the same
  flags, opcode and AC.
-/

namespace KM10

open StateExcept ProgramFlags

/-- The flags that an MUUO saves. -/
def savedFlags (f : ProgramFlags) : ProgramFlags :=
  { f with cy0 := false, cy1 := false, ov := false }

/-- The word that an MUUO stores at 424 of the UPT. -/
def Cpu.muuoWord (s : Cpu) : W36 :=
  (if s.flags.usr then 0 else s.pag.getPCW) ||| uuoWord (savedFlags s.flags) s.iw

/-! ### The run -/

/-- An MUUO stores the word, and its other stores are elsewhere. -/
lemma exists_run_doMUUO (s : Cpu) :
    ∃ t, doMUUO.run s = .ok (.iMUUO, t) ∧ t.word 0o424 = s.muuoWord := by
  obtain ⟨s1, h1⟩ : ∃ s1, (uptPutN s.muuoWord 0o424).run
      { s.hit s.addressGBPs (W36.ofNat (muuoNewPC s.flags)).vma.toNat with
        fetchPC := s.word (W36.ofNat (muuoNewPC s.flags)).rhu } = .ok ((), s1) :=
    ⟨_, run_uptPutN _ _ _⟩
  obtain ⟨s2, h2⟩ : ∃ s2, (uptPutN (W36.ofNat (s1.pc.vma.toNat + 1)) 0o425).run s1 =
      .ok ((), s2) := ⟨_, run_uptPutN _ _ _⟩
  obtain ⟨s3, h3⟩ : ∃ s3, (uptPutN s2.ea 0o426).run s2 = .ok ((), s3) := ⟨_, run_uptPutN _ _ _⟩
  obtain ⟨s4, h4⟩ : ∃ s4, (uptPutN s.pag.getPCW 0o427).run s3 = .ok ((), s4) :=
    ⟨_, run_uptPutN _ _ _⟩
  refine ⟨{ s4 with flags := .none, pc := s.word (W36.ofNat (muuoNewPC s.flags)).rhu }, ?_, ?_⟩
  · rw [doMUUO, run_bind_of_ok (run_gets Cpu.flags s), run_bind_of_ok (run_gets Cpu.toDevices s)]
    simp only []
    rw [run_bind_of_ok (run_uptGetN _ s), run_bind_of_ok (run_setFetchPC _ _),
      run_bind_of_ok (run_gets Cpu.iw _)]
    refine (run_bind_of_ok h1).trans ?_
    rw [run_bind_of_ok (run_gets Cpu.pc s1), run_bind_of_ok h2, run_bind_of_ok (run_gets Cpu.ea s2),
      run_bind_of_ok h3]
    refine (run_bind_of_ok h4).trans rfl
  · calc s4.word 0o424
      _ = s3.word 0o424 := by
          rw [(of_uptPutN h4).2]
          exact word_setWord_of_ne (by decide)
      _ = s2.word 0o424 := by
          rw [(of_uptPutN h3).2]
          exact word_setWord_of_ne (by decide)
      _ = s1.word 0o424 := by
          rw [(of_uptPutN h2).2]
          exact word_setWord_of_ne (by decide)
      _ = s.muuoWord := by
          rw [(of_uptPutN h1).2]
          exact word_setWord _ _ _

/-- An executive LUUO outside of section 0 runs as an MUUO. -/
lemma run_doLUUO_of_executive {s : Cpu} (hsection : s.pc.isSection0 = false)
    (husr : s.flags.usr = false) : doLUUO.run s = doMUUO.run s := by
  rw [doLUUO, run_bind_of_ok (run_gets Cpu.pc s), userMode, bind_assoc,
    run_bind_of_ok (run_gets Cpu.flags s), pure_bind, hsection, husr, if_neg Bool.false_ne_true,
    if_neg Bool.false_ne_true]

/-- **The opcodes that execute as MUUOs** store the word. -/
lemma exists_run_of_executesMUUO {s : Cpu} (h : s.executesMUUO s.iw.op.toNat = true) :
    ∃ t, (ops s.iw.op.toNat).run s = .ok (.iMUUO, t) ∧ t.word 0o424 = s.muuoWord := by
  rw [Cpu.executesMUUO, Bool.or_eq_true, Bool.and_eq_true, Bool.not_eq_true',
    Bool.or_eq_false_iff] at h
  rcases h with h | ⟨h, hsection, husr⟩
  · rw [ops_of_isMUUO h]
    exact exists_run_doMUUO s
  · rw [ops_LUUO h, run_doLUUO_of_executive hsection husr]
    exact exists_run_doMUUO s

/-- The number that has the bits in a list. -/
def maskOf (ns : List ℕ) : ℕ := ns.foldr (fun n mask => mask ||| 1 <<< n) 0

lemma testBit_maskOf {ns : List ℕ} {k : ℕ} : (maskOf ns).testBit k = true ↔ k ∈ ns := by
  induction ns with
  | nil => simp [maskOf]
  | cons n ns ih =>
      change (maskOf ns ||| 1 <<< n).testBit k = true ↔ _
      rw [Nat.testBit_or, Bool.or_eq_true, ih, Nat.shiftLeft_eq, Nat.one_mul, Nat.testBit_two_pow,
        decide_eq_true_iff, List.mem_cons, or_comm, eq_comm]

/-- From 400 on all opcodes are installed. -/
lemma installed_of_le {op : ℕ} (hle : 0o400 ≤ op) (hlt : op < 0o1000) : isMUUO op = false := by
  have hmask : maskOf (installs.map Prod.fst) >>> 0o400 = 2 ^ 0o400 - 1 := by decide +kernel
  rw [isMUUO, decide_eq_false_iff_not, not_not, ← testBit_maskOf]
  calc (maskOf (installs.map Prod.fst)).testBit op
    _ = (maskOf (installs.map Prod.fst) >>> 0o400).testBit (op - 0o400) := by
        rw [Nat.testBit_shiftRight, Nat.add_sub_cancel' hle]
    _ = true := by
        rw [hmask, Nat.testBit_two_pow_sub_one, decide_eq_true_iff]
        omega

/-- All of them are below 400. -/
lemma op_lt_of_executesMUUO {s : Cpu} (h : s.executesMUUO s.iw.op.toNat = true) :
    s.iw.op.toNat < 0o400 := by
  rw [Cpu.executesMUUO, Bool.or_eq_true, Bool.and_eq_true] at h
  rcases h with h | ⟨h, -⟩
  · by_contra hle
    rw [installed_of_le (not_lt.mp hle) s.iw.op.isLt] at h
    cases h
  · rw [isLUUO, decide_eq_true_eq] at h
    omega

/-! ### The bits of the word -/

/-- The bits of the fields: the AC from bit 5 on, the opcode from bit 15 on, and the flags from
bit 23 on. -/
lemma getLsbD_uuoWord (f : ProgramFlags) (iw : W36) {k : ℕ} (hk : k < 36) :
    (uuoWord f iw).getLsbD k =
      (decide (23 ≤ k) && f.u.getLsbD (k - 23) || decide (15 ≤ k) && iw.op.getLsbD (k - 15) ||
        decide (5 ≤ k) && iw.ac.getLsbD (k - 5)) := by
  have hnot (m : ℕ) : (!decide (k < m)) = decide (m ≤ k) := by
    rw [← decide_not, decide_eq_decide]
    exact Nat.not_lt
  have hsub (m : ℕ) : decide (k - m < 36) = true := decide_eq_true (by omega)
  simp only [uuoWord, BitVec.getLsbD_or, BitVec.getLsbD_shiftLeft, BitVec.getLsbD_setWidth, hk,
    hnot, hsub, decide_true, Bool.true_and]

/-- The saved flags that are not always zero, but for `USR`. -/
def variableFlags : BitVec 13 := 0o1577

/-- Saved flags with the same variable flags and the same mode are the same. -/
lemma savedFlags_eq {f g : ProgramFlags}
    (h : (savedFlags f).u &&& variableFlags = (savedFlags g).u &&& variableFlags)
    (husr : f.usr = g.usr) : savedFlags f = savedFlags g := by
  have hbit (k : ℕ) (hk : variableFlags.getLsbD k = true) :
      (savedFlags f).u.getLsbD k = (savedFlags g).u.getLsbD k := by
    have hand := congrArg (BitVec.getLsbD · k) h
    simpa only [BitVec.getLsbD_and, hk, Bool.and_true] using hand
  simp only [getLsbD_u] at hbit
  have h0 : f.ndv = g.ndv := hbit 0 rfl
  have h1 : f.fuf = g.fuf := hbit 1 rfl
  have h2 : f.tr1 = g.tr1 := hbit 2 rfl
  have h3 : f.tr2 = g.tr2 := hbit 3 rfl
  have h4 : f.afi = g.afi := hbit 4 rfl
  have h5 : f.pub = g.pub := hbit 5 rfl
  have h6 : f.uio = g.uio := hbit 6 rfl
  have h8 : f.fpd = g.fpd := hbit 8 rfl
  have h9 : f.fov = g.fov := hbit 9 rfl
  rw [savedFlags, savedFlags, h0, h1, h2, h3, h4, h5, h6, h8, h9, husr]

/-! ### Fields -/

/-- The opcode field of the word. -/
def opField (w : W36) : BitVec 8 := w.extractLsb' 15 8

/-- The AC field of the word. -/
def acField (w : W36) : BitVec 4 := w.extractLsb' 5 4

/-- The flags of the word that vary, without `USR`. -/
def flagField (w : W36) : BitVec 13 := w.extractLsb' 23 13 &&& variableFlags

/-- **The context words that leave room**: they have nothing in the three fields, and are not
the flag `USR` alone. -/
structure LeavesRoom (w : W36) : Prop where
  op : opField w = 0
  ac : acField w = 0
  flags : flagField w = 0
  usr : w ≠ 0o10000000000

/-- The fields of the word without a context word. -/
lemma fields_uuoWord (f : ProgramFlags) {iw : W36} (hop : iw.op.toNat < 0o400) :
    opField (uuoWord f iw) = iw.op.setWidth 8 ∧ acField (uuoWord f iw) = iw.ac ∧
      flagField (uuoWord f iw) = f.u &&& variableFlags := by
  have hhigh (j : ℕ) (hj : 8 ≤ j) : iw.op.getLsbD j = false := by
    rw [← BitVec.testBit_toNat]
    exact Nat.testBit_lt_two_pow (hop.trans_le (Nat.pow_le_pow_right Nat.two_pos hj))
  have hac (j : ℕ) (hj : 4 ≤ j) : iw.ac.getLsbD j = false := BitVec.getLsbD_of_ge _ _ hj
  refine ⟨BitVec.eq_of_getLsbD_eq fun k hk => ?_, BitVec.eq_of_getLsbD_eq fun k hk => ?_,
    BitVec.eq_of_getLsbD_eq fun k hk => ?_⟩
  · rw [opField, BitVec.getLsbD_extractLsb', getLsbD_uuoWord f iw (by omega),
      hac (15 + k - 5) (by omega), BitVec.getLsbD_setWidth]
    simp only [show ¬ 23 ≤ 15 + k by omega, Nat.le_add_right, Nat.add_sub_cancel_left, decide_true,
      decide_false, Bool.true_and, Bool.false_and, Bool.and_false, Bool.false_or, Bool.or_false]
  · rw [acField, BitVec.getLsbD_extractLsb', getLsbD_uuoWord f iw (by omega)]
    simp only [show ¬ 23 ≤ 5 + k by omega, show ¬ 15 ≤ 5 + k by omega, hk, Nat.le_add_right,
      Nat.add_sub_cancel_left, decide_true, decide_false, Bool.true_and, Bool.false_and,
      Bool.false_or]
  · rw [flagField, BitVec.getLsbD_and, BitVec.getLsbD_and, BitVec.getLsbD_extractLsb',
      getLsbD_uuoWord f iw (by omega), hhigh (23 + k - 15) (by omega), hac (23 + k - 5) (by omega)]
    simp only [hk, Nat.le_add_right, Nat.add_sub_cancel_left, decide_true, Bool.true_and,
      Bool.and_false, Bool.or_false]

lemma opField_or (v w : W36) : opField (v ||| w) = opField v ||| opField w :=
  BitVec.extractLsb'_or

lemma acField_or (v w : W36) : acField (v ||| w) = acField v ||| acField w :=
  BitVec.extractLsb'_or

lemma flagField_or (v w : W36) : flagField (v ||| w) = flagField v ||| flagField w := by
  rw [flagField, BitVec.extractLsb'_or]
  refine BitVec.eq_of_getLsbD_eq fun k _ => ?_
  simp only [flagField, BitVec.getLsbD_and, BitVec.getLsbD_or, Bool.and_or_distrib_right]

/-- Bits between the fields are not set. -/
lemma getLsbD_uuoWord_gap (f : ProgramFlags) (iw : W36) {k : ℕ} (hk : k < 36)
    (hgap : k < 5 ∨ 9 ≤ k ∧ k < 15 ∨ 33 ≤ k) (hop : iw.op.toNat < 0o400) :
    (uuoWord (savedFlags f) iw).getLsbD k = false := by
  have hhigh (j : ℕ) (hj : 8 ≤ j) : iw.op.getLsbD j = false := by
    rw [← BitVec.testBit_toNat]
    exact Nat.testBit_lt_two_pow (hop.trans_le (Nat.pow_le_pow_right Nat.two_pos hj))
  have hac (j : ℕ) (hj : 4 ≤ j) : iw.ac.getLsbD j = false := BitVec.getLsbD_of_ge _ _ hj
  rw [getLsbD_uuoWord _ _ hk]
  rcases hgap with hlow | ⟨h9, h15⟩ | h33
  · simp only [show ¬ 23 ≤ k by omega, show ¬ 15 ≤ k by omega, show ¬ 5 ≤ k by omega, decide_false,
      Bool.false_and, Bool.or_self]
  · rw [hac (k - 5) (by omega)]
    simp only [show ¬ 23 ≤ k by omega, show ¬ 15 ≤ k by omega, decide_false, Bool.false_and,
      Bool.and_false, Bool.or_self]
  · rw [hhigh (k - 15) (by omega), hac (k - 5) (by omega), getLsbD_u]
    obtain rfl | rfl | rfl : k = 33 ∨ k = 34 ∨ k = 35 := by omega
    all_goals rfl

/-- The bit of `USR`. -/
lemma getLsbD_uuoWord_usr (f : ProgramFlags) (iw : W36) :
    (uuoWord (savedFlags f) iw).getLsbD 30 = f.usr := by
  have hop : iw.op.getLsbD 15 = false := BitVec.getLsbD_of_ge _ _ (by decide)
  have hac : iw.ac.getLsbD 25 = false := BitVec.getLsbD_of_ge _ _ (by decide)
  rw [getLsbD_uuoWord _ _ (by decide), hop, hac, getLsbD_u]
  exact (Bool.or_false _).trans (Bool.or_false _)

/-! ### Decoding -/

/-- The two MUUOs had the same saved flags, the same opcode and the same AC. -/
def SameOrigin (s s' : Cpu) : Prop :=
  savedFlags s.flags = savedFlags s'.flags ∧ s.iw.op = s'.iw.op ∧ s.iw.ac = s'.iw.ac

/-- With a context word, the stored word determines where it comes from. -/
def DecodableAt (c : ProcessContext) : Prop :=
  ∀ {s s' t t' : Cpu}, s.pag.processContext = c → s'.pag.processContext = c →
    s.executesMUUO s.iw.op.toNat = true → s'.executesMUUO s'.iw.op.toNat = true →
    (ops s.iw.op.toNat).run s = .ok (.iMUUO, t) → (ops s'.iw.op.toNat).run s' = .ok (.iMUUO, t') →
    t.word 0o424 = t'.word 0o424 → SameOrigin s s'

/-- What runs store is the word, so that it can be looked at instead. -/
lemma decodableAt_iff_muuoWord {c : ProcessContext} :
    DecodableAt c ↔ ∀ {s s' : Cpu}, s.pag.processContext = c → s'.pag.processContext = c →
      s.executesMUUO s.iw.op.toNat = true → s'.executesMUUO s'.iw.op.toNat = true →
      s.muuoWord = s'.muuoWord → SameOrigin s s' := by
  constructor
  · intro h s s' hs hs' hop hop' hword
    obtain ⟨t, hrun, ht⟩ := exists_run_of_executesMUUO hop
    obtain ⟨t', hrun', ht'⟩ := exists_run_of_executesMUUO hop'
    exact h hs hs' hop hop' hrun hrun' (by rw [ht, ht', hword])
  · intro h s s' t t' hs hs' hop hop' hrun hrun' hword
    obtain ⟨u, hu, huword⟩ := exists_run_of_executesMUUO hop
    obtain ⟨u', hu', huword'⟩ := exists_run_of_executesMUUO hop'
    rw [hu] at hrun
    rw [hu'] at hrun'
    cases hrun
    cases hrun'
    exact h hs hs' hop hop' (by rw [← huword, ← huword', hword])

/-- What is in front of the fields has nothing in them. -/
lemma LeavesRoom.ite {w : W36} (hw : LeavesRoom w) (usr : Bool) :
    opField (if usr then 0 else w) = 0 ∧ acField (if usr then 0 else w) = 0 ∧
      flagField (if usr then 0 else w) = 0 := by
  cases usr with
  | true =>
      have hzero : opField 0 = 0 ∧ acField 0 = 0 ∧ flagField 0 = 0 := by decide
      rw [if_pos rfl]
      exact hzero
  | false => exact ⟨hw.op, hw.ac, hw.flags⟩

/-- The bits of the fields of such a word. -/
lemma LeavesRoom.getLsbD {w : W36} (hw : LeavesRoom w) {k : ℕ}
    (hfield : 5 ≤ k ∧ k < 9 ∨ 15 ≤ k ∧ k < 30 ∨ 31 ≤ k ∧ k < 33) : w.getLsbD k = false := by
  have hac := congrArg (BitVec.getLsbD · (k - 5)) hw.ac
  have hop := congrArg (BitVec.getLsbD · (k - 15)) hw.op
  have hflags := congrArg (BitVec.getLsbD · (k - 23)) hw.flags
  simp only [acField, opField, flagField, BitVec.getLsbD_and, BitVec.getLsbD_extractLsb',
    BitVec.ofNat_eq_ofNat, BitVec.getLsbD_zero] at hac hop hflags
  rcases hfield with ⟨h5, h9⟩ | hhigh | hhigh
  · rwa [decide_eq_true (by omega), Bool.true_and, Nat.add_sub_cancel' h5] at hac
  · by_cases h23 : k < 23
    · rwa [decide_eq_true (by omega), Bool.true_and, Nat.add_sub_cancel' hhigh.1] at hop
    · have hvariable : variableFlags.getLsbD (k - 23) = true := by
        obtain h | h | h | h | h | h | h : k = 23 ∨ k = 24 ∨ k = 25 ∨ k = 26 ∨ k = 27 ∨ k = 28 ∨
          k = 29 := by omega
        all_goals rw [h]; rfl
      rwa [decide_eq_true (by omega), Bool.true_and, hvariable, Bool.and_true,
        Nat.add_sub_cancel' (by omega)] at hflags
  · have hvariable : variableFlags.getLsbD (k - 23) = true := by
      obtain h | h : k = 31 ∨ k = 32 := by omega
      all_goals rw [h]; rfl
    rwa [decide_eq_true (by omega), Bool.true_and, hvariable, Bool.and_true,
      Nat.add_sub_cancel' (by omega)] at hflags

/-- With the bit of `USR` it has another one between the fields. -/
lemma LeavesRoom.exists_gap {w : W36} (hw : LeavesRoom w) (h30 : w.getLsbD 30 = true) :
    ∃ k < 36, (k < 5 ∨ 9 ≤ k ∧ k < 15 ∨ 33 ≤ k) ∧ w.getLsbD k = true := by
  by_contra hnone
  refine hw.usr (BitVec.eq_of_getLsbD_eq fun k hk => ?_)
  have hconst : (0o10000000000 : W36) = BitVec.twoPow 36 30 := rfl
  rw [hconst, BitVec.getLsbD_twoPow]
  by_cases hk30 : k = 30
  · rw [hk30, h30]
    rfl
  · have hfalse : w.getLsbD k = false := by
      by_cases hgap : k < 5 ∨ 9 ≤ k ∧ k < 15 ∨ 33 ≤ k
      · rw [← Bool.not_eq_true]
        exact fun htrue => hnone ⟨k, hk, hgap, htrue⟩
      · exact hw.getLsbD (by omega)
    rw [hfalse, decide_eq_false (Ne.symm hk30), Bool.and_false]

/-- MUUOs in different modes store different words if the context word leaves room. -/
lemma muuoWord_ne_of_usr {c : ProcessContext} (hw : LeavesRoom c.u) {s s' : Cpu}
    (hs : s.pag.processContext = c) (hop' : s'.iw.op.toNat < 0o400)
    (husr : s.flags.usr = false) (husr' : s'.flags.usr = true) : s.muuoWord ≠ s'.muuoWord := by
  intro hword
  rw [Cpu.muuoWord, Cpu.muuoWord, husr, husr', if_neg Bool.false_ne_true, if_pos rfl,
    PAGDevice.getPCW, hs] at hword
  have hbit (k : ℕ) := congrArg (BitVec.getLsbD · k) hword
  simp only [BitVec.getLsbD_or, BitVec.ofNat_eq_ofNat, BitVec.getLsbD_zero, Bool.false_or] at hbit
  -- the bit of `USR` is set in the word of the user MUUO, and so in the context word
  have h30 : c.u.getLsbD 30 = true := by
    have husr30 := hbit 30
    rwa [getLsbD_uuoWord_usr, getLsbD_uuoWord_usr, husr, husr', Bool.or_false] at husr30
  obtain ⟨k, hk, hgap, hset⟩ := hw.exists_gap h30
  have hclear := hbit k
  rw [hset, Bool.true_or, getLsbD_uuoWord_gap _ _ hk hgap hop'] at hclear
  cases hclear

lemma ofNat_zero_or {n : ℕ} (x : BitVec n) : 0 ||| x = x := BitVec.zero_or

/-- **Decoding**: if the context word leaves room, the fields of the stored word are those of the
MUUO. -/
lemma decodableAt_of_leavesRoom {c : ProcessContext} (hw : LeavesRoom c.u) : DecodableAt c := by
  rw [decodableAt_iff_muuoWord]
  intro s s' hs hs' hop hop' hword
  have hlt := op_lt_of_executesMUUO hop
  have hlt' := op_lt_of_executesMUUO hop'
  have husr : s.flags.usr = s'.flags.usr := by
    cases h : s.flags.usr with
    | true =>
        cases h' : s'.flags.usr with
        | true => rfl
        | false => exact absurd hword.symm (muuoWord_ne_of_usr hw hs' hlt h' h)
    | false =>
        cases h' : s'.flags.usr with
        | true => exact absurd hword (muuoWord_ne_of_usr hw hs hlt' h h')
        | false => rfl
  rw [Cpu.muuoWord, Cpu.muuoWord, PAGDevice.getPCW, PAGDevice.getPCW, hs, hs'] at hword
  obtain ⟨hop0, hac0, hflags0⟩ := hw.ite s.flags.usr
  obtain ⟨hop0', hac0', hflags0'⟩ := hw.ite s'.flags.usr
  obtain ⟨hopf, hacf, hflagsf⟩ := fields_uuoWord (savedFlags s.flags) hlt
  obtain ⟨hopf', hacf', hflagsf'⟩ := fields_uuoWord (savedFlags s'.flags) hlt'
  refine ⟨savedFlags_eq ?_ husr, ?_, ?_⟩
  · have hflag := congrArg flagField hword
    rwa [flagField_or, flagField_or, hflags0, hflags0', hflagsf, hflagsf', ofNat_zero_or,
      ofNat_zero_or] at hflag
  · have hfield := congrArg opField hword
    rw [opField_or, opField_or, hop0, hop0', hopf, hopf', ofNat_zero_or, ofNat_zero_or] at hfield
    have hnat := congrArg BitVec.toNat hfield
    rw [BitVec.toNat_setWidth, BitVec.toNat_setWidth] at hnat
    exact BitVec.eq_of_toNat_eq (by omega)
  · have hfield := congrArg acField hword
    rwa [acField_or, acField_or, hac0, hac0', hacf, hacf', ofNat_zero_or, ofNat_zero_or] at hfield

/-! ### Collisions -/

/-- The flags of a user that has no others. -/
def ProgramFlags.onlyUSR : ProgramFlags := { ProgramFlags.none with usr := true }

/-- The flags of the executive after a division that was not done. -/
def ProgramFlags.onlyNDV : ProgramFlags := { ProgramFlags.none with ndv := true }

lemma isMUUO_zero : isMUUO (0 : BitVec 9).toNat = true := by decide +kernel

/-- The machine at an instruction, with flags and a context. -/
def Cpu.atUUO (c : ProcessContext) (f : ProgramFlags) (op : BitVec 9) (ac : BitVec 4) : Cpu :=
  { Cpu.initial with
    pag := { Devices.initial.pag with processContext := c }
    flags := f
    iw := W36.assemble op ac false 0 0 }

/-- A context word in which two MUUOs of the executive differ only where it has bits keeps them
from being decoded. -/
lemma DecodableAt.of_or_eq {c : ProcessContext} (h : DecodableAt c) (f f' : ProgramFlags)
    {op op' : BitVec 9} (hop : isMUUO op.toNat = true) (hop' : isMUUO op'.toNat = true)
    (ac ac' : BitVec 4)
    (hword : (Cpu.atUUO c f op ac).muuoWord = (Cpu.atUUO c f' op' ac').muuoWord) :
    savedFlags f = savedFlags f' ∧ op = op' ∧ ac = ac' := by
  have hexecutes {f : ProgramFlags} {op : BitVec 9} {ac : BitVec 4} (hop : isMUUO op.toNat = true) :
      (Cpu.atUUO c f op ac).executesMUUO (Cpu.atUUO c f op ac).iw.op.toNat = true := by
    rw [Cpu.executesMUUO, Cpu.atUUO, W36.op_assemble, hop]
    rfl
  obtain ⟨hflags, hops, hacs⟩ := decodableAt_iff_muuoWord.mp h rfl rfl (hexecutes hop)
    (hexecutes hop') hword
  rw [Cpu.atUUO, Cpu.atUUO, W36.op_assemble, W36.op_assemble] at hops
  rw [Cpu.atUUO, Cpu.atUUO, W36.ac_assemble, W36.ac_assemble] at hacs
  exact ⟨hflags, hops, hacs⟩

/-- Two MUUOs of the executive that differ only where the context word has bits store the same. -/
lemma muuoWord_atUUO_eq {c : ProcessContext} {f f' : ProgramFlags} {op op' : BitVec 9}
    {ac ac' : BitVec 4} (husr : f.usr = false) (husr' : f'.usr = false)
    (h : ∀ k < 36, c.u.getLsbD k = false →
      (uuoWord (savedFlags f) (W36.assemble op ac false 0 0)).getLsbD k =
        (uuoWord (savedFlags f') (W36.assemble op' ac' false 0 0)).getLsbD k) :
    (Cpu.atUUO c f op ac).muuoWord = (Cpu.atUUO c f' op' ac').muuoWord := by
  change ((if f.usr then 0 else c.u) ||| uuoWord (savedFlags f) (W36.assemble op ac false 0 0)) =
    ((if f'.usr then 0 else c.u) ||| uuoWord (savedFlags f') (W36.assemble op' ac' false 0 0))
  rw [husr, husr']
  refine BitVec.eq_of_getLsbD_eq fun k hk => ?_
  rw [BitVec.getLsbD_or, BitVec.getLsbD_or]
  cases hbit : c.u.getLsbD k with
  | true =>
      rw [if_neg Bool.false_ne_true, hbit, Bool.true_or, Bool.true_or]
  | false => rw [h k hk hbit]

lemma savedFlags_none : savedFlags .none = .none := rfl

/-- Flags that have none of those that are not saved. -/
lemma savedFlags_of_clear {f : ProgramFlags} (hcy1 : f.cy1 = false) (hcy0 : f.cy0 = false)
    (hov : f.ov = false) : savedFlags f = f := by
  cases f
  cases hcy1
  cases hcy0
  cases hov
  rfl

/-- The AC field of the context word is free. -/
lemma DecodableAt.acField_eq {c : ProcessContext} (h : DecodableAt c) : acField c.u = 0 := by
  refine (h.of_or_eq .none .none isMUUO_zero isMUUO_zero 0 (acField c.u)
    (muuoWord_atUUO_eq rfl rfl fun k hk hbit => ?_)).2.2.symm
  rw [getLsbD_uuoWord _ _ hk, getLsbD_uuoWord _ _ hk, W36.op_assemble, W36.op_assemble,
    W36.ac_assemble, W36.ac_assemble]
  have hac : (decide (5 ≤ k) && (acField c.u).getLsbD (k - 5)) = false := by
    by_cases h5 : 5 ≤ k
    · rw [acField, BitVec.getLsbD_extractLsb', Nat.add_sub_cancel' h5, hbit, Bool.and_false,
        Bool.and_false]
    · rw [decide_eq_false h5, Bool.false_and]
  have hzero : (0 : BitVec 4).getLsbD (k - 5) = false := BitVec.getLsbD_zero
  rw [hac, hzero, Bool.and_false]

/-- The flags of the context word are clear but for `USR`. -/
lemma DecodableAt.flagField_eq {c : ProcessContext} (h : DecodableAt c) : flagField c.u = 0 := by
  have hclear (k : ℕ) (hk : variableFlags.getLsbD k = false) :
      (flagField c.u).getLsbD k = false := by
    rw [flagField, BitVec.getLsbD_and, hk, Bool.and_false]
  have husr : (ofU (flagField c.u)).usr = false := hclear 7 rfl
  have hsaved : savedFlags (ofU (flagField c.u)) = ofU (flagField c.u) :=
    savedFlags_of_clear (hclear 10 rfl) (hclear 11 rfl) (hclear 12 rfl)
  have hsame := (h.of_or_eq .none (ofU (flagField c.u)) isMUUO_zero isMUUO_zero 0 0
    (muuoWord_atUUO_eq rfl husr fun k hk hbit => ?_)).1
  · rw [savedFlags_none, hsaved] at hsame
    have hu := congrArg u hsame
    rw [u_ofU] at hu
    exact hu.symm
  · have hflag : (decide (23 ≤ k) && (flagField c.u).getLsbD (k - 23)) = false := by
      by_cases h23 : 23 ≤ k
      · rw [flagField, BitVec.getLsbD_and, BitVec.getLsbD_extractLsb', Nat.add_sub_cancel' h23,
          hbit, Bool.and_false, Bool.false_and, Bool.and_false]
      · rw [decide_eq_false h23, Bool.false_and]
    have hzero : (ProgramFlags.none).u.getLsbD (k - 23) = false := by
      rw [ProgramFlags.none, u_ofU]
      exact BitVec.getLsbD_zero
    rw [getLsbD_uuoWord _ _ hk, getLsbD_uuoWord _ _ hk, hsaved, savedFlags_none, u_ofU, hflag,
      hzero, Bool.and_false]

/-- An MUUO opcode without bit `j` that stays one with it. -/
def opWithout (j : ℕ) : BitVec 9 := if j < 5 then 0o40 else if j = 7 then 0o47 else 0

/-- The opcode with the bit. -/
def opWith (j : ℕ) : BitVec 9 := opWithout j ||| BitVec.twoPow 9 j

lemma isMUUO_opWith : ∀ j < 8, isMUUO (opWithout j).toNat = true ∧
    isMUUO (opWith j).toNat = true ∧ opWithout j ≠ opWith j := by decide +kernel

/-- The opcode field of the context word is free. -/
lemma DecodableAt.opField_eq {c : ProcessContext} (h : DecodableAt c) : opField c.u = 0 := by
  refine BitVec.eq_of_getLsbD_eq fun j hj => ?_
  rw [BitVec.ofNat_eq_ofNat, BitVec.getLsbD_zero, ← Bool.not_eq_true]
  intro hset
  rw [opField, BitVec.getLsbD_extractLsb', Bool.and_eq_true] at hset
  obtain ⟨hwithout, hwith, hne⟩ := isMUUO_opWith j hj
  refine hne (h.of_or_eq .none .none hwithout hwith 0 0
    (muuoWord_atUUO_eq rfl rfl fun k hk hbit => ?_)).2.1
  have hop : (decide (15 ≤ k) && (BitVec.twoPow 9 j).getLsbD (k - 15)) = false := by
    rw [BitVec.getLsbD_twoPow, ← Bool.not_eq_true, Bool.and_eq_true, Bool.and_eq_true,
      decide_eq_true_iff, decide_eq_true_iff, decide_eq_true_iff]
    rintro ⟨h15, -, hjk⟩
    rw [hjk, Nat.add_sub_cancel' h15, hbit] at hset
    exact Bool.false_ne_true hset.2
  rw [getLsbD_uuoWord _ _ hk, getLsbD_uuoWord _ _ hk, W36.op_assemble, W36.op_assemble,
    W36.ac_assemble, W36.ac_assemble, opWith, BitVec.getLsbD_or, Bool.and_or_distrib_left, hop,
    Bool.or_false]

/-- The context word is not `USR` alone: with it the executive would look like a user. -/
lemma DecodableAt.ne_usr {c : ProcessContext} (h : DecodableAt c) : c.u ≠ 0o10000000000 := by
  intro hu
  have hword : (Cpu.atUUO c .none 0 0).muuoWord = (Cpu.atUUO c .onlyUSR 0 0).muuoWord := by
    change (c.u ||| uuoWord (savedFlags .none) (W36.assemble 0 0 false 0 0)) =
      0 ||| uuoWord (savedFlags .onlyUSR) (W36.assemble 0 0 false 0 0)
    rw [hu]
    rfl
  have husr := (h.of_or_eq .none .onlyUSR isMUUO_zero isMUUO_zero 0 0 hword).1
  exact absurd (congrArg ProgramFlags.usr husr) (by decide)

/-- **The MUUO word**: with a process context word, any two MUUOs that store the same word in
any modes had the same saved flags, opcode and AC exactly when the context word leaves room. -/
theorem decodableAt_iff (c : ProcessContext) : DecodableAt c ↔ LeavesRoom c.u :=
  ⟨fun h => ⟨h.opField_eq, h.acField_eq, h.flagField_eq, h.ne_usr⟩, decodableAt_of_leavesRoom⟩

/-- The context of AC block 1. -/
def ProcessContext.block1 : ProcessContext := { ProcessContext.initial with curACBlock := 1 }

/-- **An MUUO word that cannot be decoded**: with AC block 1, MUUO 40 of the executive stores the
same word whether or not no-divide was set. -/
theorem not_decodableAt_block1 :
    (∃ t t', (ops 0o40).run (Cpu.atUUO .block1 .none 0o40 0) = .ok (.iMUUO, t) ∧
      (ops 0o40).run (Cpu.atUUO .block1 .onlyNDV 0o40 0) =
        .ok (.iMUUO, t') ∧ t.word 0o424 = t'.word 0o424) ∧ ¬ DecodableAt .block1 := by
  have hop : isMUUO 0o40 = true := by decide +kernel
  have hword : (Cpu.atUUO .block1 .none 0o40 0).muuoWord =
      (Cpu.atUUO .block1 .onlyNDV 0o40 0).muuoWord := rfl
  constructor
  · rw [ops_of_isMUUO hop]
    obtain ⟨t, hrun, ht⟩ := exists_run_doMUUO (Cpu.atUUO .block1 .none 0o40 0)
    obtain ⟨t', hrun', ht'⟩ :=
      exists_run_doMUUO (Cpu.atUUO .block1 .onlyNDV 0o40 0)
    exact ⟨t, t', hrun, hrun', by rw [ht, ht', hword]⟩
  · intro h
    have hop9 : isMUUO (0o40 : BitVec 9).toNat = true := hop
    have hflags := (h.of_or_eq .none .onlyNDV hop9 hop9 0 0 hword).1
    exact absurd (congrArg ProgramFlags.ndv hflags) (by decide)

end KM10
