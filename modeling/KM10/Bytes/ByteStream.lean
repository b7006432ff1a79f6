import KM10.Bytes.LocalPointer
import KM10.Effects.Address

/-!
Streams of bytes through a pointer in memory.

ILDB and IDPB step a copy of the pointer that they fetch, and the copy is dropped.  Executed
over and over again they stay at the byte behind the original pointer.

* `ildb`, `idpb`: the instructions with their pointer at an address;
* `LoadsInOrder`, `ReadsBack`: what a stream of bytes promises;
* `run_doILDB`, `run_doIDPB`: what the code does;
* `byte_stream_iff`: it keeps the promise for the empty stream alone;
* `byte_stream_stays`: streams of two bytes;
* `reads_back_iff`: the deposits that are read back none the less.
-/

namespace KM10

open BytePointer StateExcept

/-! ### The instructions -/

/-- The execution of an instruction word. -/
def executeWord (w : W36) : Exec IResult := do
  setIw w
  dispatch

/-- `ILDB A,E`, and the word that it loads. -/
def ildb (A : BitVec 4) (E : BitVec 18) : Exec W36 := do
  let _ ← executeWord (W36.assemble 0o134 A false 0 E)
  acGet

/-- `IDPB A,E` with a word in the accumulator. -/
def idpb (A : BitVec 4) (E : BitVec 18) (v : W36) : Exec Unit := do
  modify fun s => s.setAC v A
  let _ ← executeWord (W36.assemble 0o136 A false 0 E)
  return ()

/-- A number of `ILDB A,E`, and the words that they load. -/
def ildbs (A : BitVec 4) (E : BitVec 18) : ℕ → Exec (List W36)
  | 0 => return []
  | n + 1 => do
      let v ← ildb A E
      let vs ← ildbs A E n
      return v :: vs

/-- `IDPB A,E` for each word of a list. -/
def idpbs (A : BitVec 4) (E : BitVec 18) : List W36 → Exec Unit
  | [] => return ()
  | v :: vs => do
      idpb A E v
      idpbs A E vs

/-! ### What a stream promises -/

/-- The byte of `S` bits at a position of a word. -/
def W36.byte (w : W36) (p S : ℕ) : W36 := BitVec.ofNat 36 (w.toNat / 2 ^ p % 2 ^ S)

section Stream

variable {S : ℕ} (A : BitVec 4) (E : BitVec 18) (q : LocalPointer S)

/-- `n` ILDBs through the pointer at E load the bytes of the next `n` pointers in order, and the
last of these pointers is then at E. -/
def LoadsInOrder (n : ℕ) (s : Cpu) : Prop :=
  ∃ bytes t, (ildbs A E n).run s = .ok (bytes, t) ∧ bytes.length = n ∧
    (∀ k < n, ∃ last, LastLink s (LocalPointer.next^[k + 1] q).u last ∧
      bytes[k]? = some ((s.nextLink last).byte (p (LocalPointer.next^[k + 1] q).u).toNat S)) ∧
    t.word E = (LocalPointer.next^[n] q).u

/-- IDPBs of words through the pointer at E, and as many ILDBs through a copy of the original
pointer at F, give back these words modulo `2^S`. -/
def ReadsBack (F : BitVec 18) (vs : List W36) (s : Cpu) : Prop :=
  ∃ t bytes u, (idpbs A E vs).run s = .ok ((), t) ∧
    (ildbs A F vs.length).run (t.setWord q.u F) = .ok (bytes, u) ∧ bytes = vs.map (W36.byte · 0 S)

end Stream

/-! ### The instructions on a state -/

/-- The machine that executes an instruction word without index and indirection. -/
def Cpu.executing (s : Cpu) (w : W36) (running : Bool) : Cpu :=
  { s with iw := w, ea := W36.ofNat w.y.toNat, running := running }

lemma run_executeWord (aOp : BitVec 9) (A : BitVec 4) (E : BitVec 18) (s : Cpu) :
    ∃ running, (executeWord (W36.assemble aOp A false 0 E)).run s =
      (ops aOp.toNat).run (s.executing (W36.assemble aOp A false 0 E) running) := by
  let w := W36.assemble aOp A false 0 E
  let u : Cpu := { s with iw := w }
  have hlast : LastLink u u.iw w := .here (by simp [u, w])
  obtain ⟨running, -, hrun⟩ := run_dispatch_of_lastLink hlast
  have haddress : u.linkAddress w = w.y.toNat := by
    rw [Cpu.linkAddress, W36.x_assemble, if_neg (not_not.mpr rfl)]
  have hset : (setIw w).run s = .ok ((), u) := rfl
  refine ⟨running, ?_⟩
  rw [executeWord, run_bind_of_ok hset, hrun, haddress]
  change (ops (W36.assemble aOp A false 0 E).op.toNat).run _ = _
  rw [W36.op_assemble]
  rfl

/-- It has the word at the address of the instruction for its operand. -/
lemma word_executing (aOp : BitVec 9) (A : BitVec 4) (E : BitVec 18) (s : Cpu) (running : Bool) :
    let u := s.executing (W36.assemble aOp A false 0 E) running
    u.word u.ea.rhu = s.word E := by
  change s.word (W36.ofNat (W36.assemble aOp A false 0 E).y.toNat).rhu = s.word E
  rw [W36.y_assemble, W36.rhu_ofNat_toNat]

lemma ops_ILDB : ops 0o134 = doILDB := ops_of_mem <| by
  simp [installs, installByteGroup]

lemma ops_IDPB : ops 0o136 = doIDPB := ops_of_mem <| by
  simp [installs, installByteGroup]

section Run

variable {S : ℕ} {q : LocalPointer S} {s : Cpu}

/-- The pointer is fetched as a local one. -/
lemma run_bytePointer (h : s.word s.ea.rhu = q.u) :
    ∃ running, bytePointer.run s = .ok (.L1 q.u, { s with running := running }) := by
  refine ⟨(s.hit s.addressGBPs s.ea.vma.toNat).running, ?_⟩
  rw [bytePointer, run_bind_of_ok (run_gets Cpu.ea s), BytePointer.makeFrom,
    run_bind_of_ok (run_memGetN s.ea s), h, if_neg (not_lt.mpr q.position_le), q.isLocal]
  rfl

/-- A local pointer with a last link names its word. -/
lemma run_getPSA {last : W36} (h : LastLink s q.u last) :
    ∃ running, (BytePointer.L1 q.u).getPSA.run s =
      .ok (⟨(p q.u).toNat, S, BitVec.ofNat 32 (s.linkAddress last)⟩,
        { s with running := running }) := by
  obtain ⟨running, -, hrun⟩ := run_getEA_of_lastLink h
  refine ⟨running, ?_⟩
  rw [BytePointer.getPSA, run_bind_of_ok hrun, q.size]
  rfl

/-- The 32 bits of an address hold its right half. -/
lemma rhu_address (n : ℕ) : W36.rhu ((BitVec.ofNat 32 n).setWidth 36) = (W36.ofNat n).rhu := by
  apply BitVec.eq_of_toNat_eq
  rw [W36.toNat_rhu_ofNat, W36.rhu, BitVec.extractLsb'_toNat, BitVec.toNat_setWidth,
    BitVec.toNat_ofNat, Nat.shiftRight_zero]
  omega

/-- The word that a byte is loaded as: it passes through an `unsigned` of 32 bits. -/
def W36.loaded (w : W36) (p S : ℕ) : W36 :=
  (((w.setWidth 64 >>> p) &&& W36.rMask S).setWidth 32).setWidth 36

/-- The word that a deposit makes of `w`: the byte is masked to `p` bits. -/
def W36.deposited (w v : W36) (p S : ℕ) : W36 :=
  ((w.setWidth 64 &&& ~~~ W36.bMask p S) |||
    (v.setWidth 64 &&& W36.rMask p) <<< p).setWidth 36

/-- A byte that is deposited and loaded again has lost the bits beyond its position, and those
beyond 32. -/
lemma loaded_deposited (w v : W36) {p S : ℕ} (hfit : p + S ≤ 36) :
    (w.deposited v p S).loaded p S = BitVec.ofNat 36 (v.toNat % 2 ^ min p S % 2 ^ 32) := by
  refine BitVec.eq_of_getLsbD_eq fun k hk => ?_
  have hbyte (h : k < S) :
      (w.deposited v p S).getLsbD (p + k) = (v.getLsbD k && decide (k < p)) := by
    have h36 : p + k < 36 := by omega
    have h64 : p + k < 64 := by omega
    have hk64 : k < 64 := by omega
    simp only [W36.deposited, W36.bMask, BitVec.getLsbD_setWidth, BitVec.getLsbD_or,
      BitVec.getLsbD_and, BitVec.getLsbD_not, BitVec.getLsbD_shiftLeft, Nat.add_sub_cancel_left,
      W36.getLsbD_rMask (show S < 64 by omega), W36.getLsbD_rMask (show p < 64 by omega),
      h, h36, h64, hk64, show ¬ p + k < p by omega, decide_true, decide_false, Bool.not_false,
      Bool.not_true, Bool.and_false, Bool.and_true, Bool.true_and, Bool.false_or]
  rw [W36.loaded, BitVec.getLsbD_setWidth, BitVec.getLsbD_setWidth, BitVec.getLsbD_and,
    BitVec.getLsbD_ushiftRight, BitVec.getLsbD_setWidth, W36.getLsbD_rMask (by omega),
    BitVec.getLsbD_ofNat, Nat.testBit_mod_two_pow, Nat.testBit_mod_two_pow, BitVec.testBit_toNat]
  by_cases h : k < S
  · rw [hbyte h]
    by_cases hp : k < p
    · simp [h, hp, hk, show p + k < 64 by omega]
    · simp [hp]
  · simp [h]

/-- A load of the byte of a pointer with a last link. -/
lemma run_getByte {last : W36} (h : LastLink s q.u last) :
    ∃ b running, (BytePointer.L1 q.u).getByte.run s = .ok (b, { s with running := running }) ∧
      b.setWidth 36 = (s.nextLink last).loaded (p q.u).toNat S := by
  obtain ⟨running, hpsa⟩ := run_getPSA h
  let s1 : Cpu := { s with running := running }
  let a : W36 := (BitVec.ofNat 32 (s.linkAddress last)).setWidth 36
  have hword : s1.word a.rhu = s.nextLink last := by
    rw [rhu_address]
    rfl
  refine ⟨_, (s1.hit s1.addressGBPs a.vma.toNat).running, ?_, rfl⟩
  rw [BytePointer.getByte, run_bind_of_ok hpsa, run_bind_of_ok (run_memGetN a s1), hword]
  rfl

/-- A deposit into the byte of such a pointer. -/
lemma run_putByte {last : W36} (h : LastLink s q.u last) (v : W36) :
    ∃ running, ((BytePointer.L1 q.u).putByte v).run s =
      .ok ((), { s.setWord ((s.nextLink last).deposited v (p q.u).toNat S)
        (W36.ofNat (s.linkAddress last)).rhu with running := running }) := by
  obtain ⟨running, hpsa⟩ := run_getPSA h
  let s1 : Cpu := { s with running := running }
  let a : W36 := (BitVec.ofNat 32 (s.linkAddress last)).setWidth 36
  have ha : a.rhu = (W36.ofNat (s.linkAddress last)).rhu := rhu_address _
  have hword : s1.word a.rhu = s.nextLink last := by
    rw [ha]
    rfl
  let s2 := s1.hit s1.addressGBPs a.vma.toNat
  let w := (s.nextLink last).deposited v (p q.u).toNat S
  refine ⟨((s2.setWord w a.rhu).hit (s2.setWord w a.rhu).addressPBPs a.vma.toNat).running, ?_⟩
  rw [BytePointer.putByte, run_bind_of_ok hpsa, run_bind_of_ok (run_memGetN a s1), hword]
  change (memPutN w a).run s2 = _
  have hs2 : s2.setWord w a.rhu = { s.setWord w a.rhu with running := s2.running } :=
    setWord_running s w a.rhu s2.running
  rw [run_memPutN, hs2, ha]
  rfl

/-- Without a last link both go on for ever. -/
lemma run_getPSA_of_no_lastLink (h : ¬ ∃ last, LastLink s q.u last) :
    (BytePointer.L1 q.u).getPSA.run s = .error .hang := by
  rw [BytePointer.getPSA, run_bind_of_error (run_getEA_of_no_lastLink h)]

/-- ILDB loads the byte of the pointer after the one that it fetches. -/
lemma run_doILDB (hq : s.word s.ea.rhu = q.u) {last : W36} (hlast : LastLink s q.next.u last) :
    ∃ running, doILDB.run s = .ok (.iNormal,
      { s.setAC ((s.nextLink last).loaded (p q.next.u).toNat S) s.iw.ac with
        running := running }) := by
  obtain ⟨running, hbp⟩ := run_bytePointer hq
  let s1 : Cpu := { s with running := running }
  obtain ⟨b, running', hget, hb⟩ := run_getByte (s := s1) hlast
  have hput : (acPut (b.setWidth 36)).run { s1 with running := running' } = .ok ((), _) :=
    run_acPut _ _
  rw [doILDB, loadByteInsn, run_bind_of_ok hbp, q.inc_eq_next, run_bind_of_ok hget,
    run_bind_of_ok hput, hb]
  exact ⟨running', rfl⟩

/-- IDPB deposits the accumulator there. -/
lemma run_doIDPB (hq : s.word s.ea.rhu = q.u) {last : W36} (hlast : LastLink s q.next.u last) :
    ∃ running, doIDPB.run s = .ok (.iNormal,
      { s.setWord ((s.nextLink last).deposited (s.acs s.iw.ac) (p q.next.u).toNat S)
          (W36.ofNat (s.linkAddress last)).rhu with running := running }) := by
  obtain ⟨running, hbp⟩ := run_bytePointer hq
  let s1 : Cpu := { s with running := running }
  obtain ⟨running', hput⟩ := run_putByte (s := s1) hlast (s1.acs s1.iw.ac)
  rw [doIDPB, putByteInsn, run_bind_of_ok hbp, run_bind_of_ok (run_acGet s1), q.inc_eq_next,
    run_bind_of_ok hput]
  refine ⟨running', ?_⟩
  change Except.ok (IResult.iNormal, { s1.setWord _ _ with running := running' }) = _
  rw [setWord_running]
  rfl

end Run

/-! ### A stream -/

section Stream

variable {S : ℕ} {q : LocalPointer S} {A : BitVec 4} {E : BitVec 18} {s t : Cpu}

/-- The word at a memory address. -/
lemma word_of_memP (hE : ¬ E < 0o20) (s : Cpu) : s.word E = s.memP E := if_neg hE

/-- It stays as long as the memory does. -/
lemma word_congr (hE : ¬ E < 0o20) (h : t.memP E = s.memP E) : t.word E = s.word E := by
  rw [word_of_memP hE, h, word_of_memP hE]

/-- One ILDB leaves the memory alone. -/
lemma run_ildb (hq : s.word E = q.u) {last : W36} (hlast : LastLink s q.next.u last) :
    ∃ t, (ildb A E).run s = .ok ((s.nextLink last).loaded (p q.next.u).toNat S, t) ∧
      t.memP = s.memP := by
  obtain ⟨running, hrun⟩ := run_executeWord 0o134 A E s
  let w := W36.assemble 0o134 A false 0 E
  let u := s.executing w running
  have hqu : u.word u.ea.rhu = q.u := (word_executing 0o134 A E s running).trans hq
  obtain ⟨running', hload⟩ := run_doILDB (s := u) hqu hlast
  let v := (u.nextLink last).loaded (p q.next.u).toNat S
  let t : Cpu := { u.setAC v u.iw.ac with running := running' }
  have hexec : (executeWord w).run s = .ok (.iNormal, t) := by
    rw [hrun]
    change (ops 0o134).run u = _
    rw [ops_ILDB, hload]
  have hacs : t.acs t.iw.ac = v := by
    change (u.setAC v u.iw.ac).acs u.iw.ac = v
    rw [acs_setAC, if_pos rfl]
  refine ⟨t, ?_, rfl⟩
  rw [ildb, run_bind_of_ok hexec, run_acGet, hacs]
  rfl

/-- An ILDB whose pointer leads nowhere goes on for ever. -/
lemma run_ildb_hang (hq : s.word E = q.u) (h : ¬ ∃ last, LastLink s q.next.u last) :
    (ildb A E).run s = .error .hang := by
  obtain ⟨running, hrun⟩ := run_executeWord 0o134 A E s
  let w := W36.assemble 0o134 A false 0 E
  let u := s.executing w running
  have hqu : u.word u.ea.rhu = q.u := (word_executing 0o134 A E s running).trans hq
  obtain ⟨running', hbp⟩ := run_bytePointer hqu
  have hpsa : (BytePointer.L1 q.next.u).getPSA.run { u with running := running' } =
      .error .hang := run_getPSA_of_no_lastLink h
  have hexec : (executeWord w).run s = .error .hang := by
    rw [hrun]
    change (ops 0o134).run u = _
    rw [ops_ILDB, doILDB, loadByteInsn, run_bind_of_ok hbp, q.inc_eq_next]
    exact run_bind_of_error (run_bind_of_error hpsa)
  exact run_bind_of_error hexec

/-- So ILDBs leave the memory alone, and with it the pointer; by induction on their number. -/
lemma memP_of_ildbs (hE : ¬ E < 0o20) {n : ℕ} {bytes : List W36} (hq : s.word E = q.u)
    (h : (ildbs A E n).run s = .ok (bytes, t)) : t.memP = s.memP := by
  induction n generalizing s bytes with
  | zero =>
      cases h
      rfl
  | succ n ih =>
      by_cases hlink : ∃ last, LastLink s q.next.u last
      · obtain ⟨last, hlast⟩ := hlink
        obtain ⟨u, hload, hmem⟩ := run_ildb (A := A) hq hlast
        rw [ildbs, run_bind_of_ok hload] at h
        obtain ⟨bytes', t', hrest, h⟩ := ok_of_run_bind h
        cases h
        have hqu : u.word E = q.u := (word_congr hE (congrFun hmem E)).trans hq
        rw [← hmem]
        exact ih hqu hrest
      · rw [ildbs, run_bind_of_error (run_ildb_hang hq hlink)] at h
        cases h

/-- The addresses that the fields of the next `n` pointers name differ from E.  Without I these are
the addresses of the words with the bytes, and with I those of the next words on the way there. -/
def AreaDisjoint (E : BitVec 18) (q : LocalPointer S) (n : ℕ) (s : Cpu) : Prop :=
  ∀ k, 1 ≤ k → k ≤ n → (W36.ofNat (s.linkAddress (LocalPointer.next^[k] q).u)).rhu ≠ E

/-- The index register of a pointer is added to the address of each of its successors. -/
lemma rhu_linkAddress (s : Cpu) (q : LocalPointer S) (n : ℕ) :
    (W36.ofNat (s.linkAddress (LocalPointer.next^[n] q).u)).rhu =
      (LocalPointer.next^[n] q).u.y + (if q.u.x ≠ 0 then (s.acs q.u.x).rhu else 0) := by
  have hx : (LocalPointer.next^[n] q).u.x = q.u.x := by
    induction n with
    | zero => rfl
    | succ n ih => rw [Function.iterate_succ_apply', LocalPointer.next_x, ih]
  apply BitVec.eq_of_toNat_eq
  rw [W36.toNat_rhu_ofNat, Cpu.linkAddress, hx, BitVec.toNat_add]
  split
  · rw [W36.rhu, BitVec.extractLsb'_toNat, Nat.shiftRight_zero]
    omega
  · rfl

/-- A stream that stays clear of its pointer does not come back to it. -/
lemma iterate_ne_self {n : ℕ} (hdisjoint : AreaDisjoint E q n s) (hn : n ≠ 0) :
    LocalPointer.next^[n] q ≠ q := by
  intro h
  -- a whole turn would have reached the word at E
  have hturn : LocalPointer.places S ≤ n :=
    Nat.le_of_dvd (Nat.pos_of_ne_zero hn) (LocalPointer.iterate_eq_self h)
  let c : BitVec 18 := if q.u.x ≠ 0 then (s.acs q.u.x).rhu else 0
  obtain ⟨k, hpos, hle, hy⟩ := q.exists_y (E - c)
  refine hdisjoint k hpos (hle.trans hturn) ?_
  rw [rhu_linkAddress, hy]
  exact BitVec.sub_add_cancel E c

/-- **Byte streams**: through a local pointer at a memory word that is apart from its bytes, the
two laws hold for the empty stream alone. -/
theorem byte_stream_iff {F : BitVec 18} (vs : List W36) (hE : ¬ E < 0o20) (hq : s.word E = q.u)
    (hdisjoint : AreaDisjoint E q vs.length s) :
    LoadsInOrder A E q vs.length s ∧ ReadsBack A E q F vs s ↔ vs = [] := by
  constructor
  · rintro ⟨⟨bytes, t, hrun, -, -, hlast⟩, -⟩
    by_contra hne
    refine iterate_ne_self hdisjoint (mt List.length_eq_zero_iff.mp hne) (LocalPointer.ext ?_)
    rw [← hlast, word_congr hE (congrFun (memP_of_ildbs hE hq hrun) E), hq]
  · rintro rfl
    refine ⟨⟨[], s, rfl, rfl, fun k hk => absurd hk (Nat.not_lt_zero k), hq⟩, s, [], _, rfl, rfl,
      rfl⟩

end Stream

/-- A pointer to text of seven bit characters from location 200 on. -/
def textPointer : LocalPointer 7 where
  u := 0o440700000200
  isLocal := by decide
  size := by decide
  size_pos := by decide
  size_le := by decide
  position_le := by decide
  aligned := by decide

/-- A machine with this pointer at location 100 and the text AB. -/
def Cpu.withText : Cpu :=
  { Cpu.initial with
    memP := fun a =>
      if a = 0o100 then textPointer.u else if a = 0o200 then 0o101 <<< 29 ||| 0o102 <<< 22 else 0 }

theorem byte_stream_iff_two :
    ¬ (LoadsInOrder 1 0o100 textPointer 2 Cpu.withText ∧
      ReadsBack 1 0o100 textPointer 0o101 [0o101, 0o102] Cpu.withText) := by
  have hdisjoint : AreaDisjoint 0o100 textPointer 2 Cpu.withText := by
    intro k hpos hle
    interval_cases k <;> decide +kernel
  have hlaws := byte_stream_iff (A := 1) (F := 0o101) [0o101, 0o102] (by decide) (by decide)
    hdisjoint
  exact fun h => absurd (hlaws.mp h) (List.cons_ne_nil _ _)

/-- **A stream that stays**: two ILDBs load the first character twice and leave the pointer as
it was, and what two IDPBs deposit comes back as the second character twice. -/
theorem byte_stream_stays :
    (∃ t, (ildbs 1 0o100 2).run Cpu.withText = .ok ([0o101, 0o101], t) ∧
      t.word 0o100 = textPointer.u) ∧
    (∃ t u, (idpbs 1 0o100 [0o103, 0o104]).run Cpu.withText = .ok ((), t) ∧
      (ildbs 1 0o101 2).run (t.setWord textPointer.u 0o101) = .ok ([0o104, 0o104], u)) ∧
    ¬ LoadsInOrder 1 0o100 textPointer 2 Cpu.withText ∧
    ¬ ReadsBack 1 0o100 textPointer 0o101 [0o103, 0o104] Cpu.withText := by
  have hloads : ∃ t, (ildbs 1 0o100 2).run Cpu.withText = .ok ([0o101, 0o101], t) ∧
      t.word 0o100 = textPointer.u :=
    exists_of_observed (f := fun t : Cpu => t.word 0o100) (by decide +kernel)
  let t := final (idpbs 1 0o100 [0o103, 0o104]) Cpu.withText
  have hput : (idpbs 1 0o100 [0o103, 0o104]).run Cpu.withText = .ok ((), t) :=
    run_eq_of_returned (by decide +kernel)
  obtain ⟨u, hget⟩ : ∃ u, (ildbs 1 0o101 2).run (t.setWord textPointer.u 0o101) =
      .ok ([0o104, 0o104], u) := exists_of_returned (by decide +kernel)
  refine ⟨hloads, ⟨t, u, hput, hget⟩, ?_, ?_⟩
  · rintro ⟨bytes, t', hrun, -, -, hlast⟩
    obtain ⟨t, ht, hword⟩ := hloads
    rw [ht] at hrun
    rw [← (Prod.mk.inj (Except.ok.inj hrun)).2, hword] at hlast
    exact absurd hlast (by decide)
  · rintro ⟨t', bytes, u', hput', hget', hbytes⟩
    rw [hput] at hput'
    rw [← (Prod.mk.inj (Except.ok.inj hput')).2] at hget'
    have heq := (Prod.mk.inj (Except.ok.inj (hget.symm.trans hget'))).1
    rw [hbytes] at heq
    exact absurd heq (by decide)

/-! ### Bytes deposited and read back -/

section Deposits

variable {S : ℕ} {q : LocalPointer S} {A : BitVec 4} {E : BitVec 18} {s t : Cpu}

/-- The pointer names a memory word, other than its own, without index and indirection. -/
structure NamesMemory (E : BitVec 18) (q : LocalPointer S) : Prop where
  i : q.u.i = false
  x : q.u.x = 0
  memory : ¬ q.next.u.y < 0o20
  disjoint : q.next.u.y ≠ E

/-- Its only link is the pointer itself. -/
lemma NamesMemory.lastLink (h : NamesMemory E q) (s : Cpu) :
    LastLink s q.next.u q.next.u ∧ (W36.ofNat (s.linkAddress q.next.u)).rhu = q.next.u.y ∧
      s.nextLink q.next.u = s.memP q.next.u.y := by
  have haddress : (W36.ofNat (s.linkAddress q.next.u)).rhu = q.next.u.y := by
    rw [Cpu.linkAddress, q.next_x, h.x, if_neg (not_not.mpr rfl), W36.rhu_ofNat_toNat]
  refine ⟨.here (by rw [q.next_i, h.i]; rfl), haddress, ?_⟩
  rw [Cpu.nextLink, haddress, word_of_memP h.memory]

/-- One IDPB deposits its word in the byte behind the pointer. -/
lemma run_idpb (hq : s.word E = q.u) (hmemory : NamesMemory E q) (hE : ¬ E < 0o20) (v : W36) :
    ∃ t, (idpb A E v).run s = .ok ((), t) ∧ t.memP =
      (s.setMem ((s.memP q.next.u.y).deposited v (p q.next.u).toNat S) q.next.u.y).memP := by
  let s1 := s.setAC v A
  obtain ⟨running, hrun⟩ := run_executeWord 0o136 A E s1
  let w := W36.assemble 0o136 A false 0 E
  let u := s1.executing w running
  have hword1 : s1.word E = s.word E := word_congr hE rfl
  have hqu : u.word u.ea.rhu = q.u :=
    (word_executing 0o136 A E s1 running).trans (hword1.trans hq)
  obtain ⟨hlast, haddress, hword⟩ := hmemory.lastLink u
  obtain ⟨running', hstore⟩ := run_doIDPB (s := u) hqu hlast
  have hacs : u.acs u.iw.ac = v := by
    change (s.setAC v A).acs w.ac = v
    rw [W36.ac_assemble, acs_setAC, if_pos rfl]
  rw [haddress, hword, hacs, Cpu.setWord, if_neg hmemory.memory] at hstore
  let t : Cpu := { u.setMem ((u.memP q.next.u.y).deposited v (p q.next.u).toNat S) q.next.u.y with
    running := running' }
  have hexec : (executeWord w).run s1 = .ok (.iNormal, t) := by
    rw [hrun]
    change (ops 0o136).run u = _
    rw [ops_IDPB, hstore]
  have hmodify : (modify fun s => s.setAC v A : Exec Unit).run s = .ok ((), s1) := rfl
  refine ⟨t, ?_, rfl⟩
  rw [idpb, run_bind_of_ok hmodify, run_bind_of_ok hexec]
  rfl

/-- The byte behind the pointer, as a load returns it. -/
def Cpu.byteBehind (s : Cpu) (q : LocalPointer S) : W36 :=
  (s.memP q.next.u.y).loaded (p q.next.u).toNat S

/-- All ILDBs load the byte behind the pointer, by induction on their number. -/
lemma run_ildbs (hE : ¬ E < 0o20) (hq : s.word E = q.u) (hmemory : NamesMemory E q) (n : ℕ) :
    ∃ t, (ildbs A E n).run s = .ok (List.replicate n (s.byteBehind q), t) := by
  induction n generalizing s with
  | zero => exact ⟨s, rfl⟩
  | succ n ih =>
      obtain ⟨hlast, -, hword⟩ := hmemory.lastLink s
      obtain ⟨u, hload, hmem⟩ := run_ildb (A := A) hq hlast
      have hqu : u.word E = q.u := (word_congr hE (congrFun hmem E)).trans hq
      obtain ⟨t, hrest⟩ := ih hqu
      have hsame : u.byteBehind q = s.byteBehind q := by rw [Cpu.byteBehind, hmem]; rfl
      rw [hsame] at hrest
      rw [ildbs, run_bind_of_ok hload, run_bind_of_ok hrest, hword]
      exact ⟨t, rfl⟩

/-- All IDPBs deposit in the byte behind the pointer, so that the last one counts; by induction on
the list. -/
lemma run_idpbs (hE : ¬ E < 0o20) (hq : s.word E = q.u) (hmemory : NamesMemory E q)
    (vs : List W36) :
    ∃ t, (idpbs A E vs).run s = .ok ((), t) ∧ (∀ a, a ≠ q.next.u.y → t.memP a = s.memP a) ∧
      ∀ v ∈ vs.getLast?, t.byteBehind q =
        BitVec.ofNat 36 (v.toNat % 2 ^ min (p q.next.u).toNat S % 2 ^ 32) := by
  induction vs generalizing s with
  | nil => exact ⟨s, rfl, fun _ _ => rfl, fun v hv => absurd hv (by simp)⟩
  | cons v vs ih =>
      obtain ⟨u, hput, hmem⟩ := run_idpb (A := A) hq hmemory hE v
      have hframe (a : BitVec 18) (ha : a ≠ q.next.u.y) : u.memP a = s.memP a := by
        rw [hmem]
        exact if_neg ha
      have hqu : u.word E = q.u :=
        (word_congr hE (hframe E hmemory.disjoint.symm)).trans hq
      obtain ⟨t, hrest, hsame, hlast⟩ := ih hqu
      refine ⟨t, ?_, fun a ha => (hsame a ha).trans (hframe a ha), fun w hw => ?_⟩
      · rw [idpbs, run_bind_of_ok hput]
        exact hrest
      · rw [List.getLast?_cons, Option.mem_some_iff] at hw
        cases hvs : vs.getLast? with
        | some w' =>
            rw [hvs, Option.getD_some] at hw
            exact hw ▸ hlast w' hvs
        | none =>
            rw [hvs, Option.getD_none] at hw
            rw [List.getLast?_eq_none_iff] at hvs
            rw [hvs] at hrest
            cases hrest
            rw [← hw, Cpu.byteBehind, hmem]
            change ((if q.next.u.y = q.next.u.y then _ else _ : W36)).loaded _ _ = _
            rw [if_pos rfl, loaded_deposited _ _ q.next_byte_fits]

/-- **Deposits read back**: with a pointer that names a memory word, the words come back exactly if
all of them are the last one, cut to the bits below its position and to 32 bits. -/
theorem reads_back_iff {F : BitVec 18} {vs : List W36} (hE : ¬ E < 0o20) (hF : ¬ F < 0o20)
    (hq : s.word E = q.u) (hmemory : NamesMemory E q) (hcopy : NamesMemory F q) :
    ReadsBack A E q F vs s ↔ ∀ v ∈ vs.getLast?, ∀ w ∈ vs,
      w.byte 0 S = BitVec.ofNat 36 (v.toNat % 2 ^ min (p q.next.u).toNat S % 2 ^ 32) := by
  obtain ⟨t, hput, -, hbyte⟩ := run_idpbs (A := A) hE hq hmemory vs
  have hcopied : (t.setWord q.u F).word F = q.u := word_setWord t q.u F
  obtain ⟨u, hget⟩ := run_ildbs (A := A) hF hcopied hcopy vs.length
  have hsame : (t.setWord q.u F).byteBehind q = t.byteBehind q := by
    rw [Cpu.setWord, if_neg hF, Cpu.byteBehind]
    change ((if q.next.u.y = F then _ else _ : W36)).loaded _ _ = _
    rw [if_neg hcopy.disjoint]
    rfl
  rw [hsame] at hget
  have hreads : ReadsBack A E q F vs s ↔
      List.replicate vs.length (t.byteBehind q) = vs.map (W36.byte · 0 S) := by
    constructor
    · rintro ⟨t', bytes, u', hput', hget', rfl⟩
      rw [hput] at hput'
      cases hput'
      rw [hget] at hget'
      exact (Prod.mk.inj (Except.ok.inj hget')).1
    · exact fun h => ⟨t, _, u, hput, hget, h⟩
  rw [hreads, eq_comm, List.map_eq_replicate_iff]
  cases hvs : vs.getLast? with
  | none =>
      rw [List.getLast?_eq_none_iff] at hvs
      simp [hvs]
  | some v =>
      rw [hbyte v hvs]
      simp

end Deposits

end KM10
