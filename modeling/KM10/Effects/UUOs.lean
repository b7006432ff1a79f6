import KM10.Effects.Frames
import KM10.Effects.Pass

/-!
What the UUO handlers do to the machine.

* `ops_of_isUUO`: such an opcode has `doMUUO`, `doLUUO` or `doJSYS`;
* `run_doJSYS`, `run_doLUUO_of_section0`: what the last two do where they do little;
* `Saves`: what storing the saved words keeps, and so a LUUO that is not executed as an MUUO
  (`saves_of_doLUUO`);
* `Cpu.executesMUUO`: the opcodes that execute as MUUOs.
-/

namespace KM10

open StateExcept

/-! ### The entries of the table -/

/-- The opcodes of the LUUOs. -/
def isLUUO (op : ℕ) : Bool := decide (0 < op ∧ op < 0o40)

lemma ops_JSYS : ops 0o104 = doJSYS := ops_of_mem <| by
  simp only [installs, installUUOsGroup, List.mem_append, List.mem_singleton, true_or, or_true]

lemma ops_LUUO {op : ℕ} (h : isLUUO op = true) : ops op = doLUUO := by
  rw [isLUUO, decide_eq_true_eq] at h
  have hmem : (op, doLUUO) ∈ (List.range' 0o001 0o37).map fun op => (op, doLUUO) :=
    List.mem_map_of_mem (List.mem_range'_1.mpr ⟨h.1, by omega⟩)
  refine ops_of_mem ?_
  simp only [installs, installUUOsGroup, List.mem_append, hmem, true_or]

/-- The three kinds of UUOs. -/
lemma cases_of_isUUO {op : ℕ} (h : isUUO op = true) :
    isMUUO op = true ∨ isLUUO op = true ∨ op = 0o104 := by
  rw [isUUO, Bool.or_eq_true, Bool.or_eq_true, beq_iff_eq, or_assoc] at h
  exact h

/-- The handler of a UUO. -/
lemma ops_of_isUUO {op : ℕ} (h : isUUO op = true) :
    ops op = doMUUO ∨ ops op = doLUUO ∨ ops op = doJSYS := by
  rcases cases_of_isUUO h with h | h | rfl
  · exact .inl (ops_of_isMUUO h)
  · exact .inr (.inl (ops_LUUO h))
  · exact .inr (.inr ops_JSYS)

/-- An opcode executes as an MUUO: none of the groups installs it, or it is a LUUO of an
executive program outside of section 0. -/
def Cpu.executesMUUO (s : Cpu) (op : ℕ) : Bool :=
  isMUUO op || (isLUUO op && !(s.pc.isSection0 || s.flags.usr))

/-! ### JSYS and LUUOs -/

/-- The instruction that is not implemented enters the interrupt state and stays. -/
lemma run_doJSYS (s : Cpu) : doJSYS.run s = .ok (.iMUUO, { s with inInterrupt := true }) := rfl

/-- In section 0 a LUUO stores itself in location 040 and continues at 041. -/
lemma run_doLUUO_of_section0 {s : Cpu} (h : s.pc.isSection0 = true) :
    ∃ running, doLUUO.run s = .ok (.iLUUO,
      { s.setWord s.iw.clearIX 0o40 with
        running := running, pcOffset := 0, fetchPC := W36.ofNat 0o41 }) := by
  rw [doLUUO, run_bind_of_ok (run_gets Cpu.pc s), userMode, bind_assoc,
    run_bind_of_ok (run_gets Cpu.flags s), pure_bind, if_pos h,
    run_bind_of_ok (run_gets Cpu.iw s), run_bind_of_ok (run_memPutN _ _ s)]
  exact ⟨_, rfl⟩

lemma run_setFetchPC (v : W36) (s : Cpu) :
    (setFetchPC v).run s = .ok ((), { s with fetchPC := v }) := rfl

lemma run_uptGetN (n : ℕ) (s : Cpu) :
    (uptGetN n).run s =
      .ok (s.word (W36.ofNat n).rhu, s.hit s.addressGBPs (W36.ofNat n).vma.toNat) :=
  run_memGetN _ s

lemma run_uptPutN (v : W36) (n : ℕ) (s : Cpu) :
    (uptPutN v n).run s = .ok ((), (s.setWord v (W36.ofNat n).rhu).hit
      (s.setWord v (W36.ofNat n).rhu).addressPBPs (W36.ofNat n).vma.toNat) :=
  run_memPutN v _ s

/-- An MUUO fetches next from the word of the UPT for its mode, with no flag set. -/
lemma exists_of_doMUUO {s t : Cpu} {r : IResult} (h : doMUUO.run s = .ok (r, t)) :
    r = .iMUUO ∧ t.pc = s.word (W36.ofNat (muuoNewPC s.flags)).rhu ∧
      t.fetchPC = s.word (W36.ofNat (muuoNewPC s.flags)).rhu ∧ t.flags = .none := by
  rw [doMUUO, run_bind_of_ok (run_gets Cpu.flags s),
    run_bind_of_ok (run_gets Cpu.toDevices s)] at h
  simp only [] at h
  rw [run_bind_of_ok (run_uptGetN _ s), run_bind_of_ok (run_setFetchPC _ _),
    run_bind_of_ok (run_gets Cpu.iw _), run_bind_of_ok (run_uptPutN _ _ _),
    run_bind_of_ok (run_gets Cpu.pc _), run_bind_of_ok (run_uptPutN _ _ _),
    run_bind_of_ok (run_gets Cpu.ea _), run_bind_of_ok (run_uptPutN _ _ _),
    run_bind_of_ok (run_uptPutN _ _ _)] at h
  cases h
  refine ⟨rfl, rfl, ?_, rfl⟩
  simp [Cpu.hit]

/-- A store to the UPT changes one word. -/
lemma of_uptPutN {v : W36} {n : ℕ} {s t : Cpu} {u : Unit} (h : (uptPutN v n).run s = .ok (u, t)) :
    t.pc = s.pc ∧ t.word = (s.setWord v (W36.ofNat n).rhu).word := by
  rw [run_uptPutN] at h
  cases h
  exact ⟨setWord_pc s _ _, rfl⟩

/-- An MUUO leaves the return address in the UPT. -/
lemma saved_of_doMUUO {s t : Cpu} {r : IResult} (h : doMUUO.run s = .ok (r, t)) :
    t.word 0o425 = W36.ofNat (s.pc.vma.toNat + 1) := by
  rw [doMUUO, run_bind_of_ok (run_gets Cpu.flags s),
    run_bind_of_ok (run_gets Cpu.toDevices s)] at h
  simp only [] at h
  rw [run_bind_of_ok (run_uptGetN _ s), run_bind_of_ok (run_setFetchPC _ _),
    run_bind_of_ok (run_gets Cpu.iw _)] at h
  obtain ⟨_, s1, h1, h⟩ := ok_of_run_bind h
  rw [run_bind_of_ok (run_gets Cpu.pc s1)] at h
  obtain ⟨_, s2, h2, h⟩ := ok_of_run_bind h
  rw [run_bind_of_ok (run_gets Cpu.ea s2)] at h
  obtain ⟨_, s3, h3, h⟩ := ok_of_run_bind h
  obtain ⟨_, s4, h4, h⟩ := ok_of_run_bind h
  cases h
  have hpc : s1.pc = s.pc := (of_uptPutN h1).1
  calc s4.word 0o425
    _ = s3.word 0o425 := by
        rw [(of_uptPutN h4).2]
        exact word_setWord_of_ne (by decide)
    _ = s2.word 0o425 := by
        rw [(of_uptPutN h3).2]
        exact word_setWord_of_ne (by decide)
    _ = W36.ofNat (s.pc.vma.toNat + 1) := by
        rw [(of_uptPutN h2).2, ← hpc]
        exact word_setWord _ _ _

/-- What storing saved words and choosing the next fetch address keeps. -/
structure Saves (s t : Cpu) : Prop where
  pc : t.pc = s.pc
  flags : t.flags = s.flags
  inInterrupt : t.inInterrupt = s.inInterrupt
  toDevices : t.toDevices = s.toDevices

instance : Std.Refl Saves := ⟨fun _ => ⟨rfl, rfl, rfl, rfl⟩⟩

instance : IsTrans Cpu Saves where
  trans _ _ _ hst htu := ⟨htu.pc.trans hst.pc, htu.flags.trans hst.flags,
    htu.inInterrupt.trans hst.inInterrupt, htu.toDevices.trans hst.toDevices⟩

/-- A store to a word keeps what is no accumulator or memory word. -/
lemma saves_setWord (s : Cpu) (v : W36) (a : BitVec 18) : Saves s (s.setWord v a) :=
  ⟨setWord_pc s v a, setWord_flags s v a, setWord_inInterrupt s v a, setWord_toDevices s v a⟩

instance (a : W36) : Frames Saves (memGetN a) where
  out := by
    intro s v t h
    rw [run_memGetN] at h
    cases h
    exact ⟨rfl, rfl, rfl, rfl⟩

instance (v a : W36) : Frames Saves (memPutN v a) where
  out := by
    intro s b t h
    rw [run_memPutN] at h
    cases h
    have := saves_setWord s v a.rhu
    exact ⟨this.pc, this.flags, this.inInterrupt, this.toDevices⟩

instance (v : W36) (k : ℕ) : Frames Saves (acPutPlus v k) where
  out := by
    intro s b t h
    rw [acPutPlus, run_bind_of_ok (run_gets Cpu.iw s), acPutN] at h
    split at h <;> cases h
    exact ⟨rfl, rfl, rfl, rfl⟩

instance (a : BitVec 18) : Frames Saves (peekMem a) := by rw [peekMem]; infer_instance

instance (n : ℕ) : Frames Saves (setPcOffset n) := Frames.modify _ fun _ => ⟨rfl, rfl, rfl, rfl⟩

instance (v : W36) : Frames Saves (setFetchPC v) := Frames.modify _ fun _ => ⟨rfl, rfl, rfl, rfl⟩

set_option synthInstance.maxSize 400 in
/-- **A LUUO that does not execute as an MUUO** only saves words. -/
lemma saves_of_doLUUO {s t : Cpu} {r : IResult} (hs : (s.pc.isSection0 || s.flags.usr) = true)
    (h : doLUUO.run s = .ok (r, t)) : Saves s t := by
  rw [doLUUO, run_bind_of_ok (run_gets Cpu.pc s), userMode, bind_assoc,
    run_bind_of_ok (run_gets Cpu.flags s), pure_bind] at h
  cases hsection : s.pc.isSection0 with
  | true =>
      rw [hsection, if_pos rfl] at h
      exact Frames.out h
  | false =>
      rw [hsection, Bool.false_or] at hs
      rw [hsection, hs, if_neg Bool.false_ne_true, if_pos rfl] at h
      exact Frames.out h

end KM10
