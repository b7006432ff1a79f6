import KM10.Effects.Address
import KM10.Effects.UUOs
import KM10.Library.Trace

/-!
Programs in section 0 and the two ways out of it.

The address of the PC has 23 bits, the upper five of which are the section.  A jump takes all
of them from the effective address, into which the whole index register is added, and the
advance of the PC carries into them.

* `InSection0`: the PC and the fetch address are in section 0;
* `Cpu.EndsInSection0`: what an instruction with a given result does next stays there;
* `StaysInSection0`: the same, said of the machine before the instruction;
* `section0_step_iff`, `section0_closed_iff`: exactly then one instruction, or a run, does;
* `section0_left`: a jump through an index register with a left half.
-/

namespace KM10

open StateExcept

/-- The next instruction is fetched in section 0, and the PC is there as well. -/
structure InSection0 (s : Cpu) : Prop where
  pc : s.pc.vma.toNat < 2 ^ 18
  fetchPC : s.fetchPC.vma.toNat < 2 ^ 18

/-! ### The end of an instruction -/

/-- What the `switch` does with the result `r` stays in section 0: a jump and an XCT go to the
effective address, a vector step to the word after the fetch address, and everything else to
one or two words after the PC. -/
def Cpu.EndsInSection0 (s : Cpu) : IResult → Prop
  | .iNormal =>
      if s.inInterrupt then s.fetchPC.vma.toNat + 1 < 2 ^ 18 else s.pc.vma.toNat + 1 < 2 ^ 18
  | .iSkip => s.pc.vma.toNat + (if s.inInterrupt then 1 else 2) < 2 ^ 18
  | .iJump => s.ea.vma.toNat < 2 ^ 18
  | .iXCT => s.ea.vma.toNat < 2 ^ 18
  | .iTrap => s.pc.vma.toNat + 1 < 2 ^ 18
  | .iNoSuchDevice => s.pc.vma.toNat + 1 < 2 ^ 18
  | .iNYI => s.pc.vma.toNat + 1 < 2 ^ 18
  | .iMUUO => True
  | .iLUUO => True
  | .iHALT => True

/-- The advance takes the address modulo `2^23`. -/
lemma inSection0_advance_iff (s : Cpu) (n : ℕ) :
    InSection0 (s.advance n) ↔ (s.pc.vma.toNat + n) % 2 ^ 23 < 2 ^ 18 := by
  have hsum : (s.pc.vma + BitVec.ofNat 23 n).toNat = (s.pc.vma.toNat + n) % 2 ^ 23 := by
    rw [BitVec.toNat_add, BitVec.toNat_ofNat, Nat.add_mod_mod]
  have hpc : (s.advance n).pc.vma.toNat = (s.pc.vma.toNat + n) % 2 ^ 23 := by
    rw [vma_advance, hsum]
  have hfetchPC : (s.advance n).fetchPC.vma.toNat = (s.pc.vma.toNat + n) % 2 ^ 23 := by
    rw [fetch_vma_advance, hsum]
  exact ⟨fun h => hpc ▸ h.pc, fun h => ⟨hpc ▸ h, hfetchPC ▸ h⟩⟩

/-- From an address in section 0 the advance does not wrap. -/
lemma inSection0_advance_iff_of_lt {s : Cpu} {n : ℕ} (hpc : s.pc.vma.toNat < 2 ^ 18)
    (hn : n ≤ 2) : InSection0 (s.advance n) ↔ s.pc.vma.toNat + n < 2 ^ 18 := by
  rw [inSection0_advance_iff, Nat.mod_eq_of_lt (by omega)]

/-- **The end of an instruction** in section 0. -/
lemma inSection0_retire_iff {s : Cpu} (hs : InSection0 s) (r : IResult) :
    InSection0 (s.retire r) ↔ s.EndsInSection0 r := by
  obtain ⟨hpc, hfetchPC⟩ := hs
  cases r with
  | iNormal =>
      rw [Cpu.retire, Cpu.EndsInSection0]
      split
      case isTrue =>
        have hnext : (W36.ofNat (s.fetchPC.vma.toNat + 1)).vma.toNat =
            s.fetchPC.vma.toNat + 1 := by
          rw [W36.toNat_vma_ofNat, Nat.mod_eq_of_lt (by omega)]
        exact ⟨fun h => hnext ▸ h.fetchPC, fun h => ⟨hpc, by rw [hnext]; exact h⟩⟩
      case isFalse => exact inSection0_advance_iff_of_lt hpc (by omega)
  | iSkip =>
      rw [Cpu.retire, Cpu.EndsInSection0]
      split
      case isTrue => exact inSection0_advance_iff_of_lt hpc (by omega)
      case isFalse => exact inSection0_advance_iff_of_lt hpc (by omega)
  | iJump =>
      rw [Cpu.retire, inSection0_advance_iff, Nat.add_zero,
        Nat.mod_eq_of_lt (BitVec.isLt _)]
      rfl
  | iXCT => exact ⟨fun h => h.fetchPC, fun h => ⟨hpc, h⟩⟩
  | iMUUO => exact iff_of_true ⟨hpc, hfetchPC⟩ trivial
  | iLUUO => exact iff_of_true ⟨hpc, hfetchPC⟩ trivial
  | iHALT =>
      rw [Cpu.retire, inSection0_advance_iff, Nat.add_zero]
      exact iff_of_true ((Nat.mod_le _ _).trans_lt hpc) trivial
  | iTrap => exact inSection0_advance_iff_of_lt hpc (by omega)
  | iNoSuchDevice => exact inSection0_advance_iff_of_lt hpc (by omega)
  | iNYI => exact inSection0_advance_iff_of_lt hpc (by omega)

/-- A handler may change the right half of `ea`, and the interrupt state if it does not
complete. -/
lemma EndsInSection0.congr {s t : Cpu} {r : IResult} (hpc : t.pc = s.pc)
    (hfetchPC : t.fetchPC = s.fetchPC) (hea : t.ea.lhu = s.ea.lhu)
    (hin : r.Completes → t.inInterrupt = s.inInterrupt) :
    t.EndsInSection0 r ↔ s.EndsInSection0 r := by
  have hjump : t.ea.vma.toNat < 2 ^ 18 ↔ s.ea.vma.toNat < 2 ^ 18 := by
    rw [W36.toNat_vma_lt_iff, W36.toNat_vma_lt_iff, hea]
  cases r with
  | iNormal => simp only [Cpu.EndsInSection0, hpc, hfetchPC, hin (.inl rfl)]
  | iSkip => simp only [Cpu.EndsInSection0, hpc, hin (.inr rfl)]
  | iJump => exact hjump
  | iXCT => exact hjump
  | _ => simp only [Cpu.EndsInSection0, hpc]

/-! ### One instruction -/

/-- The vector words and the trap words are in section 0. -/
lemma inSection0_fetched {s : Cpu} (hs : InSection0 s) : InSection0 s.fetched := by
  refine ⟨by rw [fetched_pc]; exact hs.pc, ?_⟩
  have hlow {n : ℕ} (hn : n < 2 ^ 18) : (eptAddressFor n).vma.toNat < 2 ^ 18 := by
    rw [eptAddressFor, W36.toNat_vma_ofNat]
    omega
  rcases fetched_fetchPC_cases s with h | ⟨n, h, hn⟩ <;> rw [h]
  · exact hs.fetchPC
  · rcases hn with rfl | rfl | ⟨level, hlt, rfl⟩
    · exact hlow (by decide)
    · exact hlow (by decide)
    · exact hlow (by omega)

/-- The new PC word of the next MUUO is in section 0. -/
def NewPCInSection0 (s : Cpu) : Prop :=
  isMUUO s.fetchWord.op.toNat = true →
    (s.memP (BitVec.ofNat 18 (muuoNewPC s.flags))).vma.toNat < 2 ^ 18

/-- An instruction stays in section 0: the effective address of its last link, if it goes
there, and the next word, if it goes on, lie in it. -/
def StaysInSection0 (x : TraceStep Cpu (Cycle × IResult)) : Prop :=
  ∃ last, LastLink x.pre.fetched x.pre.fetchWord last ∧
    ({ x.pre.fetched with ea := W36.ofNat (x.pre.fetched.linkAddress last) } : Cpu).EndsInSection0
      x.label.2

/-- The word of the UPT that an MUUO reads is a memory word. -/
lemma word_muuoNewPC (s : Cpu) (f : ProgramFlags) :
    s.word (W36.ofNat (muuoNewPC f)).rhu = s.memP (BitVec.ofNat 18 (muuoNewPC f)) := by
  rw [muuoNewPC]
  split <;> split <;> rfl

/-- The UUOs stay in section 0 if the new PC words are there. -/
lemma inSection0_of_UUO {u v : Cpu} {r : IResult} {op : ℕ} (hu : InSection0 u)
    (hUUO : isUUO op = true)
    (hnewPC : isMUUO op = true →
      (u.memP (BitVec.ofNat 18 (muuoNewPC u.flags))).vma.toNat < 2 ^ 18)
    (h : (ops op).run u = .ok (r, v)) : (r = .iMUUO ∨ r = .iLUUO) ∧ InSection0 v := by
  rcases cases_of_isUUO hUUO with hop | hop | hop
  · rw [ops_of_isMUUO hop] at h
    obtain ⟨rfl, hpc, hfetchPC, -⟩ := exists_of_doMUUO h
    rw [word_muuoNewPC] at hpc hfetchPC
    exact ⟨.inl rfl, by rw [hpc]; exact hnewPC hop, by rw [hfetchPC]; exact hnewPC hop⟩
  · rw [ops_LUUO hop] at h
    obtain ⟨running, hrun⟩ := run_doLUUO_of_section0 (u.pc.isSection0_iff.mpr hu.pc)
    rw [hrun] at h
    cases h
    have h41 : (W36.ofNat 0o41).vma.toNat < 2 ^ 18 := by decide
    exact ⟨.inr rfl, by rw [setWord_pc]; exact hu.pc, h41⟩
  · rw [hop, ops_JSYS, run_doJSYS] at h
    cases h
    exact ⟨.inl rfl, hu.pc, hu.fetchPC⟩

/-- **One instruction** in section 0 stays there exactly if it meets the condition. -/
theorem section0_step_iff {s t : Cpu} {label : Cycle × IResult} (hs : InSection0 s)
    (hnewPC : NewPCInSection0 s) (h : Step s label t) :
    InSection0 t ↔ StaysInSection0 ⟨s, label, t⟩ := by
  obtain ⟨-, last, running, nSteps, v, hlast, hop, rfl⟩ := exists_of_step h
  have hfetched := inSection0_fetched hs
  let u := s.dispatched last running nSteps
  have hu : InSection0 u := ⟨hfetched.pc, hfetched.fetchPC⟩
  -- the condition is about the last link, of which there is one
  have hstays : StaysInSection0 ⟨s, label, v.retire label.2⟩ ↔ u.EndsInSection0 label.2 := by
    constructor
    · rintro ⟨last', hlast', hends⟩
      rw [LastLink.unique hlast' hlast] at hends
      exact hends
    · intro hends
      exact ⟨last, hlast, hends⟩
  rw [hstays]
  cases hUUO : isUUO s.fetchWord.op.toNat with
  | false =>
      have htame := ops_tame hUUO hop
      have hv : InSection0 v := ⟨htame.pc ▸ hu.pc, htame.fetchPC ▸ hu.fetchPC⟩
      rw [inSection0_retire_iff hv]
      exact EndsInSection0.congr htame.pc htame.fetchPC htame.eaLeft
        (ops_keeps_inInterrupt hUUO s.fetchWord.op.isLt hop)
  | true =>
      have hmem : isMUUO s.fetchWord.op.toNat = true →
          (u.memP (BitVec.ofNat 18 (muuoNewPC u.flags))).vma.toNat < 2 ^ 18 := by
        intro hMUUO
        have hmemP : u.memP = s.memP := fetched_memP s
        rw [hmemP, dispatched_flags]
        exact hnewPC hMUUO
      obtain ⟨hr, hv⟩ := inSection0_of_UUO hu hUUO hmem hop
      rw [inSection0_retire_iff hv]
      rcases hr with hr | hr <;> rw [hr] <;> exact Iff.rfl

/-! ### A run -/

/-- **Section 0**: a run that starts in section 0, and whose MUUOs find new PC words there,
stays in it exactly when every instruction of it meets the condition. -/
theorem section0_closed_iff {s : Cpu} (hs : InSection0 s)
    {steps : List (TraceStep Cpu (Cycle × IResult))} (h : Trace Step s steps)
    (hnewPC : ∀ x ∈ steps, NewPCInSection0 x.pre) :
    (∀ x ∈ steps, InSection0 x.post) ↔ ∀ x ∈ steps, StaysInSection0 x := by
  refine (h.restrict (C := fun x => NewPCInSection0 x.pre) hnewPC).forall_iff (I := InSection0)
    (C := StaysInSection0) (Q := fun x => InSection0 x.post) (fun hs hstep => ?_) hs
  have hiff := section0_step_iff hs hstep.2 hstep.1
  exact ⟨hiff, hiff.mpr⟩

/-- A machine at location 1000 with a jump through accumulator 1 there. -/
def Cpu.atJRST (index : W36) : Cpu :=
  { Cpu.initial with
    running := true
    memP := fun a => if a = 0o1000 then W36.assemble 0o254 0 false 1 0 else 0
    ACBlocks := fun _ n => if n = 1 then index else 0
    pc := 0o1000
    fetchPC := 0o1000 }

/-- Through an index register without a left half the jump stays in section 0. -/
theorem section0_closed_iff_atJRST :
    ∃ t, Step (Cpu.atJRST 0o2000) (.normal, .iJump) t ∧ InSection0 t := by
  obtain ⟨t, ht⟩ : ∃ t, (pass .quit).run (Cpu.atJRST 0o2000) = .ok (.executed .normal .iJump, t) :=
    exists_of_returned (by decide +kernel)
  have hstep : Step (Cpu.atJRST 0o2000) (.normal, .iJump) t := ⟨.quit, ht⟩
  have hnewPC : NewPCInSection0 (Cpu.atJRST 0o2000) := fun _ => by decide +kernel
  have hlast : LastLink (Cpu.atJRST 0o2000).fetched (Cpu.atJRST 0o2000).fetchWord
      (Cpu.atJRST 0o2000).fetchWord := .here (by decide +kernel)
  have hea : (W36.ofNat ((Cpu.atJRST 0o2000).fetched.linkAddress
      (Cpu.atJRST 0o2000).fetchWord)).vma.toNat < 2 ^ 18 := by decide +kernel
  have hstays : StaysInSection0 ⟨Cpu.atJRST 0o2000, (.normal, .iJump), t⟩ := ⟨_, hlast, hea⟩
  exact ⟨t, hstep, (section0_closed_iff ⟨by decide, by decide⟩ (.cons hstep (.nil t))
    (List.forall_mem_singleton.mpr hnewPC)).mpr (List.forall_mem_singleton.mpr hstays) _
    List.mem_cons_self⟩

/-- **A way out of section 0**: through the index register 1,,2000, as an AOBJN loop counts it,
the jump goes to location 2000 of section 1. -/
theorem section0_left :
    ∃ t, Step (Cpu.atJRST 0o1002000) (.normal, .iJump) t ∧ InSection0 (Cpu.atJRST 0o1002000) ∧
      ¬ InSection0 t := by
  obtain ⟨t, ht, hpc⟩ : ∃ t, (pass .quit).run (Cpu.atJRST 0o1002000) =
      .ok (.executed .normal .iJump, t) ∧ t.pc.vma = 0o1002000 :=
    exists_of_observed (by decide +kernel)
  have hstart : InSection0 (Cpu.atJRST 0o1002000) := ⟨by decide, by decide⟩
  refine ⟨t, ⟨.quit, ht⟩, hstart, fun h => ?_⟩
  have hlt := h.pc
  rw [hpc] at hlt
  exact absurd hlt (by decide)

end KM10
