import KM10.Effects.Steps
import KM10.Interrupt.Grant

/-!
The interrupt cycle, which executes the instruction at the vector address.

The header of `pi.cpp` describes the first word of a vector as an instruction that either skips,
which returns to the interrupted program, or goes on to the second word.

* `Executes`: an instruction and what it executes by XCT, up to its last result;
* `VectorProtocol`: what the header asks of a vector instruction that does not jump;
* `retire_of_continues`: what each result does in the interrupt state;
* `executed_in_interrupt`: the same for a chain of XCTs, by induction on the chain;
* `vector_protocol_iff`: the instructions that follow the protocol;
* `vector_skip_lost`: a skip that does not return.
-/

namespace KM10

open PIState (levelSet)
open StateExcept

/-! ### The protocol -/

/-- From `s`, an instruction in a cycle and what it executes by XCT end with a result in `t`. -/
inductive Executes : Cycle → Cpu → IResult → Cpu → Prop where
  | done {cycle : Cycle} {s t : Cpu} {r : IResult} (h : Step s (cycle, r) t) (hr : r ≠ .iXCT) :
      Executes cycle s r t
  | xct {cycle : Cycle} {s u t : Cpu} {r : IResult} (h : Step s (cycle, .iXCT) u)
      (rest : Executes .normal u r t) : Executes cycle s r t

/-- The results of an instruction that neither jumps nor halts. -/
def IResult.Continues (r : IResult) : Prop :=
  r ≠ .iJump ∧ r ≠ .iHALT ∧ r ≠ .iMUUO ∧ r ≠ .iLUUO

/-- The interrupt that the pass grants. -/
def Cpu.Granting (s : Cpu) (level : ℕ) : Prop :=
  ∃ piState, s.swept.pi.piState.setUpInterruptCycle s.swept.table = some (level, piState)

/-- The protocol for a vector instruction at `level` that does not jump: a skip returns to the
interrupted program and ends the service; otherwise the second word of the vector is next. -/
structure VectorProtocol (s : Cpu) (level : ℕ) (r : IResult) (t : Cpu) : Prop where
  skips : r = .iSkip →
    t.fetchPC.vma = s.pc.vma ∧ t.inInterrupt = false ∧ level ∉ levelSet t.pi.piState.held
  completes : r ≠ .iSkip →
    t.pc = s.pc ∧ t.inInterrupt = true ∧
      t.fetchPC.vma = (eptAddressFor (0o40 + 2 * level)).vma + 1

/-- The vector instruction is neither an XCT nor an I/O instruction that `Device` answers, and
its handler reports neither a skip nor a trap. -/
structure CompletesNormally (w : W36) (r : IResult) : Prop where
  not_XCT : w.op.toNat ≠ 0o256
  device : w.noSuchDevice = false
  not_skip : r ≠ .iSkip
  not_trap : r ≠ .iTrap

/-! ### One instruction in the interrupt state -/

/-- Stepping a word with an address steps the address. -/
lemma vma_ofNat_succ (w : W36) : (W36.ofNat (w.vma.toNat + 1)).vma = w.vma + 1 := by
  apply BitVec.eq_of_toNat_eq
  rw [W36.toNat_vma_ofNat, BitVec.toNat_add]
  rfl

/-- An address is not its own successor. -/
lemma vma_ne_succ (a : BitVec 23) : a + 1 ≠ a := by
  intro h
  have h := congrArg BitVec.toNat h
  rw [BitVec.toNat_add] at h
  have := a.isLt
  change (a.toNat + 1) % 2 ^ 23 = a.toNat at h
  omega

/-- What an instruction that continues does to the machine in the interrupt state: only
`iNormal` leaves the PC, and every other result advances it by one. -/
lemma retire_of_continues {v : Cpu} {r : IResult} (hr : r.Continues) (hXCT : r ≠ .iXCT)
    (hin : r.Completes → v.inInterrupt = true) :
    (r = .iNormal → (v.retire r).pc = v.pc ∧ (v.retire r).inInterrupt = true ∧
      (v.retire r).fetchPC.vma = v.fetchPC.vma + 1) ∧
    (r ≠ .iNormal → (v.retire r).pc.vma = v.pc.vma + 1 ∧
      (v.retire r).fetchPC.vma = v.pc.vma + 1) := by
  have hadvance (w : Cpu) : (w.advance 1).pc.vma = w.pc.vma + 1 ∧
      (w.advance 1).fetchPC.vma = w.pc.vma + 1 := ⟨vma_advance w 1, fetch_vma_advance w 1⟩
  obtain ⟨hjump, hhalt, hMUUO, hLUUO⟩ := hr
  constructor
  · rintro rfl
    rw [Cpu.retire, if_pos (hin (.inl rfl))]
    exact ⟨rfl, hin (.inl rfl), vma_ofNat_succ v.fetchPC⟩
  · intro hnormal
    cases r with
    | iNormal => exact absurd rfl hnormal
    | iSkip =>
        rw [Cpu.retire, if_pos (hin (.inr rfl))]
        exact hadvance _
    | iTrap => exact hadvance v
    | iNoSuchDevice => exact hadvance v
    | iNYI => exact hadvance v
    | iJump => exact absurd rfl hjump
    | iHALT => exact absurd rfl hhalt
    | iMUUO => exact absurd rfl hMUUO
    | iLUUO => exact absurd rfl hLUUO
    | iXCT => exact absurd rfl hXCT

/-- A word that reports a result of an instruction that continues is no UUO. -/
lemma not_isUUO_of_continues {w : W36} {r : IResult} (h : w.Reports r) (hr : r.Continues) :
    isUUO w.op.toNat = false := by
  rw [Bool.eq_false_iff, Ne, ← h.ofUUO_iff]
  exact fun hUUO => hUUO.elim hr.2.2.1 hr.2.2.2

/-- Without XCT, the condition leaves `iNormal` alone. -/
lemma completesNormally_iff {w : W36} {r : IResult} (h : w.Reports r) (hr : r.Continues)
    (hXCT : w.op.toNat ≠ 0o256) : CompletesNormally w r ↔ r = .iNormal := by
  have hUUO := not_isUUO_of_continues h hr
  rw [W36.Reports, if_neg (by rw [hUUO]; exact Bool.false_ne_true), if_neg hXCT] at h
  constructor
  · intro hc
    split at h
    · rcases h with h | h | h | h | h
      · exact h
      · exact absurd h hc.not_skip
      · exact absurd h hr.1
      · exact absurd h hc.not_trap
      · exact absurd h hr.2.1
    · rw [if_neg (by rw [hc.device]; exact Bool.false_ne_true)] at h
      exact h.resolve_right hc.not_skip
  · rintro rfl
    refine ⟨hXCT, ?_, by decide, by decide⟩
    split at h
    case isTrue hdevice =>
      rw [W36.noSuchDevice, decide_eq_false_iff_not, not_and]
      exact fun hge => absurd hge (not_le.mpr hdevice)
    case isFalse =>
      split at h
      · cases h
      · exact Bool.eq_false_iff.mpr (by assumption)


/-- One instruction that continues, in the interrupt state. -/
lemma step_in_interrupt {s t : Cpu} {cycle : Cycle} {r : IResult} (h : Step s (cycle, r) t)
    (hin : s.fetched.inInterrupt = true) (hr : r.Continues) (hXCT : r ≠ .iXCT) :
    (r = .iNormal →
      t.pc = s.pc ∧ t.inInterrupt = true ∧ t.fetchPC.vma = s.fetched.fetchPC.vma + 1) ∧
    (r ≠ .iNormal → t.pc.vma = s.pc.vma + 1 ∧ t.fetchPC.vma = s.pc.vma + 1) := by
  obtain ⟨last, running, nSteps, v, -, htame, hkeeps, rfl⟩ :=
    exists_of_ordinary_step h (not_isUUO_of_continues (reports_of_step h) hr)
  have hpc : v.pc = s.pc := by rw [htame.pc, dispatched_pc]
  have hfetchPC : v.fetchPC = s.fetched.fetchPC := htame.fetchPC
  rw [← hpc, ← hfetchPC]
  exact retire_of_continues hr hXCT fun hc => (hkeeps hc).trans hin

/-! ### A chain of XCTs -/

/-- What `Executes` starts with. -/
lemma Executes.cycle_eq {s t : Cpu} {cycle : Cycle} {r : IResult}
    (h : Executes cycle s r t) : cycle = s.cycle := by
  cases h with
  | done h _ => exact (exists_of_step h).1
  | xct h _ => exact (exists_of_step h).1

/-- A chain of XCTs in the interrupt state that ends with an instruction that continues.  The
PC stays only if the last instruction reports `iNormal`, and then the next word is the one
after the last instruction, which is no XCT. -/
lemma executed_in_interrupt {s t : Cpu} {cycle : Cycle} {r : IResult}
    (h : Executes cycle s r t) (hin : s.fetched.inInterrupt = true) (hr : r.Continues) :
    (r = .iNormal → t.pc = s.pc ∧ t.inInterrupt = true ∧
      ∃ a : W36, t.fetchPC.vma = a.vma + 1 ∧ (s.fetched.word a.rhu).op.toNat ≠ 0o256) ∧
    (r ≠ .iNormal → t.pc.vma = s.pc.vma + 1 ∧ t.fetchPC.vma = s.pc.vma + 1) := by
  induction h with
  | @done cycle s t r h hXCT =>
      obtain ⟨hnormal, hother⟩ := step_in_interrupt h hin hr hXCT
      refine ⟨fun hn => ?_, hother⟩
      obtain ⟨hpc, hin', hfetchPC⟩ := hnormal hn
      refine ⟨hpc, hin', s.fetched.fetchPC, hfetchPC, fun hop => hXCT ?_⟩
      exact (reports_of_step h).eq_iXCT_iff.mpr hop
  | @xct cycle s u t r h rest ih =>
      have hop : s.fetchWord.op.toNat = 0o256 :=
        (reports_of_step h).eq_iXCT_iff.mp rfl
      obtain ⟨last, running, nSteps, -, rfl⟩ := xct_step h hop
      -- the pass after an XCT is a normal one, and the XCT has changed no word
      have hcycle := rest.cycle_eq.symm
      rw [fetched_inInterrupt_of_normal hcycle, fetched_word_of_normal hcycle] at ih
      have hpc := dispatched_pc s last running nSteps
      have ih := ih hin hr
      rw [← hpc]
      exact ih

/-! ### The protocol and the code -/

/-- The vector address of the pass that grants a level. -/
lemma vector_of_granting {s : Cpu} {level : ℕ} (h : s.Granting level) :
    s.swept.vector = eptAddressFor (0o40 + 2 * level) := by
  obtain ⟨piState, h⟩ := h
  rw [Cpu.vector, h]

/-- A vector instruction that continues follows the protocol exactly if it is no XCT and
reports `iNormal`. -/
lemma vectorProtocol_iff_iNormal {s t : Cpu} {r : IResult} {level : ℕ}
    (h : Executes .interrupt s r t) (hgrant : s.Granting level) (hr : r.Continues) :
    VectorProtocol s level r t ↔ s.fetchWord.op.toNat ≠ 0o256 ∧ r = .iNormal := by
  have hcycle := h.cycle_eq.symm
  have hin : s.fetched.inInterrupt = true := fetched_inInterrupt_of_ne (by rw [hcycle]; decide)
  have hV : s.fetched.fetchPC = eptAddressFor (0o40 + 2 * level) := by
    rw [fetchPC_of_interrupt hcycle, vector_of_granting hgrant]
  obtain ⟨hnormal, hother⟩ := executed_in_interrupt h hin hr
  constructor
  · intro hp
    have hrnormal : r = .iNormal := by
      by_contra hne
      obtain ⟨hpc, hfetchPC⟩ := hother hne
      by_cases hskip : r = .iSkip
      · rw [(hp.skips hskip).1] at hfetchPC
        exact vma_ne_succ _ hfetchPC.symm
      · rw [(hp.completes hskip).1] at hpc
        exact vma_ne_succ _ hpc.symm
    refine ⟨?_, hrnormal⟩
    obtain ⟨-, -, a, ha, hop⟩ := hnormal hrnormal
    -- the last instruction was fetched at the vector address, and is no XCT
    rw [(hp.completes (by rw [hrnormal]; decide)).2.2, ← hV] at ha
    have hvma : s.fetched.fetchPC.vma = a.vma := (BitVec.add_left_inj 1).mp ha
    rw [W36.rhu_eq_vma, ← hvma, ← W36.rhu_eq_vma] at hop
    exact hop
  · rintro ⟨hop, rfl⟩
    refine ⟨fun hskip => absurd hskip (by decide), fun _ => ?_⟩
    rw [← hV]
    cases h with
    | done h hXCT => exact (step_in_interrupt h hin hr hXCT).1 rfl
    | xct h _ =>
        exact absurd ((reports_of_step h).eq_iXCT_iff.mp rfl) hop

/-- **The vector protocol**: a vector instruction that does not jump follows the protocol
exactly if it completes normally. -/
theorem vector_protocol_iff {s t : Cpu} {r : IResult} {level : ℕ}
    (h : Executes .interrupt s r t) (hgrant : s.Granting level) (hr : r.Continues) :
    VectorProtocol s level r t ↔ CompletesNormally s.fetchWord r := by
  rw [vectorProtocol_iff_iNormal h hgrant hr]
  by_cases hop : s.fetchWord.op.toNat = 0o256
  · exact iff_of_false (fun hp => hp.1 hop) fun hc => hc.not_XCT hop
  · rw [and_iff_right hop]
    cases h with
    | done h _ => exact (completesNormally_iff (reports_of_step h) hr hop).symm
    | xct h _ =>
        exact absurd ((reports_of_step h).eq_iXCT_iff.mp rfl) hop

/-- A machine at location 1000 with a request at level 3, and a vector instruction for it. -/
def Cpu.atVector (w : W36) : Cpu :=
  { Cpu.allOn.request 3 with
    running := true
    memP := fun a => if a = 0o46 then w else 0
    pc := 0o1000
    fetchPC := 0o1000 }

lemma granting_atVector (w : W36) : (Cpu.atVector w).Granting 3 := by
  have hdevices : (Cpu.atVector w).swept.toDevices = (Cpu.allOn.request 3).toDevices := rfl
  rw [Cpu.Granting, hdevices]
  exact ⟨_, rfl⟩

/-- MOVEI goes on to the second word of the vector. -/
theorem vector_protocol_iff_MOVEI :
    ∃ t, Executes .interrupt (Cpu.atVector (.assemble 0o201 1 false 0 5)) .iNormal t ∧
      VectorProtocol (Cpu.atVector (.assemble 0o201 1 false 0 5)) 3 .iNormal t := by
  obtain ⟨t, ht⟩ : ∃ t, (pass .quit).run (Cpu.atVector (.assemble 0o201 1 false 0 5)) =
      .ok (.executed .interrupt .iNormal, t) := exists_of_returned (by decide +kernel)
  have h : Executes .interrupt (Cpu.atVector (.assemble 0o201 1 false 0 5)) .iNormal t :=
    .done ⟨.quit, ht⟩ (by decide)
  have hcompletes : CompletesNormally
      (Cpu.atVector (.assemble 0o201 1 false 0 5)).fetchWord .iNormal :=
    ⟨by decide +kernel, by decide +kernel, by decide, by decide⟩
  exact ⟨t, h, (vector_protocol_iff h (granting_atVector _)
    ⟨by decide, by decide, by decide, by decide⟩).mpr hcompletes⟩

/-- **A skip in a vector**: SKIPA skips the interrupted instruction, at location 1000, and
leaves level 3 held. -/
theorem vector_skip_lost :
    ∃ t, Executes .interrupt (Cpu.atVector (.assemble 0o334 0 false 0 0)) .iSkip t ∧
      (Cpu.atVector (.assemble 0o334 0 false 0 0)).Granting 3 ∧ t.fetchPC.vma = 0o1001 ∧
      3 ∈ levelSet t.pi.piState.held ∧
        ¬ VectorProtocol (Cpu.atVector (.assemble 0o334 0 false 0 0)) 3 .iSkip t := by
  obtain ⟨t, ht, hafter⟩ : ∃ t, (pass .quit).run (Cpu.atVector (.assemble 0o334 0 false 0 0)) =
      .ok (.executed .interrupt .iSkip, t) ∧
        (t.fetchPC.vma, t.pi.piState.held) = (0o1001, 0o20) :=
    exists_of_observed (by decide +kernel)
  obtain ⟨hfetchPC, hheld⟩ := Prod.mk.inj hafter
  refine ⟨t, .done ⟨.quit, ht⟩ (by decide), granting_atVector _, hfetchPC, ?_, fun hp => ?_⟩
  · rw [hheld]
    exact (by decide : PIState.levelMask 3 &&& (0o20 : BitVec 7) ≠ 0)
  · have hvma := (hp.skips rfl).1
    rw [hfetchPC] at hvma
    exact absurd hvma (by decide)

end KM10
