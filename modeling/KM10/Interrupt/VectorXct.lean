import KM10.Interrupt.Service

/-!
XCT in the first word of a vector.

Both the XCT and the vector step through the fetch address: XCT moves it to its operand, and in
the interrupt state the word after the fetch address counts as the second word of the vector.

* `ExecutesThrough`: an instruction that is executed through a number of XCTs;
* `SecondWordNext`: the second word of the vector is executed next, with the PC as it was;
* `fetchPC_of_second_word`: no trap and no grant leads to the second word of a vector;
* `second_word_never`: behind an XCT the second word is never next;
* `second_word_lost`: an XCT of a MOVEI at a vector, after which the loop leaves the vector.
-/

namespace KM10

open StateExcept

/-! ### The second word of a vector -/

/-- From `s`, an instruction that is executed through `n` XCTs ends with a result in `t`. -/
inductive ExecutesThrough : ℕ → Cycle → Cpu → IResult → Cpu → Prop where
  | done {cycle : Cycle} {s t : Cpu} {r : IResult} (h : Step s (cycle, r) t) (hr : r ≠ .iXCT) :
      ExecutesThrough 0 cycle s r t
  | xct {n : ℕ} {cycle : Cycle} {s u t : Cpu} {r : IResult} (h : Step s (cycle, .iXCT) u)
      (rest : ExecutesThrough n .normal u r t) : ExecutesThrough (n + 1) cycle s r t

/-- The next pass after `t` executes the second word of the vector that `level` was granted at
in `s`, and the PC is still that of `s`. -/
structure SecondWordNext (s : Cpu) (level : ℕ) (t : Cpu) : Prop where
  pc : t.pc = s.pc
  next : t.fetched.fetchPC.vma = (eptAddressFor (0o40 + 2 * level)).vma + 1

namespace ExecutesThrough

variable {n : ℕ} {cycle : Cycle} {s t : Cpu} {r : IResult}

/-- The count forgotten. -/
lemma executes (h : ExecutesThrough n cycle s r t) : Executes cycle s r t := by
  induction h with
  | done h hr => exact .done h hr
  | xct h _ ih => exact .xct h ih

/-- The first of one or more XCTs. -/
lemma fetchWord_eq_XCT (h : ExecutesThrough n cycle s r t) (hn : 1 ≤ n) :
    s.fetchWord.op.toNat = 0o256 := by
  cases h with
  | done => exact absurd hn (by decide)
  | xct h _ => exact (reports_of_step h).eq_iXCT_iff.mp rfl

end ExecutesThrough

/-- A granted level is a number of four bits. -/
lemma Cpu.Granting.lt {s : Cpu} {level : ℕ} (h : s.Granting level) : level < 16 := by
  obtain ⟨piState, h⟩ := h
  exact level_lt_of_setUpInterruptCycle h

/-- A pass that executes the second word of a vector has it at its fetch address: the words of
the traps are higher up, and the first words of the vectors have even addresses. -/
lemma fetchPC_of_second_word {t : Cpu} {level : ℕ} (hlevel : level < 16)
    (h : t.fetched.fetchPC.vma = (eptAddressFor (0o40 + 2 * level)).vma + 1) :
    t.fetchPC.vma = (eptAddressFor (0o40 + 2 * level)).vma + 1 := by
  have hword : ((eptAddressFor (0o40 + 2 * level)).vma + 1).toNat = 0o41 + 2 * level := by
    rw [BitVec.toNat_add, eptAddressFor, W36.toNat_vma_ofNat]
    change ((0o40 + 2 * level) % 2 ^ 23 + 1) % 2 ^ 23 = _
    omega
  rcases fetched_fetchPC_cases t with hfetch | ⟨n, hfetch, hn⟩
  · rw [← hfetch, h]
  · have hnat := congrArg BitVec.toNat h
    rw [hword, hfetch, eptAddressFor, W36.toNat_vma_ofNat] at hnat
    rcases hn with rfl | rfl | ⟨level', hlt, rfl⟩ <;> omega

/-! ### Behind an XCT -/

/-- **The second word is never next behind an XCT**: an instruction that neither skips nor jumps
and is executed through one or more XCTs in a vector leaves the PC, or the next fetch is from
the word after the instruction itself. -/
theorem second_word_never {n level : ℕ} {s t : Cpu} {r : IResult}
    (h : ExecutesThrough n .interrupt s r t) (hn : 1 ≤ n) (hgrant : s.Granting level)
    (hr : r.Continues) (hskip : r ≠ .iSkip) : ¬ SecondWordNext s level t := by
  intro hnext
  have hcycle := h.executes.cycle_eq.symm
  have hin : s.fetched.inInterrupt = true := fetched_inInterrupt_of_ne (by rw [hcycle]; decide)
  obtain ⟨hnormal, hother⟩ := executed_in_interrupt h.executes hin hr
  by_cases hrnormal : r = .iNormal
  · have hprotocol : VectorProtocol s level r t :=
      { skips := fun hs => absurd hs hskip
        completes := fun _ => ⟨hnext.pc, (hnormal hrnormal).2.1,
          fetchPC_of_second_word hgrant.lt hnext.next⟩ }
    exact ((vectorProtocol_iff_iNormal h.executes hgrant hr).mp hprotocol).1
      (h.fetchWord_eq_XCT hn)
  · have hpc := (hother hrnormal).1
    rw [hnext.pc] at hpc
    exact vma_ne_succ _ hpc.symm

/-- A machine at location 1000 with a request at level 3, an XCT of location 2000 at the vector
and a MOVEI there. -/
def Cpu.atVectorXct : Cpu :=
  { Cpu.allOn.request 3 with
    running := true
    memP := fun a =>
      if a = 0o46 then W36.assemble 0o256 0 false 0 0o2000
      else if a = 0o2000 then W36.assemble 0o201 1 false 0 5
      else 0
    pc := 0o1000
    fetchPC := 0o1000 }

lemma granting_atVectorXct : Cpu.atVectorXct.Granting 3 := ⟨_, rfl⟩

lemma executes_atVectorXct :
    ExecutesThrough 1 .interrupt Cpu.atVectorXct .iNormal Cpu.atVectorXct.next.next :=
  .xct (step_next (by decide +kernel))
    (.done (step_next (by decide +kernel)) (by decide))

theorem second_word_never_MOVEI :
    ¬ SecondWordNext Cpu.atVectorXct 3 Cpu.atVectorXct.next.next :=
  second_word_never executes_atVectorXct le_rfl granting_atVectorXct
    ⟨by decide, by decide, by decide, by decide⟩ (by decide)

/-- **The second word lost**: the MOVEI is executed through an XCT at 046, and the next word is
the one at 2001, behind it, and not the one at 047. -/
theorem second_word_lost :
    ∃ t, ExecutesThrough 1 .interrupt Cpu.atVectorXct .iNormal t ∧ Cpu.atVectorXct.Granting 3 ∧
      t.inInterrupt = true ∧ t.fetched.fetchPC.vma = 0o2001 ∧
        ¬ SecondWordNext Cpu.atVectorXct 3 t := by
  have hfetch : Cpu.atVectorXct.next.next.fetched.fetchPC.vma = 0o2001 := by decide +kernel
  refine ⟨_, executes_atVectorXct, granting_atVectorXct, by decide +kernel, hfetch, fun h => ?_⟩
  have hnext := h.next
  rw [hfetch] at hnext
  exact absurd hnext (by decide)

end KM10
