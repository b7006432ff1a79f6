import KM10.AcIndex
import KM10.Effects.Operands

/-!
The divisions that signal no-divide.

On no-divide the integer divisions and the one word divisions go through the same store as a
quotient, with the operands in place of the results; DDIV stores nothing.

* `DivideInsn`: the nine instructions, their handlers, and the operands on which they signal;
* `SameWords`: two machines with the same accumulators and memory words;
* `noDivides_idiv` to `noDivides_ddiv`: what is stored on no-divide;
* `DivideInsn.Repeats`: when the store repeats what is there already;
* `no_divide_iff`: exactly then no-divide leaves the words alone;
* `no_divide_IDIV`: a no-divide that does not.
-/

namespace KM10

open StateExcept

/-! ### The same words -/

/-- Two machines with the same accumulators, in all blocks, and the same memory words. -/
def SameWords (s t : Cpu) : Prop := t.ACBlocks = s.ACBlocks ∧ t.memP = s.memP

/-- With the same block current the same accumulators are read. -/
lemma SameWords.acs {s t : Cpu} (h : SameWords s t) (hAC : t.AC = s.AC) : t.acs = s.acs := by
  funext m
  rw [Cpu.acs, Cpu.acs, h.1, hAC]

/-- With the same block current the same words are read. -/
lemma SameWords.word {s t : Cpu} (h : SameWords s t) (hAC : t.AC = s.AC) : t.word = s.word := by
  funext a
  rw [Cpu.word, Cpu.word, h.acs hAC, h.2]

/-- A store to an accumulator repeats what is there. -/
lemma sameWords_setAC_iff {s : Cpu} {v : W36} {n : BitVec 4} :
    SameWords s (s.setAC v n) ↔ s.acs n = v := by
  constructor
  · rintro ⟨hac, -⟩
    have h := congrFun (congrFun hac s.AC) n
    exact h.symm.trans (if_pos ⟨rfl, rfl⟩)
  · rintro rfl
    refine ⟨funext fun b => funext fun m => ?_, rfl⟩
    change (if b = s.AC ∧ m = n then s.acs n else s.ACBlocks b m) = s.ACBlocks b m
    split
    case isTrue h => rw [h.1, h.2]; rfl
    case isFalse => rfl

/-- A store to a memory word repeats what is there. -/
lemma sameWords_setMem_iff {s : Cpu} {v : W36} {a : BitVec 18} :
    SameWords s (s.setMem v a) ↔ s.memP a = v := by
  constructor
  · rintro ⟨-, hmem⟩
    have h := congrFun hmem a
    exact h.symm.trans (if_pos rfl)
  · rintro rfl
    refine ⟨rfl, funext fun m => ?_⟩
    change (if m = a then s.memP a else s.memP m) = s.memP m
    split
    case isTrue h => rw [h]
    case isFalse => rfl

/-- A store to an address repeats what is there. -/
lemma sameWords_setWord_iff {s : Cpu} {v : W36} {a : BitVec 18} :
    SameWords s (s.setWord v a) ↔ s.word a = v := by
  rw [Cpu.setWord, Cpu.word]
  split
  · exact sameWords_setAC_iff
  · exact sameWords_setMem_iff

/-! ### The stores of a double word -/

instance (v : W72) : Frames Saves (acPut2 v) := by rw [acPut2]; infer_instance
instance (v : W36) : Frames Saves (memPut v) := by rw [memPut]; infer_instance
instance (v : W72) : Frames Saves (memPutHi v) := by rw [memPutHi]; infer_instance
instance (v : W72) : Frames Saves (bothPut2 v) := by rw [bothPut2]; infer_instance
instance (a b c d : W36) : Frames Saves (acPutQuad a b c d) := by
  rw [acPutQuad]
  infer_instance

section Stores

variable {s t : Cpu} {v : W72}

/-- A pair whose high word is there already. -/
lemma sameWords_acPut2_iff (h : (acPut2 v).run s = .ok ((), t)) (hac : s.iw.ac.toNat + 1 < 16)
    (hhi : v.hi = s.acs s.iw.ac) : SameWords s t ↔ s.acNext = v.lo := by
  rw [run_acPut2 v hac, hhi, setAC_self] at h
  cases h
  exact sameWords_setAC_iff

/-- A high word to memory. -/
lemma sameWords_memPutHi_iff (h : (memPutHi v).run s = .ok ((), t)) :
    SameWords s t ↔ s.word s.ea.rhu = v.hi := by
  rw [memPutHi, run_memPut] at h
  cases h
  exact sameWords_setWord_iff

/-- A pair whose high word is there already, and its high word to memory. -/
lemma sameWords_bothPut2_iff (h : (bothPut2 v).run s = .ok ((), t))
    (hac : s.iw.ac.toNat + 1 < 16) (hhi : v.hi = s.acs s.iw.ac)
    (hlo : v.lo = s.word s.ea.rhu ∨ v.lo = s.acNext) :
    SameWords s t ↔ s.word s.ea.rhu = s.acs s.iw.ac ∧ s.acNext = v.lo := by
  let u := s.setAC v.lo (s.iw.ac + 1)
  have hpair : (acPut2 v).run s = .ok ((), u) := by
    rw [run_acPut2 v hac, hhi, setAC_self]
  have hsplit : bothPut2 v = (do acPut2 v; memPut v.hi : Exec Unit) := by
    rw [bothPut2, acPut2, bind_assoc]
  rw [hsplit, run_bind_of_ok hpair, run_memPut] at h
  cases h
  constructor
  · -- what the stores leave is read back at the address and in the second accumulator
    intro hsame
    have hAC : (u.setWord v.hi s.ea.rhu).AC = s.AC := by
      rw [Cpu.setWord]
      split <;> rfl
    have hsame : SameWords s (u.setWord v.hi s.ea.rhu) := hsame
    have hword : s.word s.ea.rhu = v.hi := by
      rw [← hsame.word hAC, word_setWord]
    refine ⟨hword.trans hhi, ?_⟩
    rcases hlo with hlo | hlo
    · rw [Cpu.acNext, ← hsame.acs hAC, acs_setWord, acs_setAC, if_pos rfl, hlo, hword]
      exact ite_self _
    · exact hlo.symm
  · rintro ⟨hword, hnext⟩
    have hu : u = s := by
      change s.setAC v.lo (s.iw.ac + 1) = s
      rw [← hnext]
      exact setAC_self s _
    rw [hu]
    exact sameWords_setWord_iff.mpr (hword.trans hhi.symm)

end Stores

/-! ### Up to the store -/

/-- Reading an operand trips no assertion. -/
lemma Reads.safe {get : Exec W36} {operand : Cpu → W36} (h : Reads get operand) {n : ℕ} :
    Safe (Beyond n) (fun e => ¬ e.IsAcIndex) get where
  error := by
    intro s e _ he
    obtain ⟨running, hrun⟩ := h.out s
    rw [hrun] at he
    cases he
  ok := by
    intro s a t hs ht
    obtain ⟨running, hrun⟩ := h.out s
    rw [hrun] at ht
    cases ht
    exact hs

/-- The machine after an instruction has read its operands and signalled no-divide or not. -/
def Cpu.afterDivide (s : Cpu) (running fails : Bool) : Cpu :=
  { s with running := running, flags := if fails then s.flags.noDivide else s.flags }

/-- A division: it signals no-divide on the operands with `fails`, and then returns `back`. -/
def Divides {α : Type} (op : α → W36 → Exec W72) (fails : α → W36 → Bool) (back : α → W36 → W72) :
    Prop :=
  ∀ a b s, ∃ v, (op a b).run s = .ok (v, s.afterDivide s.running (fails a b)) ∧
    (fails a b = true → v = back a b)

lemma divides_idivWord : Divides idivWord idivFails fun a b => ⟨a, b⟩ := by
  intro a b s
  rw [idivWord]
  cases idivFails a b with
  | true => exact ⟨_, rfl, fun _ => rfl⟩
  | false => exact ⟨_, rfl, Bool.noConfusion⟩

lemma divides_divWord : Divides divWord divFails fun a _ => a := by
  intro a b s
  rw [divWord]
  cases divFails a b with
  | true => exact ⟨_, rfl, fun _ => rfl⟩
  | false => exact ⟨_, rfl, Bool.noConfusion⟩

/-- A division instruction that returned has stored what the division returned. -/
lemma exists_of_divideInsn {α : Type} {dividend : Exec α} {get : Exec W36}
    {op : α → W36 → Exec W72} {put : W72 → Exec Unit} {operand : Cpu → W36}
    {fails : α → W36 → Bool} {back : α → W36 → W72} {s t : Cpu} {r : IResult} {a : α}
    (hdividend : dividend.run s = .ok (a, s)) (hget : Reads get operand)
    (hop : Divides op fails back) (h : (binInsn dividend get op put).run s = .ok (r, t)) :
    ∃ running v, (put v).run (s.afterDivide running (fails a (operand s))) = .ok ((), t) ∧
      (fails a (operand s) = true → v = back a (operand s)) := by
  obtain ⟨running, hrun⟩ := hget.out s
  obtain ⟨v, hv, hback⟩ := hop a (operand s) { s with running := running }
  rw [binInsn, run_bind_of_ok hdividend, run_bind_of_ok hrun, run_bind_of_ok hv] at h
  obtain ⟨u, t', hput, h⟩ := ok_of_run_bind h
  cases h
  exact ⟨running, v, hput, hback⟩

/-! ### The instructions -/

/-- The instructions that divide. -/
inductive DivideInsn where
  | IDIV
  | IDIVI
  | IDIVM
  | IDIVB
  | DIV
  | DIVI
  | DIVM
  | DIVB
  | DDIV
deriving DecidableEq

namespace DivideInsn

/-- Their opcodes. -/
def op : DivideInsn → ℕ
  | IDIV => 0o230
  | IDIVI => 0o231
  | IDIVM => 0o232
  | IDIVB => 0o233
  | DIV => 0o234
  | DIVI => 0o235
  | DIVM => 0o236
  | DIVB => 0o237
  | DDIV => 0o117

/-- Their handlers. -/
def handler : DivideInsn → Handler
  | IDIV => doIDIV
  | IDIVI => doIDIVI
  | IDIVM => doIDIVM
  | IDIVB => doIDIVB
  | DIV => doDIV
  | DIVI => doDIVI
  | DIVM => doDIVM
  | DIVB => doDIVB
  | DDIV => doDDIV

/-- The operands on which they signal no-divide. -/
def signals (s : Cpu) : DivideInsn → Bool
  | IDIV => idivFails (s.acs s.iw.ac) s.memOperand
  | IDIVI => idivFails (s.acs s.iw.ac) s.immediateOperand
  | IDIVM => idivFails (s.acs s.iw.ac) s.memOperand
  | IDIVB => idivFails (s.acs s.iw.ac) s.memOperand
  | DIV => divFails s.acPair s.memOperand
  | DIVI => divFails s.acPair s.immediateOperand
  | DIVM => divFails s.acPair s.memOperand
  | DIVB => divFails s.acPair s.memOperand
  | DDIV => s.acQuad.ge s.memPair.toMag

/-- The words that they store on no-divide are there already. -/
def Repeats (s : Cpu) : DivideInsn → Prop
  | IDIV => s.acNext = s.memOperand
  | IDIVI => s.acNext = s.immediateOperand
  | IDIVM => s.memOperand = s.acs s.iw.ac
  | IDIVB => s.memOperand = s.acs s.iw.ac ∧ s.acNext = s.memOperand
  | DIV => True
  | DIVI => True
  | DIVM => s.memOperand = s.acs s.iw.ac
  | DIVB => s.memOperand = s.acs s.iw.ac
  | DDIV => True

end DivideInsn

/-- What no-divide does to the machine: flags, and words exactly under a condition. -/
def NoDivides (fails : Bool) (repeats : Prop) (s t : Cpu) : Prop :=
  (fails = false → t.flags = s.flags) ∧
    (fails = true → t.flags = s.flags.noDivide ∧ (SameWords s t ↔ repeats))

/-- From the store on. -/
lemma noDivides_of_store {put : W72 → Exec Unit} [∀ v, Frames Saves (put v)] {s t : Cpu} {v : W72}
    {running fails : Bool} {repeats : Prop}
    (h : (put v).run (s.afterDivide running fails) = .ok ((), t))
    (hsame : fails = true → (SameWords s t ↔ repeats)) : NoDivides fails repeats s t := by
  have hflags : t.flags = (s.afterDivide running fails).flags := (Frames.out h : Saves _ t).flags
  cases fails with
  | true => exact ⟨Bool.noConfusion, fun _ => ⟨hflags, hsame rfl⟩⟩
  | false => exact ⟨fun _ => hflags, Bool.noConfusion⟩

section Insns

variable {get : Exec W36} {operand : Cpu → W36} {s t : Cpu} {r : IResult}

/-- IDIV and IDIVI store the divisor in the second accumulator. -/
lemma noDivides_idiv (hget : Reads get operand)
    (h : (binInsn acGet get idivWord acPut2).run s = .ok (r, t)) :
    NoDivides (idivFails (s.acs s.iw.ac) (operand s)) (s.acNext = operand s) s t := by
  have := hget.safe (n := 1)
  have hac := lt_of_returned (n := 1) h
  obtain ⟨running, v, hput, hback⟩ := exists_of_divideInsn (run_acGet s) hget divides_idivWord h
  refine noDivides_of_store hput fun hfails => ?_
  rw [hback hfails] at hput
  exact sameWords_acPut2_iff hput hac rfl

/-- IDIVM stores the dividend in memory. -/
lemma noDivides_idivM (h : doIDIVM.run s = .ok (r, t)) :
    NoDivides (idivFails (s.acs s.iw.ac) s.memOperand) (s.memOperand = s.acs s.iw.ac) s t := by
  obtain ⟨running, v, hput, hback⟩ :=
    exists_of_divideInsn (run_acGet s) reads_memGet divides_idivWord h
  refine noDivides_of_store hput fun hfails => ?_
  rw [hback hfails] at hput
  exact sameWords_memPutHi_iff hput

/-- IDIVB stores both. -/
lemma noDivides_idivB (h : doIDIVB.run s = .ok (r, t)) :
    NoDivides (idivFails (s.acs s.iw.ac) s.memOperand)
      (s.memOperand = s.acs s.iw.ac ∧ s.acNext = s.memOperand) s t := by
  have hac := lt_of_returned (n := 1) h
  obtain ⟨running, v, hput, hback⟩ :=
    exists_of_divideInsn (run_acGet s) reads_memGet divides_idivWord h
  refine noDivides_of_store hput fun hfails => ?_
  rw [hback hfails] at hput
  exact sameWords_bothPut2_iff hput hac rfl (.inl rfl)

/-- DIV and DIVI store the dividend where it is. -/
lemma noDivides_div (hget : Reads get operand)
    (h : (binInsn acGet2 get divWord acPut2).run s = .ok (r, t)) :
    NoDivides (divFails s.acPair (operand s)) True s t := by
  have hac := lt_of_returned (n := 1) h
  obtain ⟨running, v, hput, hback⟩ := exists_of_divideInsn (run_acGet2 hac) hget divides_divWord h
  refine noDivides_of_store hput fun hfails => ?_
  rw [hback hfails] at hput
  exact (sameWords_acPut2_iff hput hac rfl).trans (iff_true_intro rfl)

/-- DIVM stores the high word of the dividend in memory. -/
lemma noDivides_divM (h : doDIVM.run s = .ok (r, t)) :
    NoDivides (divFails s.acPair s.memOperand) (s.memOperand = s.acs s.iw.ac) s t := by
  have hac := lt_of_returned (n := 1) h
  obtain ⟨running, v, hput, hback⟩ :=
    exists_of_divideInsn (run_acGet2 hac) reads_memGet divides_divWord h
  refine noDivides_of_store hput fun hfails => ?_
  rw [hback hfails] at hput
  exact sameWords_memPutHi_iff hput

/-- So does DIVB. -/
lemma noDivides_divB (h : doDIVB.run s = .ok (r, t)) :
    NoDivides (divFails s.acPair s.memOperand) (s.memOperand = s.acs s.iw.ac) s t := by
  have hac := lt_of_returned (n := 1) h
  obtain ⟨running, v, hput, hback⟩ :=
    exists_of_divideInsn (run_acGet2 hac) reads_memGet divides_divWord h
  refine noDivides_of_store hput fun hfails => ?_
  rw [hback hfails] at hput
  exact (sameWords_bothPut2_iff hput hac rfl (.inr rfl)).trans (and_iff_left rfl)

/-- DDIV stores nothing. -/
lemma noDivides_ddiv (h : doDDIV.run s = .ok (r, t)) :
    NoDivides (DivideInsn.signals s .DDIV) True s t := by
  have hac := lt_of_returned (n := 3) h
  have h1 := run_acGetPlus (s := s) (k := 1) (by omega)
  have h2 := run_acGetPlus (s := s) (k := 2) (by omega)
  obtain ⟨running, hpair⟩ := reads_memGetPairU.out s
  rw [doDDIV, run_bind_of_ok (run_acGetPlus s.iw.ac.isLt), run_bind_of_ok h1, run_bind_of_ok h2,
    run_bind_of_ok (run_acGetPlus hac), run_bind_of_ok (run_gets Cpu.indeterminate s),
    run_bind_of_ok hpair] at h
  simp only [BitVec.add_zero] at h
  change NoDivides (s.acQuad.ge s.memPair.toMag) True s t
  have hden : W144.ofWords (s.acs s.iw.ac) (s.acs (s.iw.ac + BitVec.ofNat 4 1))
      (s.acs (s.iw.ac + BitVec.ofNat 4 2)) (s.acs (s.iw.ac + BitVec.ofNat 4 3)) s.indeterminate =
      s.acQuad := rfl
  rw [hden] at h
  cases hsignals : s.acQuad.ge s.memPair.toMag with
  | true =>
      rw [hsignals, if_pos rfl] at h
      cases h
      exact ⟨Bool.noConfusion, fun _ => ⟨rfl, iff_of_true ⟨rfl, rfl⟩ trivial⟩⟩
  | false =>
      rw [hsignals, if_neg Bool.false_ne_true] at h
      exact ⟨fun _ => (Frames.out h : Saves _ t).flags, Bool.noConfusion⟩

end Insns

/-- **No-divide**: a division sets NDV, OV and TR1, and no other flag, exactly on the operands
on which it signals no-divide, and then leaves every accumulator and every memory word alone
exactly when those that it stores are there already. -/
theorem no_divide_iff (insn : DivideInsn) {s t : Cpu} {r : IResult}
    (h : insn.handler.run s = .ok (r, t)) :
    (insn.signals s = false → t.flags = s.flags) ∧
      (insn.signals s = true →
        t.flags = { s.flags with ndv := true, ov := true, tr1 := true } ∧
          (SameWords s t ↔ insn.Repeats s)) := by
  cases insn with
  | IDIV => exact noDivides_idiv reads_memGet h
  | IDIVI => exact noDivides_idiv reads_immediate h
  | IDIVM => exact noDivides_idivM h
  | IDIVB => exact noDivides_idivB h
  | DIV => exact noDivides_div reads_memGet h
  | DIVI => exact noDivides_div reads_immediate h
  | DIVM => exact noDivides_divM h
  | DIVB => exact noDivides_divB h
  | DDIV => exact noDivides_ddiv h

/-- A machine that is about to divide accumulator 1 by the zero in location 100; every
accumulator holds its own number. -/
def Cpu.dividing : Cpu :=
  { Cpu.initial with
    iw := W36.assemble 0 1 false 0 0o100
    ea := 0o100
    ACBlocks := fun _ n => n.setWidth 36 }

/-- DIV signals no-divide and leaves the words alone. -/
theorem no_divide_iff_DIV :
    ∃ r t, doDIV.run Cpu.dividing = .ok (r, t) ∧ t.flags.ndv = true ∧
      SameWords Cpu.dividing t := by
  obtain ⟨t, ht⟩ : ∃ t, doDIV.run Cpu.dividing = .ok (.iNormal, t) :=
    exists_of_returned (by decide +kernel)
  obtain ⟨hflags, hsame⟩ := (no_divide_iff .DIV ht).2 (by decide +kernel)
  exact ⟨.iNormal, t, ht, by rw [hflags], hsame.mpr trivial⟩

/-- **A no-divide that changes an accumulator**: IDIV replaces the second one by the divisor. -/
theorem no_divide_IDIV :
    ∃ r t, doIDIV.run Cpu.dividing = .ok (r, t) ∧ DivideInsn.IDIV.signals Cpu.dividing = true ∧
      ¬ SameWords Cpu.dividing t := by
  obtain ⟨t, ht⟩ : ∃ t, doIDIV.run Cpu.dividing = .ok (.iNormal, t) :=
    exists_of_returned (by decide +kernel)
  have hsignals : DivideInsn.IDIV.signals Cpu.dividing = true := by decide +kernel
  have hsame := ((noDivides_idiv reads_memGet ht).2 hsignals).2
  exact ⟨.iNormal, t, ht, hsignals, fun h => absurd (hsame.mp h) (by decide +kernel)⟩

end KM10
