import KM10.Effects.Calls
import KM10.Interrupt.VectorCycle

/-!
The service of an interrupt by a handler that is entered by JSR and left by JEN.

* `saved_in_interrupt`, `run_doJEN`: what JSR saves and what JEN does;
* `Service`: a grant with `JSR H` at the vector, a handler that leaves the accumulators, the
  word at H and the flags alone, and `JEN @H` at its end;
* `Service.enter_spec`, `Service.leave_spec`: the machine after each of the two;
* `service_transparent_iff`: when the interrupted program finds its machine again;
* `service_loses_flags`: a service that does not restore the flags.
-/

namespace KM10

open PIState (levelSet)
open StateExcept

/-! ### JSR and JEN -/

/-- The word that JSR saves in an interrupt: the flags over the right half of the PC. -/
def Cpu.savedInInterrupt (s : Cpu) : W36 := (W36.ofNat s.pc.rhu.toNat).setPcFlags s.flags.u

/-- In an interrupt the saved PC is that of the interrupted instruction. -/
lemma saved_in_interrupt {s : Cpu} (h : s.inInterrupt = true) :
    s.saved true = s.savedInInterrupt := by
  rw [Cpu.saved, h]
  rfl

/-- The flags of the handler: those that a call clears are clear, and so are USR and PUB. -/
def ProgramFlags.inHandler (f : ProgramFlags) : ProgramFlags :=
  { f.clearForCall with usr := false, pub := false }

/-- The state after JEN: the interrupt is dismissed, and the flags come from the effective
address. -/
def Cpu.leftByJEN (s : Cpu) : Cpu :=
  { s with
    pi := { s.pi with piState := s.pi.piState.dismissInterrupt }
    inInterrupt := false
    flags := s.flags.restore (.ofU s.ea.pcFlags) }

/-- JEN dismisses the interrupt, restores flags from the effective address and jumps. -/
lemma run_doJEN {s : Cpu} (h : s.iw.ac = 0o12) : doJRST.run s = .ok (.iJump, s.leftByJEN) := by
  rw [doJRST, run_bind_of_ok (run_gets Cpu.iw s), run_bind_of_ok (run_gets Cpu.ea s), h]
  rfl

/-! ### A service -/

/-- The word is JSR with this direct address. -/
structure W36.IsJSR (w : W36) (H : BitVec 18) : Prop where
  op : w.op = 0o264
  i : w.i = false
  x : w.x = 0
  y : w.y = H

/-- The word is JEN, which is JRST with 012 in its AC field, through the word at this
address. -/
structure W36.IsJENThrough (w : W36) (H : BitVec 18) : Prop where
  op : w.op = 0o254
  ac : w.ac = 0o12
  i : w.i = true
  x : w.x = 0
  y : w.y = H

/-- The service of an interrupt that is granted at `level` in the machine `s`: `JSR H` leads
to `t`, the handler from there to `u`, and `JEN @H` to `v`. -/
structure Service (level : ℕ) (H : BitVec 18) (s t u v : Cpu) : Prop where
  granting : s.Granting level
  vector : s.fetchWord.IsJSR H
  enter : ∃ r, Step s (.interrupt, r) t
  handler : Relation.ReflTransGen (fun a b => ∃ label, Step a label b) t u
  acs : u.acs = t.acs
  word : u.word H = t.word H
  flags : u.flags = t.flags
  last : u.fetchWord.IsJENThrough H
  leave : ∃ r, Step u (.normal, r) v

/-- The interrupted program finds its machine again: PC, flags and accumulators are as they
were, the next fetch is at the PC, and the level is not held any more. -/
structure Transparent (level : ℕ) (s v : Cpu) : Prop where
  pc : v.pc.vma = s.pc.vma
  flags : v.flags = s.flags
  acs : v.acs = s.acs
  fetchPC : v.fetchPC.vma = s.pc.vma
  held : level ∉ levelSet v.pi.piState.held

/-- The accumulators survive the grant, which clears word 3 of block 7, and the word that JSR
saves. -/
structure KeepsAcs (H : BitVec 18) (s : Cpu) : Prop where
  block7 : s.AC = 7 → H ≠ 3 → s.acs 3 = 0
  saved : H < 0o20 → s.acs (H.setWidth 4) = s.savedInInterrupt

/-- A grant clears word 3 of accumulator block 7. -/
lemma granted_acs {s : Cpu} (h : s.vector ≠ 0) (n : BitVec 4) :
    s.granted.acs n = if s.AC = 7 ∧ n = 3 then 0 else s.acs n := by
  rw [Cpu.granted]
  cases hset : s.pi.piState.setUpInterruptCycle s.table with
  | none => exact absurd (vector_eq_zero_iff.mpr hset) h
  | some grant => rfl

/-- The accumulators of an interrupt cycle. -/
lemma fetched_acs_of_interrupt {s : Cpu} (h : s.cycle = .interrupt) (n : BitVec 4) :
    s.fetched.acs n = if s.AC = 7 ∧ n = 3 then 0 else s.acs n := by
  obtain ⟨hvector, hentered⟩ := entered_of_interrupt h
  change s.swept.entered.acs n = _
  rw [hentered]
  exact granted_acs hvector n

namespace Service

variable {level : ℕ} {H : BitVec 18} {s t u v : Cpu}

/-- The machine after JSR: the flags of the handler, the saved word at H, and the accumulators
that the grant and the saved word leave. -/
lemma enter_spec (h : Service level H s t u v) :
    t.flags = s.flags.inHandler ∧ t.word H = s.savedInInterrupt ∧
      ∀ n, t.acs n = if H < 0o20 ∧ n = H.setWidth 4 then s.savedInInterrupt
        else if s.AC = 7 ∧ n = 3 then 0 else s.acs n := by
  obtain ⟨r, hstep⟩ := h.enter
  obtain ⟨hcycle, last, running, nSteps, w, hlast, hop, rfl⟩ := exists_of_step hstep
  have hhere : last = s.fetchWord :=
    LastLink.unique hlast (.here (by rw [h.vector.i]; rfl))
  let d := s.dispatched last running nSteps
  have hea : d.ea = W36.ofNat H.toNat := by
    change W36.ofNat (s.fetched.linkAddress last) = _
    rw [hhere, Cpu.linkAddress, h.vector.x, if_neg (not_not.mpr rfl), h.vector.y]
  have hin : d.inInterrupt = true :=
    fetched_inInterrupt_of_ne (by rw [← hcycle]; exact Cycle.noConfusion)
  have hsection : d.ea.isSection0 = true := by
    rw [W36.isSection0_iff, hea, W36.toNat_vma_ofNat]
    have := H.isLt
    omega
  have hsaved : d.saved d.ea.isSection0 = s.savedInInterrupt := by
    rw [hsection, saved_in_interrupt hin, Cpu.savedInInterrupt, dispatched_pc, dispatched_flags]
    rfl
  have hflags : d.callFlags = s.flags.inHandler := by
    rw [Cpu.callFlags, if_pos hin, dispatched_flags]
    rfl
  obtain ⟨running', hrun⟩ := run_doJSR d
  have hops : ops s.fetchWord.op.toNat = doJSR := by
    rw [h.vector.op]
    exact ops_JSR
  rw [hops, hrun, hsaved, hflags, hea, W36.rhu_ofNat_toNat] at hop
  cases hop
  refine ⟨?_, ?_, fun n => ?_⟩
  · rw [retire_flags]
  · rw [retire_word]
    exact word_setWord d s.savedInInterrupt H
  · change (d.setWord s.savedInInterrupt H).acs n = _
    rw [acs_setWord, ← fetched_acs_of_interrupt hcycle.symm n]
    rfl

/-- The end of JEN: no flag is set, the PC and the fetch address are the right half of the
interrupted PC, the accumulators are those of the handler, and no level is held. -/
lemma leave_spec (h : Service level H s t u v) :
    v.flags = .none ∧ v.pc.vma.toNat = s.pc.rhu.toNat ∧ v.fetchPC.vma = v.pc.vma ∧
      v.acs = t.acs ∧ v.pi.piState.held = 0 := by
  obtain ⟨hflags, hword, -⟩ := h.enter_spec
  obtain ⟨r, hstep⟩ := h.leave
  obtain ⟨hcycle, last, running, nSteps, w, hlast, hop, rfl⟩ := exists_of_step hstep
  -- the address chain of JEN ends at the saved word, whose section bits are zero
  have hlink := W36.link_of_vma (w := s.savedInInterrupt) (a := s.pc.rhu)
    (W36.vma_setPcFlags _ _)
  have hnext : u.fetched.nextLink u.fetchWord = s.savedInInterrupt := by
    rw [Cpu.nextLink, Cpu.linkAddress, h.last.x, if_neg (not_not.mpr rfl), h.last.y,
      W36.rhu_ofNat_toNat, fetched_word_of_normal hcycle.symm, h.word, hword]
  have hsaved : last = s.savedInInterrupt := by
    refine LastLink.unique hlast (.there (by rw [h.last.i]; rfl) ?_)
    rw [hnext]
    exact .here (by rw [hlink.1]; rfl)
  let d := u.dispatched last running nSteps
  have hea : d.ea = W36.ofNat s.pc.rhu.toNat := by
    change W36.ofNat (u.fetched.linkAddress last) = _
    rw [hsaved, Cpu.linkAddress, hlink.2.1, if_neg (not_not.mpr rfl), hlink.2.2]
  have hops : ops u.fetchWord.op.toNat = doJRST := by
    rw [h.last.op]
    exact ops_JRST
  rw [hops, run_doJEN (s := d) h.last.ac] at hop
  cases hop
  have hretire (w : Cpu) : (w.retire .iJump).pc.vma = w.ea.vma ∧
      (w.retire .iJump).fetchPC.vma = w.ea.vma := by
    simp only [Cpu.retire, Cpu.advance, W36.vma_setVma, Nat.add_zero, BitVec.ofNat_toNat,
      BitVec.setWidth_eq, and_self]
  refine ⟨?_, ?_, ?_, ?_, ?_⟩
  · rw [retire_flags]
    change d.flags.restore (.ofU d.ea.pcFlags) = _
    rw [hea, W36.pcFlags_ofNat_toNat, dispatched_flags, h.flags, hflags]
    rfl
  · rw [(hretire _).1]
    change d.ea.vma.toNat = _
    have := s.pc.rhu.isLt
    rw [hea, W36.toNat_vma_ofNat]
    omega
  · rw [(hretire _).1, (hretire _).2]
  · rw [← h.acs, ← fetched_acs_of_normal hcycle.symm]
    rfl
  · rw [retire_toDevices]
    rfl

/-- The accumulators of the interrupted program survive exactly if `KeepsAcs` says so. -/
lemma acs_eq_iff (h : Service level H s t u v) : t.acs = s.acs ↔ KeepsAcs H s := by
  obtain ⟨-, -, hacs⟩ := h.enter_spec
  rw [funext_iff]
  constructor
  · intro heq
    refine ⟨fun h7 h3 => ?_, fun hH => ?_⟩
    · rw [← heq 3, hacs 3, if_neg ?_, if_pos ⟨h7, rfl⟩]
      rintro ⟨hlt, hn⟩
      have hlt := BitVec.lt_def.mp hlt
      have hn := congrArg BitVec.toNat hn
      rw [BitVec.toNat_setWidth] at hn
      refine h3 (BitVec.eq_of_toNat_eq ?_)
      change 3 = H.toNat % 16 at hn
      change H.toNat < 16 at hlt
      change H.toNat = 3
      omega
    · rw [← heq (H.setWidth 4), hacs, if_pos ⟨hH, rfl⟩]
  · intro hkeeps n
    rw [hacs n]
    split
    case isTrue hn => rw [hn.2, hkeeps.saved hn.1]
    case isFalse hn =>
      split
      case isTrue h3 =>
        rw [h3.2, hkeeps.block7 h3.1]
        rintro rfl
        exact hn ⟨by decide, h3.2⟩
      case isFalse => rfl

end Service

/-- **Interrupt transparency**: the interrupted program finds its machine again exactly if no
flag was set, its PC was in section 0 and the service has kept its accumulators. -/
theorem service_transparent_iff {level : ℕ} {H : BitVec 18} {s t u v : Cpu}
    (h : Service level H s t u v) :
    Transparent level s v ↔
      s.flags = .none ∧ s.pc.vma.toNat < 2 ^ 18 ∧ KeepsAcs H s := by
  obtain ⟨hflags, hpc, hfetchPC, hacs, hheld⟩ := h.leave_spec
  have hvma : v.pc.vma = s.pc.vma ↔ s.pc.vma.toNat < 2 ^ 18 := by
    rw [← W36.toNat_rhu_eq_iff, ← hpc, BitVec.toNat_inj]
  rw [← h.acs_eq_iff, ← hvma, ← hacs]
  constructor
  · intro ht
    exact ⟨by rw [← ht.flags, hflags], ht.pc, ht.acs⟩
  · rintro ⟨hnone, hpc, hacs⟩
    refine ⟨hpc, hflags.trans hnone.symm, hacs, hfetchPC.trans hpc, ?_⟩
    rw [hheld]
    exact fun hmem => hmem BitVec.and_zero

/-- A machine interrupted at location 1000, in user mode or with no flag set.  The handler at
2000 drops the request with CONO APR and returns. -/
def Cpu.interrupted (usr : Bool) : Cpu :=
  { Cpu.allOn.request 3 with
    running := true
    flags := { ProgramFlags.none with usr := usr }
    memP := fun a =>
      if a = 0o46 then W36.assemble 0o264 0 false 0 0o2000
      else if a = 0o2001 then W36.assemble 0o700 4 false 0 0
      else if a = 0o2002 then W36.assemble 0o254 0o12 true 0 0o2000
      else 0
    pc := 0o1000
    fetchPC := 0o1000 }

/-- The three passes serve the interrupt. -/
lemma service_interrupted (usr : Bool) :
    Service 3 0o2000 (Cpu.interrupted usr) (Cpu.interrupted usr).next
      (Cpu.interrupted usr).next.next (Cpu.interrupted usr).next.next.next := by
  cases usr <;> exact
    { granting := ⟨_, rfl⟩
      vector := ⟨by decide +kernel, by decide +kernel, by decide +kernel, by decide +kernel⟩
      enter := ⟨.iJump, step_next (by decide +kernel)⟩
      handler := .single ⟨(.normal, .iNormal), step_next (by decide +kernel)⟩
      acs := funext (by decide +kernel)
      word := by decide +kernel
      flags := by decide +kernel
      last := ⟨by decide +kernel, by decide +kernel, by decide +kernel, by decide +kernel,
        by decide +kernel⟩
      leave := ⟨.iJump, step_next (by decide +kernel)⟩ }

/-- With no flag set the machine is found again. -/
theorem service_transparent_iff_none : Transparent 3 (Cpu.interrupted false)
    (Cpu.interrupted false).next.next.next :=
  (service_transparent_iff (service_interrupted false)).mpr ⟨rfl, by decide,
    ⟨fun h7 => absurd h7 (by decide), fun hlt => absurd hlt (by decide)⟩⟩

/-- **The flags are lost**: a user program that is interrupted goes on in executive mode. -/
theorem service_loses_flags : ∃ t u v, Service 3 0o2000 (Cpu.interrupted true) t u v ∧
    (Cpu.interrupted true).flags.usr = true ∧ v.flags.usr = false ∧
    ¬ Transparent 3 (Cpu.interrupted true) v := by
  have husr : (Cpu.interrupted true).next.next.next.flags.usr = false := by decide +kernel
  refine ⟨_, _, _, service_interrupted true, rfl, husr, fun h => ?_⟩
  rw [h.flags] at husr
  cases husr

end KM10
