import KM10.Effects.Address
import KM10.Effects.UUOs
import KM10.Library.Trace

/-!
User programs cannot change the mode flags.

A user program runs outside of interrupts until an interrupt, a trap or an MUUO takes it
away.  The one handler that enters the interrupt state by itself is that of JSYS, which is
not implemented: it executes again for ever.

* `Confined`: the invariant: USR is set, and in the interrupt state the next instruction is
  JSYS;
* `confined_of_step`: one instruction keeps it, and keeps PUB set and UIO clear;
* `user_mode_confined`: so does a run.
-/

namespace KM10

open StateExcept

/-- The machine runs a user program outside of interrupts, or is stuck at JSYS. -/
structure Confined (s : Cpu) : Prop where
  usr : s.flags.usr = true
  atJSYS : s.inInterrupt = true → (s.word s.fetchPC.rhu).op = 0o104

/-- A change of the machine cannot loosen the modes of a user program. -/
structure KeepsConfinement (s t : Cpu) : Prop where
  usr : t.flags.usr = true
  pub : s.flags.pub = true → t.flags.pub = true
  uio : s.flags.uio = false → t.flags.uio = false

/-- The same flags are as strict. -/
lemma KeepsConfinement.of_flags {s t : Cpu} (hs : s.flags.usr = true) (h : t.flags = s.flags) :
    KeepsConfinement s t := by
  constructor
  · rw [h]
    exact hs
  · rw [h]
    exact id
  · rw [h]
    exact id

/-- What is tame is as strict outside of interrupts. -/
lemma KeepsConfinement.of_tame {s t : Cpu} (hs : s.flags.usr = true)
    (hin : s.inInterrupt = false) (h : Tame s t) : KeepsConfinement s t where
  usr := h.usr hs hin
  pub hpub := h.pub hpub hin
  uio huio := h.uio hs hin huio

/-- The end of an instruction does not concern the flags. -/
lemma KeepsConfinement.retire {s t : Cpu} (h : KeepsConfinement s t) (r : IResult) :
    KeepsConfinement s (t.retire r) := by
  obtain ⟨usr, pub, uio⟩ := h
  rw [← retire_flags t r] at usr pub uio
  exact ⟨usr, pub, uio⟩

/-! ### One instruction -/

/-- A handler other than that of an MUUO keeps a user program confined.  In the interrupt
state the instruction can only be JSYS. -/
lemma confined_of_ops {u v : Cpu} {r : IResult} (hu : Confined u)
    (hiw : u.iw = u.word u.fetchPC.rhu) (hMUUO : u.executesMUUO u.iw.op.toNat = false)
    (h : (ops u.iw.op.toNat).run u = .ok (r, v)) :
    Confined (v.retire r) ∧ KeepsConfinement u (v.retire r) := by
  have hin (hop : u.iw.op.toNat ≠ 0o104) : u.inInterrupt = false := by
    cases hin : u.inInterrupt with
    | false => rfl
    | true =>
        have hJSYS := hu.atJSYS hin
        rw [← hiw] at hJSYS
        exact absurd (congrArg BitVec.toNat hJSYS) hop
  have hconfined (hv : v.inInterrupt = false) (hkeeps : KeepsConfinement u v) :
      Confined (v.retire r) ∧ KeepsConfinement u (v.retire r) := by
    refine ⟨⟨(hkeeps.retire r).usr, fun htrue => ?_⟩, hkeeps.retire r⟩
    rw [inInterrupt_of_retire htrue] at hv
    cases hv
  rw [Cpu.executesMUUO, Bool.or_eq_false_iff, Bool.and_eq_false_iff] at hMUUO
  cases hUUO : isUUO u.iw.op.toNat with
  | false =>
      have hne : u.iw.op.toNat ≠ 0o104 := fun heq => by
        rw [heq] at hUUO
        exact absurd hUUO (by decide)
      have htame := ops_tame hUUO h
      exact hconfined (htame.inInterrupt_false (hin hne)) (.of_tame hu.usr (hin hne) htame)
  | true =>
      rcases cases_of_isUUO hUUO with hop | hop | hop
      · rw [hMUUO.1] at hop
        cases hop
      · have hne : u.iw.op.toNat ≠ 0o104 := fun heq => by
          rw [heq] at hop
          exact absurd hop (by decide)
        rw [ops_LUUO hop] at h
        have hsaves := saves_of_doLUUO (by rw [hu.usr, Bool.or_true]) h
        exact hconfined (hsaves.inInterrupt.trans (hin hne)) (.of_flags hu.usr hsaves.flags)
      · rw [hop, ops_JSYS, run_doJSYS] at h
        cases h
        refine ⟨⟨hu.usr, fun _ => ?_⟩, .of_flags hu.usr rfl⟩
        change (u.word u.fetchPC.rhu).op = 0o104
        rw [← hiw]
        exact BitVec.eq_of_toNat_eq hop

/-- **One instruction** in a normal cycle, other than an MUUO, keeps a user program
confined. -/
theorem confined_of_step {s t : Cpu} {label : Cycle × IResult} (hs : Confined s)
    (h : Step s label t) (hcycle : label.1 = .normal)
    (hMUUO : s.executesMUUO s.fetchWord.op.toNat = false) :
    Confined t ∧ KeepsConfinement s t := by
  obtain ⟨hnormal, last, running, nSteps, v, -, hop, rfl⟩ := exists_of_step h
  have hnormal : s.cycle = .normal := hnormal.symm.trans hcycle
  let u := s.dispatched last running nSteps
  have hflags : u.flags = s.flags := dispatched_flags s last running nSteps
  have hpc : u.pc = s.pc := dispatched_pc s last running nSteps
  have hin : u.inInterrupt = s.inInterrupt := fetched_inInterrupt_of_normal hnormal
  have hfetchPC : u.fetchPC = s.fetchPC := fetched_fetchPC_of_normal hnormal
  have hword : u.word = s.word := fetched_word_of_normal hnormal
  have hu : Confined u := by
    refine ⟨hflags ▸ hs.usr, ?_⟩
    rw [hin, hword, hfetchPC]
    exact hs.atJSYS
  have hiw : u.iw = u.word u.fetchPC.rhu := by
    rw [hword, hfetchPC]
    exact fetchWord_of_normal hnormal
  have hMUUO' : u.executesMUUO s.fetchWord.op.toNat = false := by
    rw [Cpu.executesMUUO, hpc, hflags]
    exact hMUUO
  obtain ⟨hconfined, usr, pub, uio⟩ := confined_of_ops hu hiw hMUUO' hop
  rw [hflags] at pub uio
  exact ⟨hconfined, usr, pub, uio⟩

/-! ### A run -/

/-- **User programs are confined**: from a state with USR set outside of interrupts, in every
run without interrupt and trap cycles and without MUUOs, USR stays set, PUB is never cleared
and UIO is never set. -/
theorem user_mode_confined {s : Cpu} (husr : s.flags.usr = true) (hin : s.inInterrupt = false)
    {steps : List (TraceStep Cpu (Cycle × IResult))} (h : Trace Step s steps)
    (hsteps : ∀ x ∈ steps, x.label.1 = .normal ∧
      x.pre.executesMUUO x.pre.fetchWord.op.toNat = false) :
    ∀ x ∈ steps, x.post.flags.usr = true ∧
      (x.pre.flags.pub = true → x.post.flags.pub = true) ∧
      (x.pre.flags.uio = false → x.post.flags.uio = false) := by
  have hs : Confined s := ⟨husr, fun htrue => by rw [hin] at htrue; cases htrue⟩
  have hall := h.invariant (I := Confined)
    (C := fun x => x.label.1 = .normal ∧ x.pre.executesMUUO x.pre.fetchWord.op.toNat = false)
    (Q := fun x => KeepsConfinement x.pre x.post)
    (fun hs hstep hx => confined_of_step hs hstep hx.1 hx.2) hs hsteps
  intro x hx
  obtain ⟨-, -, usr, pub, uio⟩ := hall x hx
  exact ⟨usr, pub, uio⟩

/-- A user program in public mode that is about to execute JRST 2,0, a return that restores
the flags of a word with no flag set. -/
def Cpu.userJRSTF : Cpu :=
  { Cpu.initial with
    running := true
    flags := { ProgramFlags.none with usr := true, pub := true }
    memP := fun _ => W36.assemble 0o254 0o02 false 0 0
    pc := 0o1000
    fetchPC := 0o1000 }

/-- The return leaves the program in user and public mode. -/
theorem user_mode_confined_userJRSTF :
    ∃ t, Step Cpu.userJRSTF (.normal, .iJump) t ∧ t.flags.usr = true ∧ t.flags.pub = true := by
  obtain ⟨t, ht⟩ : ∃ t, (pass .quit).run Cpu.userJRSTF = .ok (.executed .normal .iJump, t) :=
    exists_of_returned (by decide +kernel)
  have hstep : Step Cpu.userJRSTF (.normal, .iJump) t := ⟨.quit, ht⟩
  have hMUUO : Cpu.userJRSTF.executesMUUO Cpu.userJRSTF.fetchWord.op.toNat = false := by
    decide +kernel
  have hconfined := user_mode_confined rfl rfl (.cons hstep (.nil t))
    (List.forall_mem_singleton.mpr ⟨rfl, hMUUO⟩) _ List.mem_cons_self
  exact ⟨t, hstep, hconfined.1, hconfined.2.1 rfl⟩

end KM10
