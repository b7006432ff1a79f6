import KM10.Reference.Handlers
import KM10.StackUse

/-!
The code refines the reference machine.

* `Cpu.AtInstruction`: the machine stands in front of an instruction of a program of section 0;
* `ReferencePass`: a pass over an instruction of the reference machine;
* `reference_step`, `exists_step_iff`: every such pass is a step of the reference machine, and
  there is one wherever the reference machine has a step;
* `refines_reference`: the same for runs.
-/

namespace KM10

open StateExcept

/-! ### Steps -/

/-- The machine stands in front of an instruction of a program of section 0. -/
structure Cpu.AtInstruction (s : Cpu) : Prop where
  inInterrupt : s.inInterrupt = false
  pc : s.pc.isSection0 = true
  fetch : s.fetchPC.vma = s.pc.vma

/-- A pass over an instruction that the reference machine has too, without a trap or an interrupt,
behind which the PC is in section 0. -/
structure ReferencePass (x : PassStep) : Prop where
  cycle : x.label.1 = .normal
  decoded : (Operation.ofWord x.pre.fetchWord).isSome = true
  next : x.post.pc.isSection0 = true

section Steps

variable {s : Cpu}

/-- The word that is fetched is the one at the PC. -/
lemma fetchWord_eq_instruction (hs : s.AtInstruction) (hcycle : s.cycle = .normal) :
    s.fetchWord = s.reference.instruction := by
  rw [fetchWord_of_normal hcycle, W36.rhu_eq_vma, hs.fetch, ← W36.rhu_eq_vma]
  rfl

/-- The devices change by the tick of the sweep timer alone. -/
lemma fetched_toDevices_of_normal (hcycle : s.cycle = .normal) :
    s.fetched.toDevices = s.toDevices.handleSweep := by
  change s.swept.entered.toDevices = _
  rw [entered_of_normal hcycle, granted_of_vector (vector_of_normal hcycle)]
  rfl

/-- The machine on which the handler runs shows the reference machine. -/
lemma reference_dispatched (hcycle : s.cycle = .normal) (last : W36) (running : Bool)
    (nSteps : ℤ) : (s.dispatched last running nSteps).reference = s.reference := by
  have hword : (s.dispatched last running nSteps).word = s.word := fetched_word_of_normal hcycle
  rw [Cpu.reference, hword, dispatched_pc]
  rfl

/-- The last link is the one of the effective address. -/
lemma address_fetched (hcycle : s.cycle = .normal) {w : W36} {e : BitVec 18} :
    s.reference.Address w e ↔
      ∃ last, LastLink s.fetched w last ∧ (W36.ofNat (s.fetched.linkAddress last)).rhu = e := by
  have hfetched : s.fetched.reference = s.reference := by
    rw [Cpu.reference, fetched_word_of_normal hcycle, fetched_pc]
    rfl
  rw [← hfetched, address_iff]

end Steps

/-- **Every step** over an instruction of the reference machine is a step of it, and leaves the
devices alone but for the sweep timer. -/
theorem reference_step {x : PassStep} (hs : x.pre.AtInstruction) (h : Step x.pre x.label x.post)
    (hx : ReferencePass x) :
    x.pre.reference.Step x.pre.fetchWord x.post.reference ∧ x.post.AtInstruction ∧
      x.post.toDevices = x.pre.toDevices.handleSweep := by
  obtain ⟨hlabel, last, running, nSteps, v, hlast, hop, hpost⟩ := exists_of_step h
  have hcycle : x.pre.cycle = .normal := hlabel.symm.trans hx.cycle
  let u := x.pre.dispatched last running nSteps
  have hin : u.inInterrupt = false :=
    (fetched_inInterrupt_of_normal hcycle).trans hs.inInterrupt
  have hpc : u.pc.isSection0 = true := by
    rw [dispatched_pc]
    exact hs.pc
  obtain ⟨o, ho⟩ := Option.isSome_iff_exists.mp hx.decoded
  obtain ⟨left, r, w, hrun, hfollows⟩ := exists_follows hin hpc (o := o) ho
  have heq := Except.ok.inj (hop.symm.trans hrun)
  rw [Prod.mk.injEq] at heq
  obtain ⟨hr, rfl⟩ := heq
  rw [hr] at hpost
  have hreference : x.post.reference = u.reference.execute u.iw.ac u.ea.rhu left o := by
    rw [hpost, Cpu.reference, retire_word, hfollows.word, hfollows.pc]
  refine ⟨⟨fetchWord_eq_instruction hs hcycle, o, u.ea.rhu, left, ho, ?_, ?_⟩,
    ⟨?_, hx.next, ?_⟩, ?_⟩
  · exact (address_fetched hcycle).mpr ⟨last, hlast, rfl⟩
  · rw [hreference, reference_dispatched hcycle]
    rfl
  · rw [hpost, hfollows.inInterrupt]
  · rw [hpost, hfollows.fetch]
  · rw [hpost, retire_toDevices, hfollows.devices]
    exact fetched_toDevices_of_normal hcycle

/-- **There is a step** wherever the reference machine has one. -/
theorem exists_step_iff {s : Cpu} (hs : s.AtInstruction) (hcycle : s.cycle = .normal)
    (hdecoded : (Operation.ofWord s.fetchWord).isSome = true) :
    (∃ label t, Step s label t) ↔ ∃ m, s.reference.Step s.fetchWord m := by
  obtain ⟨o, ho⟩ := Option.isSome_iff_exists.mp hdecoded
  constructor
  · rintro ⟨label, t, h⟩
    obtain ⟨-, last, -, -, -, hlast, -, -⟩ := exists_of_step h
    exact ⟨_, fetchWord_eq_instruction hs hcycle, o, _, 0, ho,
      (address_fetched hcycle).mpr ⟨last, hlast, rfl⟩, rfl⟩
  · rintro ⟨m, -, -, e, -, -, haddress, -⟩
    obtain ⟨last, hlast, -⟩ := (address_fetched hcycle).mp haddress
    refine exists_step hlast fun running nSteps => ?_
    have hin : (s.dispatched last running nSteps).inInterrupt = false :=
      (fetched_inInterrupt_of_normal hcycle).trans hs.inInterrupt
    have hpc : (s.dispatched last running nSteps).pc.isSection0 = true := by
      rw [dispatched_pc]
      exact hs.pc
    obtain ⟨left, r, v, hrun, -⟩ := exists_follows hin hpc (o := o) ho
    exact ⟨r, v, hrun⟩

/-! ### Runs -/

/-- **Refinement.**  A run of the code that stays in section 0, over instructions that the
reference machine has and without traps and interrupts, is a run of the reference machine; it leaves
the devices alone, but for the sweep timer; and at its end the code goes on over such an instruction
if and only if the reference machine does. -/
theorem refines_reference {s : Cpu} {steps : List PassStep} (h : Trace Step s steps)
    (hs : s.AtInstruction) (hsteps : ∀ x ∈ steps, ReferencePass x) :
    Trace Reference.Step s.reference
        (steps.map fun x => ⟨x.pre.reference, x.pre.fetchWord, x.post.reference⟩) ∧
      (Trace.final s steps).toDevices = Devices.handleSweep^[steps.length] s.toDevices ∧
      ((Trace.final s steps).cycle = .normal →
        (Operation.ofWord (Trace.final s steps).fetchWord).isSome = true →
        ((∃ label t, Step (Trace.final s steps) label t) ↔
          ∃ m, (Trace.final s steps).reference.Step (Trace.final s steps).fetchWord m)) := by
  have hstep {s t : Cpu} {label : Cycle × IResult} (hs : s.AtInstruction) (hst : Step s label t)
      (hx : ReferencePass ⟨s, label, t⟩) :
      t.AtInstruction ∧ s.reference.Step s.fetchWord t.reference := by
    obtain ⟨hstep, ht, -⟩ := reference_step (x := ⟨s, label, t⟩) hs hst hx
    exact ⟨ht, hstep⟩
  have hdevices {s t : Cpu} {label : Cycle × IResult} (hs : s.AtInstruction)
      (hst : Step s label t) (hx : ReferencePass ⟨s, label, t⟩) :
      t.AtInstruction ∧ t.toDevices = s.toDevices.handleSweep := by
    obtain ⟨-, ht, hdevices⟩ := reference_step (x := ⟨s, label, t⟩) hs hst hx
    exact ⟨ht, hdevices⟩
  obtain ⟨htrace, hend⟩ := Trace.map (g := fun x => x.pre.fetchWord) hstep h hs hsteps
  exact ⟨htrace, Trace.final_eq_iterate hdevices h hs hsteps, exists_step_iff hend⟩

/-- A call, a word saved over it and taken back, and the return. -/
theorem refines_reference_call :
    Trace Reference.Step Cpu.atCall.reference
      ([callPass, pushPass, popPass, popjPass].map
        fun x => ⟨x.pre.reference, x.pre.fetchWord, x.post.reference⟩) := by
  have hstart : Cpu.atCall.AtInstruction := ⟨rfl, by decide, rfl⟩
  refine (refines_reference trace_call hstart fun x hx => ?_).1
  simp only [List.mem_cons, List.not_mem_nil, or_false] at hx
  rcases hx with rfl | rfl | rfl | rfl
  · exact ⟨rfl, by decide +kernel, by decide +kernel⟩
  · exact ⟨rfl, by decide +kernel, by decide +kernel⟩
  · exact ⟨rfl, by decide +kernel, by decide +kernel⟩
  · exact ⟨rfl, by decide +kernel, by decide +kernel⟩

end KM10
