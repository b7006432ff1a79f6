import KM10.Effects.Pass
import KM10.Effects.Relocate
import KM10.Library.Alike

/-!
The bits of the fetch address above its virtual address do not matter.

* `SamePlace s t`: the machines differ in those bits only;
* `respects_ops`, `respects_execute`: an instruction gives the same result from both, and again
  machines that differ so;
* `SamePlace.fetched`, `respects_pass`: and so does a pass.
-/

namespace KM10

open StateExcept

/-- The machines differ in the fetch address only, and there above the virtual address. -/
def SamePlace (s t : Cpu) : Prop :=
  ∃ p : W36, p.vma = s.fetchPC.vma ∧ t = { s with fetchPC := p }

lemma SamePlace.refl (s : Cpu) : SamePlace s s := ⟨s.fetchPC, rfl, rfl⟩

lemma SamePlace.symm {s t : Cpu} (h : SamePlace s t) : SamePlace t s := by
  obtain ⟨p, hp, rfl⟩ := h
  exact ⟨s.fetchPC, hp.symm, rfl⟩

/-! ### Instructions -/

/-- A handler that neither reads nor writes the fetch address and the step counter. -/
lemma respects_of_carries {α : Type} {m : Exec α}
    (h : ∀ f nSteps, Carries (Cpu.relocate f nSteps) (Cpu.relocate f nSteps) m) :
    Respects SamePlace SamePlace m := by
  refine .of_carries ?_
  rintro s _ ⟨p, hp, rfl⟩
  refine ⟨Cpu.relocate (fun _ => p) s.nSteps, Cpu.relocate (fun _ => p) s.nSteps, rfl, h _ _, ?_⟩
  intro a v hrun
  -- the change that changes nothing shows that the handler keeps both
  have hkeeps := (h (fun _ => s.fetchPC) s.nSteps).out s
  change m.run s = _ at hkeeps
  rw [hrun] at hkeeps
  have hv : v = v.relocate (fun _ => s.fetchPC) s.nSteps := congrArg Prod.snd (Except.ok.inj hkeeps)
  have hfetchPC : v.fetchPC = s.fetchPC := by rw [hv]; rfl
  have hnSteps : v.nSteps = s.nSteps := by rw [hv]; rfl
  refine ⟨p, by rw [hp, hfetchPC], ?_⟩
  rw [Cpu.relocate, hnSteps]

/-- A handler that chooses the fetch address itself. -/
lemma respects_of_carries_id {α : Type} {m : Exec α}
    (h : ∀ f nSteps, Carries (Cpu.relocate f nSteps) (Cpu.relocate id nSteps) m) :
    Respects SamePlace SamePlace m := by
  refine .of_carries ?_
  rintro s _ ⟨p, -, rfl⟩
  refine ⟨Cpu.relocate (fun _ => p) s.nSteps, Cpu.relocate id s.nSteps, rfl, h _ _, ?_⟩
  intro a v hrun
  have hkeeps := (h id s.nSteps).out s
  change m.run s = _ at hkeeps
  rw [hrun] at hkeeps
  have hv : v = v.relocate id s.nSteps := congrArg Prod.snd (Except.ok.inj hkeeps)
  rw [← hv]
  exact .refl v

/-- **Every handler.** -/
theorem respects_ops (op : ℕ) : Respects SamePlace SamePlace (ops op) := by
  cases hUUO : isUUO op with
  | false => exact respects_of_carries fun f nSteps => carries_ops f nSteps hUUO
  | true =>
      by_cases hJSYS : op = 0o104
      · rw [hJSYS, ops_JSYS]
        exact respects_of_carries fun f nSteps =>
          .bind (.modify fun _ => rfl) fun _ => .pure _
      · exact respects_of_carries_id fun f nSteps => carries_of_isUUO f nSteps hUUO hJSYS

/-- The advance sets the virtual address. -/
lemma SamePlace.advance {s t : Cpu} (h : SamePlace s t) (n : ℕ) :
    SamePlace (s.advance n) (t.advance n) := by
  obtain ⟨p, -, rfl⟩ := h
  refine ⟨_, ?_, rfl⟩
  rw [Cpu.advance, W36.vma_setVma, W36.vma_setVma]

/-- The end of an instruction, one case for each result. -/
lemma SamePlace.retire {s t : Cpu} (h : SamePlace s t) (r : IResult) :
    SamePlace (s.retire r) (t.retire r) := by
  obtain ⟨p, hp, rfl⟩ := h
  have hsame (u : Cpu) (hu : u.fetchPC = s.fetchPC) : SamePlace u { u with fetchPC := p } :=
    ⟨p, by rw [hp, hu], rfl⟩
  cases r with
  | iNormal =>
      rw [Cpu.retire, Cpu.retire, hp]
      split
      · exact .refl _
      · exact (hsame s rfl).advance 1
  | iSkip =>
      rw [Cpu.retire, Cpu.retire]
      split
      · exact (hsame { s with inInterrupt := false } rfl).advance 1
      · exact (hsame s rfl).advance 2
  | iJump => exact (hsame { s with inInterrupt := false, pc := s.ea } rfl).advance 0
  | iTrap => exact (hsame s rfl).advance 1
  | iMUUO => exact hsame { s with pcOffset := 1 } rfl
  | iLUUO => exact hsame { s with pcOffset := 1 } rfl
  | iXCT => exact .refl _
  | iHALT => exact (hsame { s with running := false } rfl).advance 0
  | iNoSuchDevice => exact (hsame s rfl).advance 1
  | iNYI => exact (hsame s rfl).advance 1

/-- The step counter and the run flag are the same in both. -/
lemma respects_countStep : Respects SamePlace SamePlace countStep := by
  refine .modify ?_
  rintro s _ ⟨p, hp, rfl⟩
  by_cases hpos : 0 < s.nSteps
  · rw [if_pos hpos, if_pos hpos]
    exact ⟨p, hp, rfl⟩
  · rw [if_neg hpos, if_neg hpos]
    exact ⟨p, hp, rfl⟩

/-- The dispatch of the instruction in `iw`. -/
lemma respects_dispatch : Respects SamePlace SamePlace dispatch := by
  have haccess {α : Type} (m : Exec α) [∀ f nSteps, Holds (relocateLogic f nSteps) m] :
      Respects SamePlace SamePlace m :=
    respects_of_carries fun f nSteps => carries_of_holds f nSteps m
  have hsetEa (w : W36) : Respects SamePlace SamePlace (setEa w) := by
    refine .modify ?_
    rintro s _ ⟨p, hp, rfl⟩
    exact ⟨p, hp, rfl⟩
  exact .bind (haccess _) fun iw => .bind (haccess _) fun ea => .bind (hsetEa _) fun _ =>
    respects_ops iw.op.toNat

/-- **An execution.** -/
theorem respects_execute (cycle : Cycle) : Respects SamePlace SamePlace (execute cycle) :=
  .bind respects_countStep fun _ => .bind respects_dispatch fun r =>
    .bind (.modify fun h => h.retire r) fun _ => .pure _

/-! ### Passes -/

/-- The virtual address has the address of the word in it. -/
lemma W36.rhu_eq_of_vma {p q : W36} (h : p.vma = q.vma) : p.rhu = q.rhu := by
  rw [W36.rhu_eq_vma, W36.rhu_eq_vma, h]

section Fetch

variable {s t : Cpu} (h : SamePlace s t)

include h

lemma SamePlace.swept : SamePlace s.swept t.swept := by
  obtain ⟨p, hp, rfl⟩ := h
  refine ⟨p, hp, ?_⟩
  rw [Cpu.swept, hp]
  rfl

lemma SamePlace.cycle : t.cycle = s.cycle := by
  obtain ⟨p, hp, heq⟩ := h.swept
  rw [Cpu.cycle, heq]
  rfl

lemma SamePlace.granted : SamePlace s.granted t.granted := by
  obtain ⟨p, hp, rfl⟩ := h
  refine ⟨p, by rw [hp, granted_fetchPC], ?_⟩
  cases hgrant : s.pi.piState.setUpInterruptCycle s.table with
  | none => simp only [Cpu.granted, hgrant]
  | some grant => simp only [Cpu.granted, hgrant]

/-- A trap or an interrupt chooses the fetch address itself. -/
lemma SamePlace.entered : SamePlace s.entered t.entered := by
  obtain ⟨q, hq, hgranted⟩ := h.granted
  obtain ⟨p, hp, ht⟩ := h
  have htrap : t.trapDue = s.trapDue := by rw [ht]; rfl
  have hvector : t.vector = s.vector := by rw [ht]; rfl
  have hflags : t.flags = s.flags := by rw [ht]
  rw [Cpu.entered, Cpu.entered, htrap, hvector, hflags, hgranted]
  split
  · rw [ht]
    exact .refl _
  · split
    · exact .refl _
    · exact ⟨q, hq, rfl⟩

lemma SamePlace.fetched : SamePlace s.fetched t.fetched := by
  obtain ⟨p, hp, heq⟩ := h.swept.entered
  have hword : t.fetchWord = s.fetchWord := by
    rw [Cpu.fetchWord, heq, Cpu.fetchWord]
    exact congrArg s.swept.entered.word (W36.rhu_eq_of_vma hp)
  refine ⟨p, hp, ?_⟩
  rw [Cpu.fetched, Cpu.fetched, heq, hword]
  simp only [Cpu.hit, hp]

end Fetch

/-- The ways out of the debugger. -/
lemma respects_debug (cycle : Cycle) (command : DebugCommand) :
    Respects SamePlace SamePlace (debug cycle command) := by
  have hresume (n : ℤ) : Respects SamePlace SamePlace (resume n) := by
    refine .modify ?_
    rintro s _ ⟨p, hp, rfl⟩
    exact ⟨p, hp, rfl⟩
  have hrefetch : Respects SamePlace SamePlace refetch := by
    refine .bind (.modify ?_) fun _ => .pure _
    rintro s _ ⟨p, hp, rfl⟩
    exact .refl _
  have hstop : Respects SamePlace SamePlace stop := by
    refine .modify ?_
    rintro s _ ⟨p, hp, rfl⟩
    exact ⟨p, hp, rfl⟩
  cases command with
  | step n => exact .bind (hresume n) fun _ => respects_execute cycle
  | «continue» => exact .bind (hresume 0) fun _ => respects_execute cycle
  | pc v =>
      refine .bind (.modify ?_) fun _ => hrefetch
      rintro s _ ⟨p, hp, rfl⟩
      exact ⟨p, hp, rfl⟩
  | switch v =>
      refine .bind (.modify ?_) fun _ => hrefetch
      rintro s _ ⟨p, hp, rfl⟩
      exact ⟨p, hp, rfl⟩
  | quit => exact .bind hstop fun _ => .pure _
  | restart => exact .bind hstop fun _ => .pure _

/-- **A pass.** -/
theorem respects_pass (command : DebugCommand) : Respects SamePlace SamePlace (pass command) where
  out := fun {s t} hst => by
    have hfetched := hst.fetched
    have hrunning : t.fetched.running = s.fetched.running := by
      obtain ⟨p, hp, heq⟩ := hfetched
      rw [heq]
    rw [run_pass, run_pass, hrunning, hst.cycle]
    split
    · exact (respects_execute s.cycle).out hfetched
    · exact (respects_debug s.cycle command).out hfetched

end KM10
