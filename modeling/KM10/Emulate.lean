import KM10.Instr.DWord
import KM10.Instr.IntBin
import KM10.Instr.Jump
import KM10.Instr.Test
import Mathlib.Data.List.Nodup

/-!
The dispatch table and the emulation loop (the constructor and `emulate` of `km10.cpp`).

* `ops`: the table that the constructor fills, first with `doMUUO` and then group by group;
* `Cpu.retire`: the `switch` on the result of a handler;
* `pass`: one round of the loop of `emulate`, up to its `continue` or its end;
* `Step`: a pass that executes an instruction.
-/

namespace KM10

open StateExcept (gets)

/-! ### The dispatch table -/

/-- `InstallUUOsGroup`, after the fill with `doMUUO`. -/
def installUUOsGroup : List (ℕ × Handler) :=
  (List.range' 0o001 0o37).map (fun op => (op, doLUUO)) ++ [(0o104, doJSYS)]

/-- `InstallIOGroup`. -/
def installIOGroup : List (ℕ × Handler) := (List.range' 0o700 0o100).map fun op => (op, doIO)

/-- The handlers that the constructor installs, in order. -/
def installs : List (ℕ × Handler) :=
  installUUOsGroup ++ installAOxSOxGroup ++ installByteGroup ++ installCmpAndGroup ++
    installDWordGroup ++ installHalfGroup ++ installIntBinGroup ++ installIOGroup ++
    installJumpGroup ++ installMoveGroup ++ installTstSetGroup

/-- An installed handler is that of one of the groups. -/
lemma mem_installs {e : ℕ × Handler} :
    e ∈ installs ↔ e ∈ installUUOsGroup ∨ e ∈ installAOxSOxGroup ∨ e ∈ installByteGroup ∨
      e ∈ installCmpAndGroup ∨ e ∈ installDWordGroup ∨ e ∈ installHalfGroup ∨
      e ∈ installIntBinGroup ∨ e ∈ installIOGroup ∨ e ∈ installJumpGroup ∨
      e ∈ installMoveGroup ∨ e ∈ installTstSetGroup := by
  simp only [installs, List.mem_append, or_assoc]

/-- `defOp`. -/
def defOp (ops : ℕ → Handler) (entry : ℕ × Handler) : ℕ → Handler :=
  fun op => if op = entry.1 then entry.2 else ops op

/-- The table `ops`. -/
def ops : ℕ → Handler := installs.foldl defOp fun _ => doMUUO

/-- The opcodes that no group installs execute as MUUOs. -/
def isMUUO (op : ℕ) : Bool := op ∉ installs.map Prod.fst

/-- Installing entries leaves every opcode with its old handler or with one of theirs, and
the old one only when none of them is for it. -/
lemma foldl_defOp (entries : List (ℕ × Handler)) (table : ℕ → Handler) (op : ℕ) :
    (op, entries.foldl defOp table op) ∈ entries ∨
      (op ∉ entries.map Prod.fst ∧ entries.foldl defOp table op = table op) := by
  induction entries generalizing table with
  | nil => exact .inr ⟨List.not_mem_nil, rfl⟩
  | cons entry entries ih =>
      rcases ih (defOp table entry) with h | ⟨hnot, h⟩
      · exact .inl (List.mem_cons_of_mem _ h)
      · rw [List.foldl_cons, h]
        by_cases hop : op = entry.1
        · refine .inl ?_
          rw [defOp, if_pos hop, hop]
          exact List.mem_cons_self
        · refine .inr ⟨?_, if_neg hop⟩
          rw [List.map_cons, List.mem_cons]
          exact fun h => h.elim hop hnot

/-- An opcode that some group installs has a handler of theirs. -/
lemma ops_mem_installs {op : ℕ} (h : isMUUO op = false) : (op, ops op) ∈ installs := by
  rcases foldl_defOp installs (fun _ => doMUUO) op with hmem | ⟨hnot, -⟩
  · exact hmem
  · simp [isMUUO] at h hnot
    obtain ⟨handler, hmem⟩ := h
    exact absurd hmem (hnot handler)

/-- An opcode that no group installs keeps `doMUUO`. -/
lemma ops_of_isMUUO {op : ℕ} (h : isMUUO op = true) : ops op = doMUUO := by
  rcases foldl_defOp installs (fun _ => doMUUO) op with hmem | ⟨-, hops⟩
  · have : op ∈ installs.map Prod.fst := List.mem_map_of_mem hmem
    simp_all [isMUUO]
  · exact hops

/-- No number occurs twice, nor one whose bit is set in `seen`. -/
def distinctFrom : ℕ → List ℕ → Bool
  | _, [] => true
  | seen, n :: ns => !seen.testBit n && distinctFrom (seen ||| 1 <<< n) ns

/-- By induction on the list; `seen` collects its numbers. -/
lemma nodup_of_distinctFrom (ns : List ℕ) (seen : ℕ) (h : distinctFrom seen ns = true) :
    ns.Nodup ∧ ∀ n ∈ ns, seen.testBit n = false := by
  induction ns generalizing seen with
  | nil => exact ⟨List.nodup_nil, fun n hn => absurd hn List.not_mem_nil⟩
  | cons m ns ih =>
      rw [distinctFrom, Bool.and_eq_true, Bool.not_eq_true'] at h
      obtain ⟨hnodup, hseen⟩ := ih _ h.2
      have hnew (n : ℕ) (hn : n ∈ ns) : seen.testBit n = false ∧ n ≠ m := by
        have hbit := hseen n hn
        rw [Nat.testBit_or, Bool.or_eq_false_iff] at hbit
        refine ⟨hbit.1, fun heq => ?_⟩
        rw [heq, Nat.shiftLeft_eq, Nat.one_mul, Nat.testBit_two_pow_self] at hbit
        exact Bool.noConfusion hbit.2
      refine ⟨List.nodup_cons.mpr ⟨fun hm => (hnew m hm).2 rfl, hnodup⟩, ?_⟩
      rw [List.forall_mem_cons]
      exact ⟨h.1, fun n hn => (hnew n hn).1⟩

/-- No opcode is installed twice. -/
lemma nodup_installs : (installs.map Prod.fst).Nodup :=
  (nodup_of_distinctFrom _ 0 (by decide +kernel)).1

/-- An installed opcode has the handler that is installed for it. -/
lemma ops_of_mem {op : ℕ} {h : Handler} (hmem : (op, h) ∈ installs) : ops op = h := by
  have hinstalled : isMUUO op = false := by
    rw [isMUUO, decide_eq_false_iff_not, not_not]
    exact List.mem_map_of_mem hmem
  have hfst : ((op, ops op) : ℕ × Handler).1 = ((op, h) : ℕ × Handler).1 := Eq.refl op
  have heq := List.inj_on_of_nodup_map nodup_installs (ops_mem_installs hinstalled) hmem hfst
  exact (Prod.mk.inj heq).2

/-! ### The end of an instruction -/

/-- `pc.vma = fetchPC.vma = pc.vma + pcOffset`, with this offset. -/
def Cpu.advance (s : Cpu) (pcOffset : ℕ) : Cpu :=
  let next := BitVec.ofNat 23 (s.pc.vma.toNat + pcOffset)
  { s with pcOffset := pcOffset, pc := s.pc.setVma next, fetchPC := s.fetchPC.setVma next }

/-- The advance adds its offset to the address. -/
lemma vma_advance (s : Cpu) (pcOffset : ℕ) :
    (s.advance pcOffset).pc.vma = s.pc.vma + BitVec.ofNat 23 pcOffset := by
  simp only [Cpu.advance, W36.vma_setVma, BitVec.ofNat_add, BitVec.ofNat_toNat,
    BitVec.setWidth_eq]

/-- The advance fetches next from the new address. -/
lemma fetch_vma_advance (s : Cpu) (pcOffset : ℕ) :
    (s.advance pcOffset).fetchPC.vma = s.pc.vma + BitVec.ofNat 23 pcOffset := by
  simp only [Cpu.advance, W36.vma_setVma, BitVec.ofNat_add, BitVec.ofNat_toNat,
    BitVec.setWidth_eq]

/-- The `switch` on the result of a handler, and the advance of the PC for the cases that
break out of it. -/
def Cpu.retire (s : Cpu) : IResult → Cpu
  | .iNormal =>
      if s.inInterrupt then
        -- fetch the second word of the vector
        { s with fetchPC := W36.ofNat (s.fetchPC.vma.toNat + 1), pcOffset := 0 }
      else s.advance 1
  | .iSkip => if s.inInterrupt then { s with inInterrupt := false }.advance 1 else s.advance 2
  | .iJump => { s with inInterrupt := false, pc := s.ea }.advance 0
  | .iTrap => s.advance 1
  | .iMUUO => { s with pcOffset := 1 }
  | .iLUUO => { s with pcOffset := 1 }
  | .iXCT => { s with fetchPC := s.ea }
  | .iHALT => { s with running := false }.advance 0
  | .iNoSuchDevice => s.advance 1
  | .iNYI => s.advance 1

/-- Outside of interrupts an instruction that completes advances by one. -/
lemma retire_iNormal {s : Cpu} (h : s.inInterrupt = false) : s.retire .iNormal = s.advance 1 := by
  rw [Cpu.retire, h]
  rfl

/-- Outside of interrupts a skip advances by two. -/
lemma retire_iSkip {s : Cpu} (h : s.inInterrupt = false) : s.retire .iSkip = s.advance 2 := by
  rw [Cpu.retire, h]
  rfl

/-- A jump goes to the effective address. -/
lemma vma_retire_iJump (s : Cpu) : (s.retire .iJump).pc.vma = s.ea.vma := by
  rw [Cpu.retire, vma_advance]
  exact BitVec.add_zero _

lemma fetch_vma_retire_iJump (s : Cpu) : (s.retire .iJump).fetchPC.vma = s.ea.vma := by
  rw [Cpu.retire, fetch_vma_advance]
  exact BitVec.add_zero _

@[simp] lemma retire_flags (s : Cpu) (r : IResult) : (s.retire r).flags = s.flags := by
  cases r <;> simp only [Cpu.retire] <;> (try split) <;> rfl

@[simp] lemma retire_toDevices (s : Cpu) (r : IResult) :
    (s.retire r).toDevices = s.toDevices := by
  cases r <;> simp only [Cpu.retire] <;> (try split) <;> rfl

@[simp] lemma retire_memP (s : Cpu) (r : IResult) : (s.retire r).memP = s.memP := by
  cases r <;> simp only [Cpu.retire] <;> (try split) <;> rfl

@[simp] lemma retire_ACBlocks (s : Cpu) (r : IResult) : (s.retire r).ACBlocks = s.ACBlocks := by
  cases r <;> simp only [Cpu.retire] <;> (try split) <;> rfl

@[simp] lemma retire_ea (s : Cpu) (r : IResult) : (s.retire r).ea = s.ea := by
  cases r <;> simp only [Cpu.retire] <;> (try split) <;> rfl

@[simp] lemma retire_AC (s : Cpu) (r : IResult) : (s.retire r).AC = s.AC := by
  cases r <;> simp only [Cpu.retire] <;> (try split) <;> rfl

@[simp] lemma retire_word (s : Cpu) (r : IResult) : (s.retire r).word = s.word := by
  cases r <;> simp only [Cpu.retire] <;> (try split) <;> rfl

/-- The end of an instruction may leave the interrupt state but does not enter it. -/
lemma inInterrupt_of_retire {s : Cpu} {r : IResult} (h : (s.retire r).inInterrupt = true) :
    s.inInterrupt = true := by
  cases r with
  | iNormal =>
      rw [Cpu.retire] at h
      split at h <;> assumption
  | iSkip =>
      rw [Cpu.retire] at h
      split at h
      · assumption
      · exact h
  | iJump => cases h
  | _ => exact h

/-! ### One pass -/

/-- The kind of cycle that a pass executes. -/
inductive Cycle where
  | normal
  | trap
  | interrupt
deriving DecidableEq

/-- The command with which the user leaves the debugger.  `pc` and `switch` do so with and
without a new value. -/
inductive DebugCommand where
  | step (n : ℤ)
  | continue
  | pc (v : Option W36)
  | switch (v : Option W36)
  | quit
  | restart
deriving DecidableEq

/-- What a pass did: execute an instruction, go back to the fetch, or leave the loop. -/
inductive Outcome where
  | executed (cycle : Cycle) (result : IResult)
  | refetch
  | leave
deriving DecidableEq

/-- The test for a trap or an interrupt before the fetch. -/
def setUpCycle : Exec Cycle := do
  let flags ← gets Cpu.flags
  let d ← gets Cpu.toDevices
  if (flags.tr1 || flags.tr2) && d.pag.pagerEnabled then do
    setFetchPC (eptAddressFor (if flags.tr1 then 0o421 else 0o422))
    setInInterrupt true
    return .trap
  else do
    let vec ← setUpInterruptCycleIfPending
    if vec ≠ 0 then do
      setFetchPC vec
      setInInterrupt true
      return .interrupt
    else return .normal

/-- The store `iw = w`. -/
def setIw (w : W36) : Exec Unit := modify fun s => { s with iw := w }

/-- The fetch, with the opcode breakpoints. -/
def fetch : Exec Unit := do
  let fetchPC ← gets Cpu.fetchPC
  let iw ← memGetN fetchPC
  setIw iw
  checkBreakpoint Cpu.opBPs iw.op.toNat

/-- `if (nSteps > 0) { if (--nSteps <= 0) running = false; }`. -/
def countStep : Exec Unit :=
  modify fun s =>
    if 0 < s.nSteps then { s with nSteps := s.nSteps - 1, running := s.running && 1 < s.nSteps }
    else s

/-- The handler that the table holds for the instruction in `iw`, after the calculation of
its effective address. -/
def dispatch : Exec IResult := do
  let iw ← gets Cpu.iw
  let ea ← getEA iw.i iw.x iw.y.toNat
  setEa (W36.ofNat ea)
  ops iw.op.toNat

/-- From the fetched instruction to the end of the pass. -/
def execute (cycle : Cycle) : Exec Outcome := do
  countStep
  let result ← dispatch
  modify fun s => s.retire result
  return .executed cycle result

/-- The store with which `continue` and `step n` leave the debugger. -/
def resume (n : ℤ) : Exec Unit := modify fun s => { s with nSteps := n, running := true }

/-- `fetchPC = pc`. -/
def refetch : Exec Outcome := do
  modify fun s => { s with fetchPC := s.pc }
  return .refetch

/-- What the loop does on the way out of the debugger. -/
def debug (cycle : Cycle) : DebugCommand → Exec Outcome
  | .step n => do
      resume n
      execute cycle
  | .continue => do
      resume 0
      execute cycle
  | .pc v => do
      modify fun s => { s with pc := v.getD s.pc }
      refetch
  | .switch v => do
      modify fun s => { s with switches := v.getD s.switches }
      refetch
  | .quit => do
      stop
      return .leave
  | .restart => do
      stop
      return .leave

/-- One round of the loop of `emulate`; `command` is how the user leaves the debugger if it
is entered. -/
def pass (command : DebugCommand) : Exec Outcome := do
  modifyDevices Devices.handleSweep
  let fetchPC ← gets Cpu.fetchPC
  checkBreakpoint Cpu.executeBPs fetchPC.vma.toNat
  let cycle ← setUpCycle
  fetch
  let running ← gets Cpu.running
  if running then execute cycle else debug cycle command

/-- One instruction of a run: a pass that executes it, whether or not the debugger is entered
on the way and resumes. -/
def Step (s : Cpu) (label : Cycle × IResult) (t : Cpu) : Prop :=
  ∃ command, (pass command).run s = .ok (.executed label.1 label.2, t)

/-- The machine after a pass without the debugger. -/
def Cpu.next (s : Cpu) : Cpu := StateExcept.final (pass .quit) s

/-- A pass that is known to execute an instruction is a step to it. -/
lemma step_next {s : Cpu} {label : Cycle × IResult}
    (h : StateExcept.observed (fun _ => ()) ((pass .quit).run s) =
      some (.executed label.1 label.2, ())) : Step s label s.next :=
  ⟨.quit, StateExcept.run_eq_of_returned h⟩

end KM10
