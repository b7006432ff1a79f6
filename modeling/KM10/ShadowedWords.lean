import KM10.Debugger.Commands

/-!
The memory words behind the accumulators.

An access to an address below 020 reaches an accumulator, so that the memory words there, which a
loader may have filled, are cut off.

* `shadowLogic`, `carries_ops_shadowed`: a handler neither reads nor writes them;
* `blind_debug`: nor do the commands of the debugger;
* `blind_typedPass`: nor does a round of the loop of `emulate`;
* `shadowed_unseen`: so no session at the terminal depends on them or changes them.
-/

namespace KM10

open StateExcept

/-! ### Handlers -/

section Handlers

variable (w : BitVec 18 → W36)

/-- A store into another word. -/
lemma setMem_shadowed {a : BitVec 18} (ha : ¬ a < 0o20) (v : W36) (s : Cpu) :
    (s.shadowed w).setMem v a = (s.setMem v a).shadowed w := by
  have hmem : (fun m => if m = a then v else if m < 0o20 then w m else s.memP m) =
      fun m => if m < 0o20 then w m else if m = a then v else s.memP m := by
    funext m
    by_cases hm : m = a
    · rw [if_pos hm, if_neg (hm ▸ ha), if_pos hm]
    · simp only [if_neg hm]
  exact congrArg (fun memP => { s with memP := memP }) hmem

/-- The logic of neither reading nor writing the words. -/
def shadowLogic : Logic where
  Φ m := Carries (Cpu.shadowed w) (Cpu.shadowed w) m
  span := 4
  full := True
  leaves := True
  stops := True
  span_pos := span_four_pos
  pure a := .pure a
  bind hm hf := hm.bind hf
  gets f hf := .gets fun s => hf.shadowed s w
  throw _ := .throw _
  stop _ := .modify fun _ => rfl
  checkGBPs _ := .bind (.gets fun _ => rfl) fun _ => .ite (.modify fun _ => rfl) (.pure _)
  checkPBPs _ := .bind (.gets fun _ => rfl) fun _ => .ite (.modify fun _ => rfl) (.pure _)
  modifyFlags _ _ := .modify fun _ => rfl
  acGetN h := by
    rw [acGetN, if_pos h]
    exact .gets fun _ => rfl
  acGetEA h := by
    rw [acGetEA, if_pos h]
    exact .gets fun _ => rfl
  acPutN v n h := by
    rw [acPutN, if_pos h]
    exact .modify fun _ => rfl
  acGetPlus _ := by
    simp only [acGetPlus, acGetN]
    exact .bind (.gets fun _ => rfl) fun _ => .ite (.gets fun _ => rfl) (.throw _)
  acPutPlus v k _ := by
    simp only [acPutPlus, acPutN]
    exact .bind (.gets fun _ => rfl) fun _ => .ite (.modify fun _ => rfl) (.throw _)
  peekMem h := .gets fun _ => if_neg h
  pokeMem v _ h := .modify fun s => setMem_shadowed w h v s
  putEaRH _ _ := .modify fun _ => rfl
  stepEa _ := .modify fun _ => rfl
  restoreFlags _ _ := .modify fun _ => rfl
  enterExecInInterrupt _ := by
    rw [enterExecInInterrupt]
    exact .bind (.gets fun _ => rfl) fun _ => .ite (.modify fun _ => rfl) (.pure _)
  clearUsrInInterrupt _ := by
    rw [clearUsrInInterrupt]
    exact .bind (.gets fun _ => rfl) fun _ => .ite (.modify fun _ => rfl) (.pure _)
  leaveInterrupt _ := .modify fun _ => rfl
  modifyDevices _ _ := .modify fun _ => rfl
  updateACBlock _ _ := .modify fun _ => rfl

instance : Fact (shadowLogic w).full := ⟨trivial⟩
instance : Fact (shadowLogic w).stops := ⟨trivial⟩

instance : Control (shadowLogic w) where
  setFetchPC _ := .modify fun _ => rfl
  setPc _ := .modify fun _ => rfl
  setPcOffset _ := .modify fun _ => rfl
  enterInterrupt := .modify fun _ => rfl
  clearFlags := .modify fun _ => rfl

/-- An update of something else. -/
lemma carries_modify_shadowed {u : Cpu → Cpu} (h : ∀ s : Cpu, u (s.shadowed w) = (u s).shadowed w) :
    Carries (Cpu.shadowed w) (Cpu.shadowed w) (modify u : Exec PUnit) := .modify h

/-- What the logic says of a computation. -/
lemma carries_of_shadowLogic {α : Type} (m : Exec α) [h : Holds (shadowLogic w) m] :
    Carries (Cpu.shadowed w) (Cpu.shadowed w) m := h.out

/-- **Every handler.** -/
lemma carries_ops_shadowed (op : ℕ) : Carries (Cpu.shadowed w) (Cpu.shadowed w) (ops op) :=
  (ops_holds_all (shadowLogic w) le_rfl trivial op).out

/-! ### Rounds of the loop -/

/-- The dispatch of the instruction in `iw`. -/
lemma carries_dispatch_shadowed : Carries (Cpu.shadowed w) (Cpu.shadowed w) dispatch :=
  .bind (carries_of_shadowLogic w _) fun iw => .bind (carries_of_shadowLogic w _) fun _ =>
    .bind (.modify fun _ => rfl) fun _ => carries_ops_shadowed w iw.op.toNat

/-- The end of an instruction. -/
lemma retire_shadowed (s : Cpu) (r : IResult) :
    (s.shadowed w).retire r = (s.retire r).shadowed w := by
  have hin : (s.shadowed w).inInterrupt = s.inInterrupt := rfl
  cases r with
  | iNormal =>
      rw [Cpu.retire, Cpu.retire, hin]
      split <;> rfl
  | iSkip =>
      rw [Cpu.retire, Cpu.retire, hin]
      split <;> rfl
  | _ => rfl

lemma carries_execute_shadowed (cycle : Cycle) :
    Carries (Cpu.shadowed w) (Cpu.shadowed w) (execute cycle) := by
  have hcount : Carries (Cpu.shadowed w) (Cpu.shadowed w) countStep := .modify fun s => by
    change (if 0 < s.nSteps then _ else _) = Cpu.shadowed w (if 0 < s.nSteps then _ else _)
    split <;> rfl
  exact .bind hcount fun _ => .bind (carries_dispatch_shadowed w) fun r =>
    .bind (.modify fun s => retire_shadowed w s r) fun _ => .pure _

/-- A breakpoint test. -/
lemma carries_checkBreakpoint_shadowed {table : Cpu → List ℕ}
    (h : ∀ s : Cpu, table (s.shadowed w) = table s) (a : ℕ) :
    Carries (Cpu.shadowed w) (Cpu.shadowed w) (checkBreakpoint table a) :=
  .bind (.gets h) fun _ => .ite (.modify fun _ => rfl) (.pure _)

/-- The test for a trap or an interrupt. -/
lemma carries_setUpCycle_shadowed :
    Carries (Cpu.shadowed w) (Cpu.shadowed w) setUpCycle := by
  have hgrant : Carries (Cpu.shadowed w) (Cpu.shadowed w) setUpInterruptCycleIfPending :=
    .bind (.gets fun _ => rfl) fun d => by
      cases d.pi.piState.setUpInterruptCycle d.table with
      | none => exact .pure _
      | some grant =>
          exact .bind (carries_modify_shadowed w fun _ => rfl) fun _ =>
            .bind (carries_modify_shadowed w fun _ => rfl) fun _ => .pure _
  refine .bind (.gets fun _ => rfl) fun flags => .bind (.gets fun _ => rfl) fun d => .ite ?_ ?_
  · exact .bind (carries_modify_shadowed w fun _ => rfl) fun _ =>
      .bind (carries_modify_shadowed w fun _ => rfl) fun _ => .pure _
  · exact .bind hgrant fun vec => .ite (.bind (carries_modify_shadowed w fun _ => rfl) fun _ =>
      .bind (carries_modify_shadowed w fun _ => rfl) fun _ => .pure _) (.pure _)

lemma carries_fetch_shadowed : Carries (Cpu.shadowed w) (Cpu.shadowed w) fetch :=
  .bind (.gets fun _ => rfl) fun _ => .bind (carries_of_shadowLogic w _) fun _ =>
    .bind (.modify fun _ => rfl) fun _ => carries_checkBreakpoint_shadowed w (fun _ => rfl) _

end Handlers

namespace Debugger

variable (w : BitVec 18 → W36)

/-! ### At the terminal -/

/-- The debugger of such a machine. -/
def shadowed (d : Debugger) : Debugger := d.withCpu (d.cpu.shadowed w)

/-- The commands of the debugger neither read nor write the words. -/
def Blind {α : Type} (m : Session α) : Prop := Carries (shadowed w) (shadowed w) m

variable {w}

lemma blind_onCpu {α : Type} {m : Exec α} (h : Carries (Cpu.shadowed w) (Cpu.shadowed w) m) :
    Blind w (onCpu m) where
  out := fun d => by
    have hrun := h.out d.cpu
    cases hm : m.run d.cpu with
    | ok p =>
        rw [hm] at hrun
        rw [run_onCpu_of_ok hm, run_onCpu_of_ok (d := d.shadowed w) hrun]
        rfl
    | error e =>
        rw [hm] at hrun
        rw [run_onCpu_of_error hm, run_onCpu_of_error (d := d.shadowed w) hrun]
        rfl

/-- A reading of the debugger of which only other parts are used. -/
lemma blind_read {α : Type} {k : Debugger → Session α} (hk : ∀ d, k (shadowed w d) = k d)
    (h : ∀ d, Blind w (k d)) : Blind w (gets id >>= k) where
  out := fun d => by
    rw [run_read, run_read, hk]
    exact (h d).out d

lemma blind_print (line : List Char) : Blind w (print line) := .modify fun _ => rfl

lemma blind_onArguments {α : Type} (arguments : Except StoError α) {k : α → Session Unit}
    (h : ∀ a, Blind w (k a)) : Blind w (onArguments arguments k) := by
  cases arguments with
  | ok a => exact h a
  | error e => exact .pure _

lemma blind_dumpAC (k : ℤ) : Blind w (dumpAC k) :=
  blind_read (fun _ => rfl) fun _ => .ite (blind_print _) (.throw _)

lemma blind_forM_dumpAC (ks : List ℕ) :
    Blind w (forM ks fun k : ℕ => dumpAC k : Session Unit) := by
  induction ks with
  | nil => exact .pure _
  | cons k ks ih =>
      rw [List.forM_cons]
      exact .bind (blind_dumpAC k) fun _ => ih

lemma blind_dumpWords (n : ℕ) (a : W36) : Blind w (dumpWords n a) := by
  induction n generalizing a with
  | zero => exact .pure _
  | succ n ih =>
      exact .bind (blind_onCpu (carries_of_shadowLogic w _)) fun _ =>
        blind_read (fun _ => rfl) fun _ => .bind (blind_print _) fun _ => ih _

lemma blind_handleBPCommand (table : BreakpointTable) (words : List (List Char)) :
    Blind w (handleBPCommand table words) := by
  rcases words with _ | ⟨_, _ | ⟨word, _⟩⟩
  · exact .pure _
  · exact .pure _
  · rw [handleBPCommand]
    split
    · cases table <;> exact .modify fun _ => rfl
    · cases W36.ofString word with
      | error e => exact blind_print _
      | ok v =>
          dsimp only
          split <;> cases table <;> exact .modify fun _ => rfl

lemma blind_ac (words : List (List Char)) : Blind w (ac words) := by
  have hput (v : W36) (n : ℕ) : Blind w (onCpu (acPutN v n)) := blind_onCpu (by
    rw [acPutN]
    exact .ite (.modify fun _ => rfl) (.throw _))
  rcases words with _ | ⟨_, _ | ⟨number, _ | ⟨v, _⟩⟩⟩
  · exact .bind (blind_forM_dumpAC _) fun _ => blind_print _
  · exact .bind (blind_forM_dumpAC _) fun _ => blind_print _
  · exact blind_onArguments _ fun n => .ite (blind_print _)
      (.bind (blind_dumpAC n) fun _ => blind_print _)
  · exact blind_onArguments _ fun n => .ite (blind_print _)
      (blind_onArguments _ fun v => hput v _)

lemma blind_mem (words : List (List Char)) : Blind w (mem words) :=
  blind_read (fun _ => rfl) fun _ => blind_onArguments _ fun _ =>
    .bind (blind_dumpWords _ _) fun _ => .bind (blind_print _) fun _ => .modify fun _ => rfl

lemma blind_mset (words : List (List Char)) : Blind w (mset words) := by
  refine blind_read (fun _ => rfl) fun d => ?_
  rcases words with _ | ⟨_, _ | ⟨address, _ | ⟨v, _⟩⟩⟩
  · exact blind_print _
  · exact blind_print _
  · exact blind_print _
  · exact blind_onArguments _ fun va =>
      .bind (blind_onCpu (carries_of_shadowLogic w (memPutN va.2 va.1))) fun _ =>
        .modify fun _ => rfl

/-- **Every command.** -/
lemma blind_runCommand (words : List (List Char)) (name : Option CommandName) :
    Blind w (runCommand words name) := by
  have hmodify {u : Debugger → Debugger} (action : DebugAction)
      (h : ∀ d, u (shadowed w d) = shadowed w (u d)) :
      Blind w (do modify u; return action : Session DebugAction) :=
    .bind (.modify h) fun _ => .pure _
  have hcommand {m : Session Unit} (h : Blind w m) :
      Blind w (do m; return .noop : Session DebugAction) := .bind h fun _ => .pure _
  cases name with
  | none => exact .pure _
  | some name =>
      cases name with
      | obp | gbp | pbp | bp => exact hcommand (blind_handleBPCommand _ words)
      | ac => exact hcommand (blind_ac words)
      | mem => exact hcommand (blind_mem words)
      | mset => exact hcommand (blind_mset words)
      | «show» | log | pchist | stats | help => exact .pure _
      | quit | restart | step | pc | «continue» | switch => exact hmodify _ fun _ => rfl

/-- **The lines that are typed.** -/
lemma blind_debug (lines : List (List Char)) : Blind w (debug lines) := by
  induction lines with
  | nil => exact .pure _
  | cons line lines ih =>
      have hline (line : List Char) : Blind w
          (modify fun d : Debugger => { d with prevLine := line } : Session PUnit) :=
        .modify fun _ => rfl
      refine .bind (blind_read (fun _ => rfl) fun d => .bind (hline _) fun _ => ?_)
        fun action => .ite ih (.pure _)
      split
      · exact .throw _
      · exact blind_runCommand _ _

/-- **A round** of the loop of `emulate`. -/
lemma blind_typedPass (lines : List (List Char)) : Blind w (typedPass lines) := by
  have hafter (cycle : Cycle) (action : DebugAction) :
      Carries (Cpu.shadowed w) (Cpu.shadowed w) (afterDebug cycle action) := by
    cases action with
    | step | run => exact carries_execute_shadowed w cycle
    | quit | restart => exact .pure _
    | pcChanged => exact .bind (carries_modify_shadowed w fun _ => rfl) fun _ => .pure _
    | noop => exact .throw _
  exact .bind (blind_onCpu (.modify fun _ => rfl)) fun _ =>
    .bind (blind_onCpu (.gets fun _ => rfl)) fun _ =>
    .bind (blind_onCpu (carries_checkBreakpoint_shadowed w (fun _ => rfl) _)) fun _ =>
    .bind (blind_onCpu (carries_setUpCycle_shadowed w)) fun cycle =>
    .bind (blind_onCpu (carries_fetch_shadowed w)) fun _ =>
    .bind (blind_onCpu (.gets fun _ => rfl)) fun _ =>
    .ite (blind_onCpu (carries_execute_shadowed w cycle))
      (.bind (blind_debug lines) fun action => blind_onCpu (hafter cycle action))

/-- **A session.** -/
lemma blind_typedSession (typed : List (List (List Char))) : Blind w (typedSession typed) := by
  induction typed with
  | nil => exact .pure _
  | cons lines typed ih =>
      exact .bind (blind_typedPass lines) fun _ => .bind ih fun _ => .pure _

end Debugger

open Debugger

/-- **The memory words behind the accumulators are out of reach.**  Whatever is typed at the
terminal, and whatever instructions, traps and interrupts are executed in between: a session with
other words there ends in the same way, with the same results, the same output and the same machine,
and with these words where they were. -/
theorem shadowed_unseen (typed : List (List (List Char))) (w : BitVec 18 → W36) (d : Debugger) :
    (typedSession typed).run (d.shadowed w) =
      ((typedSession typed).run d).map fun p => (p.1, p.2.shadowed w) :=
  (blind_typedSession typed).out d

end KM10
