import KM10.Debugger.Looking
import KM10.Debugger.Sessions
import KM10.Text.Disassembly

/-!
The command line of the debugger (`Debugger::debug` and `dump` of `debugger.cpp`).

* `Debugger.getWords`, `CommandName.ofWord`, `Debugger.runCommand`: a line, its command and what
  that does;
* `Debugger.debug`: lines are read until one of them leaves the debugger;
* `Debugger.typedPass`: a round of the loop of `emulate` in which lines are typed;
* `Debugger.Spells`: the lines look, and the last of them, or the line that an empty one repeats,
  leaves the debugger with a command;
* `Debugger.SpellsSession`, `typed_session`: a session typed with such lines is the session of its
  commands on the machine.
-/

namespace KM10

open Numerals StateExcept

/-! ### The debugger -/

/-- What the loop of `emulate` is told to do. -/
inductive DebugAction where
  | noop
  | step
  | run
  | quit
  | restart
  | pcChanged
deriving DecidableEq

/-- The debugger, the machine and what has been printed. -/
structure Debugger where
  cpu : Cpu
  restart : Bool
  prevLine : List Char
  lastAddr : W36
  symbols : SymbolTables
  out : List (List Char)

/-- The debugger as its constructor leaves it. -/
def Debugger.initial (cpu : Cpu) : Debugger where
  cpu := cpu
  restart := false
  prevLine := ['h', 'e', 'l', 'p']
  lastAddr := 0
  symbols := .empty
  out := []

/-- The commands of the debugger. -/
inductive CommandName where
  | quit
  | obp
  | gbp
  | pbp
  | ac
  | bp
  | mem
  | mset
  | restart
  | step
  | show
  | log
  | pc
  | pchist
  | continue
  | stats
  | switch
  | help
deriving DecidableEq

/-- `tolower` of every character. -/
def lowered (s : List Char) : List Char := s.map Char.toLower

/-- The names in front of the handlers. -/
def CommandName.ofWord (word : List Char) : Option CommandName :=
  let loweredCmd := String.ofList (lowered word)
  if loweredCmd = "quit" ∨ loweredCmd = "q" then some .quit
  else if loweredCmd = "obp" then some .obp
  else if loweredCmd = "gbp" then some .gbp
  else if loweredCmd = "pbp" then some .pbp
  else if loweredCmd = "ac" then some .ac
  else if loweredCmd = "bp" ∨ loweredCmd = "b" then some .bp
  else if loweredCmd = "mem" ∨ loweredCmd = "m" then some .mem
  else if loweredCmd = "mset" then some .mset
  else if loweredCmd = "restart" then some .restart
  else if loweredCmd = "step" ∨ loweredCmd = "s" then some .step
  else if loweredCmd = "show" then some .show
  else if loweredCmd = "log" ∨ loweredCmd = "l" then some .log
  else if loweredCmd = "pc" then some .pc
  else if loweredCmd = "pchist" then some .pchist
  else if loweredCmd = "continue" ∨ loweredCmd = "c" then some .continue
  else if loweredCmd = "stats" then some .stats
  else if loweredCmd = "switch" ∨ loweredCmd = "sw" then some .switch
  else if loweredCmd = "help" ∨ loweredCmd = "?" then some .help
  else none

/-- The breakpoint tables. -/
inductive BreakpointTable where
  | opBPs
  | addressGBPs
  | addressPBPs
  | executeBPs
deriving DecidableEq

namespace BreakpointTable

/-- The table of a machine. -/
def get : BreakpointTable → Cpu → List ℕ
  | .opBPs, s => s.opBPs
  | .addressGBPs, s => s.addressGBPs
  | .addressPBPs, s => s.addressPBPs
  | .executeBPs, s => s.executeBPs

/-- A store into it. -/
def set : BreakpointTable → List ℕ → Cpu → Cpu
  | .opBPs, bps, s => { s with opBPs := bps }
  | .addressGBPs, bps, s => { s with addressGBPs := bps }
  | .addressPBPs, bps, s => { s with addressPBPs := bps }
  | .executeBPs, bps, s => { s with executeBPs := bps }

end BreakpointTable

/-- `stoi(s, nullptr, 8)`. -/
def stoi (s : List Char) : Except StoError ℤ :=
  let (negative, s) := signed (s.dropWhile isSpace)
  let digits := s.takeWhile (IsNumeral 8)
  if digits = [] then .error .invalid_argument
  else
    let v : ℤ := if negative then -(value 8 digits) else value 8 digits
    if -2147483648 ≤ v ∧ v ≤ 2147483647 then .ok v else .error .out_of_range

/-- `ascii`: the characters from the left, seven bits each. -/
def W36.ascii (w : W36) : List Char :=
  [29, 22, 15, 8, 1].map fun k =>
    let ch := ((w >>> k) &&& 0o177).toNat
    if ch < 32 ∨ ch = 0o177 then '?' else Char.ofNat ch

/-- `dump`. -/
def SymbolTables.dump (t : SymbolTables) (iw pc : W36) (showCharForm : Bool) : List Char :=
  let label := match t.valueToSymbol pc with
    | some name => name.toList ++ [':']
    | none => [' ']
  iw.fmt36 ++ ' ' :: numeral 8 3 iw.op.toNat ++ ' ' :: numeral 8 2 iw.ac.toNat ++
    ' ' :: numeral 8 1 iw.i.toNat ++ ' ' :: numeral 8 2 iw.x.toNat ++
    ' ' :: numeral 8 6 iw.y.toNat ++ ' ' :: ' ' :: label.rightpad 10 ' ' ++ iw.disasm (some t) ++
    if showCharForm then
      ' ' :: ' ' :: '/' :: iw.sixbit ++ '/' :: ' ' :: ' ' :: Char.ofNat 39 ::
        (if iw.toNat < 0o400 ∧ 32 < iw.toNat then [Char.ofNat iw.toNat] else iw.ascii) ++
        [Char.ofNat 39]
    else []

namespace Debugger

/-! ### Commands -/

/-- A computation with the debugger. -/
abbrev Session := StateT Debugger (Except Fault)

/-- What is done to the machine. -/
def onCpu {α : Type} (m : Exec α) : Session α := fun d =>
  match m.run d.cpu with
  | .ok (a, s) => .ok (a, { d with cpu := s })
  | .error e => .error e

/-- A line of output. -/
def print (line : List Char) : Session Unit := modify fun d => { d with out := d.out ++ [line] }

/-- What follows the reading of the arguments; an exception ends the command. -/
def onArguments {α : Type} (arguments : Except StoError α) (k : α → Session Unit) : Session Unit :=
  match arguments with
  | .ok a => k a
  | .error _ => pure ()

/-- `dumpPrefix`. -/
def dumpPrefix : List Char := List.replicate 19 '>'

/-- `dumpAC`, which reads an array of sixteen words. -/
def dumpAC (k : ℤ) : Session Unit := do
  let d ← gets id
  if 0 ≤ k ∧ k < 16 then
    print (dumpPrefix ++ (numeral 8 1 k.toNat).leftpad 2 ' ' ++ ':' :: ' ' ::
      d.symbols.dump (d.cpu.acs (BitVec.ofInt 4 k)) (W36.ofInt k) true)
  else throw .undefined

/-- `handleBPCommand`: a number is read as a word, so that none is negative. -/
def handleBPCommand (table : BreakpointTable) (words : List (List Char)) : Session Unit :=
  match words with
  | _ :: word :: _ =>
      if word = ['c', 'l', 'e', 'a', 'r'] then
        modify fun d => { d with cpu := table.set [] d.cpu }
      else
        match W36.ofString word with
        | .ok w =>
            let a : ℤ := w.toNat
            if a < 0 then
              modify fun d => { d with
                cpu := table.set
                  ((table.get d.cpu).filter (· ≠ (BitVec.ofInt 32 (-a)).toNat)) d.cpu }
            else
              modify fun d => { d with
                cpu := table.set ((table.get d.cpu).insert (BitVec.ofInt 32 a).toNat) d.cpu }
        | .error _ => print "[No such breakpoint was found]".toList
  | _ => pure ()

/-- The command `ac`. -/
def ac (words : List (List Char)) : Session Unit :=
  match words with
  | _ :: number :: rest =>
      onArguments (stoi number) fun n =>
        if 0o20 < n then print "ERROR: AC number too large".toList
        else
          match rest with
          | v :: _ => onArguments (W36.ofString v) fun v =>
              onCpu (acPutN v (BitVec.ofInt 32 n).toNat)
          | [] => do
              dumpAC n
              print []
  | _ => do
      forM (List.range 0o20) fun k : ℕ => dumpAC k
      print []

/-- The number of words of the command `mem`, and the address of the first. -/
def memArguments (d : Debugger) (words : List (List Char)) : Except StoError (ℤ × W36) := do
  let n ← match words with
    | _ :: _ :: number :: _ => stoi number
    | _ => .ok 1
  let a ← match words with
    | _ :: address :: _ =>
        if lowered address = ['p', 'c'] then .ok d.cpu.pc
        else if lowered address = ['@'] then .ok (W36.ofNat d.cpu.iw.y.toNat)
        else W36.ofString address
    | _ => .ok d.lastAddr
  return (n, a)

/-- The loop of the command `mem`, with the address after the last word. -/
def dumpWords : ℕ → W36 → Session W36
  | 0, a => return a
  | n + 1, a => do
      let w ← onCpu (memGetN a)
      let d ← gets id
      print (dumpPrefix ++ a.fmtVMA ++ ':' :: ' ' :: d.symbols.dump w a true)
      dumpWords n (a + 1)

/-- The command `mem`, which makes itself the line that an empty one repeats. -/
def mem (words : List (List Char)) : Session Unit := do
  let d ← gets id
  onArguments (d.memArguments words) fun (n, a) => do
    let a ← dumpWords n.toNat a
    print []
    modify fun d => { d with lastAddr := a, prevLine := ['m'] }

/-- The address and the value of the command `mset`. -/
def msetArguments (d : Debugger) (address v : List Char) : Except StoError (W36 × W36) := do
  let a ← if address = ['p', 'c'] then .ok d.cpu.pc else W36.ofString address
  let v ← W36.ofString v
  return (a, v)

/-- The command `mset`. -/
def mset (words : List (List Char)) : Session Unit := do
  let d ← gets id
  match words with
  | _ :: address :: v :: _ => onArguments (d.msetArguments address v) fun (a, v) => do
      onCpu (memPutN v a)
      modify fun d => { d with lastAddr := a }
  | _ => print "Must specify both memory address and value to set it to.".toList

/-- The number of steps of the command `step`. -/
def stepCount (words : List (List Char)) : ℤ :=
  match words with
  | _ :: number :: _ =>
      match stoi number with
      | .ok n => n
      | .error _ => 1
  | _ => 1

/-- The word of the commands `pc` and `switch`, if one is given and can be read. -/
def wordArgument (words : List (List Char)) : Option W36 :=
  match words with
  | _ :: word :: _ => (W36.ofString word).toOption
  | _ => none

/-- The handlers of the commands.  The commands `show`, `log`, `pchist`, `stats` and `help` change
nothing here, since only what `mem` and `ac` print is kept. -/
def runCommand (words : List (List Char)) : Option CommandName → Session DebugAction
  | some .quit => do
      modify fun d => { d with cpu := { d.cpu with running := false }, restart := false }
      return .quit
  | some .obp => do handleBPCommand .opBPs words; return .noop
  | some .gbp => do handleBPCommand .addressGBPs words; return .noop
  | some .pbp => do handleBPCommand .addressPBPs words; return .noop
  | some .ac => do ac words; return .noop
  | some .bp => do handleBPCommand .executeBPs words; return .noop
  | some .mem => do mem words; return .noop
  | some .mset => do mset words; return .noop
  | some .restart => do
      modify fun d => { d with cpu := { d.cpu with running := false }, restart := true }
      return .restart
  | some .step => do
      modify fun d => { d with cpu := { d.cpu with nSteps := stepCount words, running := true } }
      return .step
  | some .pc => do
      modify fun d => { d with cpu := { d.cpu with pc := (wordArgument words).getD d.cpu.pc } }
      return .pcChanged
  | some .continue => do
      modify fun d => { d with cpu := { d.cpu with nSteps := 0, running := true } }
      return .run
  | some .switch => do
      modify fun d =>
        { d with cpu := { d.cpu with switches := (wordArgument words).getD d.cpu.switches } }
      return .pcChanged
  | some .show | some .log | some .pchist | some .stats | some .help | none => return .noop

/-! ### Lines -/

/-- The words of a line, with `@` as an abbreviation. -/
def getWords (line : List Char) : List (List Char) :=
  match (line.splitOnP isSpace).filter (· ≠ []) with
  | ['@'] :: rest => ['m'] :: ['@'] :: rest.take 1
  | words => words

/-- A line: an empty one repeats the line before it, and one of blanks has no first word. -/
def debugLine (line : List Char) : Session DebugAction := do
  let d ← gets id
  let line := if line = [] then d.prevLine else line
  modify fun d => { d with prevLine := line }
  match getWords line with
  | [] => throw .undefined
  | word :: words => runCommand (word :: words) (CommandName.ofWord word)

/-- `debug`: lines are read until one has an action; without one it waits for the next line. -/
def debug : List (List Char) → Session DebugAction
  | [] => return .noop
  | line :: lines => do
      let action ← debugLine line
      if action = .noop then debug lines else return action

/-- What the loop of `emulate` does with the action; without one the debugger still waits. -/
def afterDebug (cycle : Cycle) : DebugAction → Exec Outcome
  | .step | .run => execute cycle
  | .quit | .restart => return .leave
  | .pcChanged => refetch
  | .noop => throw .hang

/-- A round of the loop of `emulate`, in which these lines are typed if the debugger is entered. -/
def typedPass (lines : List (List Char)) : Session Outcome := do
  onCpu (modifyDevices Devices.handleSweep)
  let fetchPC ← onCpu (gets Cpu.fetchPC)
  onCpu (checkBreakpoint Cpu.executeBPs fetchPC.vma.toNat)
  let cycle ← onCpu setUpCycle
  onCpu fetch
  let running ← onCpu (gets Cpu.running)
  if running then onCpu (execute cycle)
  else do
    let action ← debug lines
    onCpu (afterDebug cycle action)

/-! ### Running the commands -/

variable {d d' : Debugger}

/-- The debugger with another machine. -/
def withCpu (d : Debugger) (s : Cpu) : Debugger := { d with cpu := s }

@[simp] lemma withCpu_cpu (d : Debugger) (s : Cpu) : (d.withCpu s).cpu = s := rfl
@[simp] lemma withCpu_self (d : Debugger) : d.withCpu d.cpu = d := rfl
@[simp] lemma withCpu_withCpu (d : Debugger) (s t : Cpu) :
    (d.withCpu s).withCpu t = d.withCpu t := rfl

lemma run_onCpu_of_ok {α : Type} {m : Exec α} {a : α} {s : Cpu} (h : m.run d.cpu = .ok (a, s)) :
    (onCpu m).run d = .ok (a, d.withCpu s) := by
  change onCpu m d = _
  rw [onCpu, h]
  rfl

lemma run_onCpu_of_error {α : Type} {m : Exec α} {e : Fault} (h : m.run d.cpu = .error e) :
    (onCpu m).run d = .error e := by
  change onCpu m d = _
  rw [onCpu, h]

lemma run_read {α : Type} (k : Debugger → Session α) (d : Debugger) :
    (gets id >>= k).run d = (k d).run d := rfl

/-- What a run leaves of the machine. -/
def machine {α : Type} (r : Except Fault (α × Debugger)) : Except Fault (α × Cpu) :=
  r.map fun p => (p.1, p.2.cpu)

/-- The machine is what the computation leaves. -/
lemma machine_run_onCpu {α : Type} (m : Exec α) (d : Debugger) :
    machine ((onCpu m).run d) = m.run d.cpu := by
  cases h : m.run d.cpu with
  | ok p => rw [run_onCpu_of_ok h]; rfl
  | error e => rw [run_onCpu_of_error h]; rfl

/-- **A round after its fetch**: the instruction is executed, or lines are read. -/
lemma run_typedPass (lines : List (List Char)) (d : Debugger) :
    (typedPass lines).run d =
      if d.cpu.fetched.running then (onCpu (execute d.cpu.cycle)).run (d.withCpu d.cpu.fetched)
      else (do let action ← debug lines; onCpu (afterDebug d.cpu.cycle action)).run
        (d.withCpu d.cpu.fetched) := by
  have hsweep : (modifyDevices Devices.handleSweep).run d.cpu = .ok ((), _) := rfl
  rw [typedPass, run_bind_of_ok (run_onCpu_of_ok hsweep),
    run_bind_of_ok (run_onCpu_of_ok (run_gets Cpu.fetchPC _)),
    run_bind_of_ok (run_onCpu_of_ok (run_checkBreakpoint _ _ _))]
  change (do
    let cycle ← onCpu setUpCycle
    onCpu fetch
    let running ← onCpu (gets Cpu.running)
    if running then onCpu (execute cycle)
    else do
      let action ← debug lines
      onCpu (afterDebug cycle action) : Session Outcome).run (d.withCpu d.cpu.swept) = _
  rw [run_bind_of_ok (run_onCpu_of_ok (run_setUpCycle _))]
  rw [run_bind_of_ok (run_onCpu_of_ok (run_fetch d.cpu)),
    run_bind_of_ok (run_onCpu_of_ok (run_gets Cpu.running _))]
  change (if d.cpu.fetched.running then _ else _ : Session Outcome).run
    (d.withCpu d.cpu.fetched) = _
  split <;> rfl

/-- The line at an address, as `mem` prints it. -/
def dumpLine (d : Debugger) (a : W36) : List Char :=
  dumpPrefix ++ a.fmtVMA ++ ':' :: ' ' :: d.symbols.dump (d.cpu.word a.rhu) a true

/-- A machine that stands still is not stopped by a breakpoint. -/
lemma hit_of_stopped {s : Cpu} (h : s.running = false) (bps : List ℕ) (a : ℕ) :
    s.hit bps a = s := by
  rw [Cpu.hit, h, Bool.false_and, ← h]

/-- The debugger with further lines of output. -/
def printed (d : Debugger) (lines : List (List Char)) : Debugger := { d with out := d.out ++ lines }

@[simp] lemma printed_cpu (lines : List (List Char)) : (d.printed lines).cpu = d.cpu := rfl
@[simp] lemma printed_prevLine (lines : List (List Char)) :
    (d.printed lines).prevLine = d.prevLine := rfl

@[simp] lemma printed_printed (lines lines' : List (List Char)) :
    (d.printed lines).printed lines' = d.printed (lines ++ lines') := by
  rw [printed, printed, printed, List.append_assoc]

@[simp] lemma dumpLine_printed (lines : List (List Char)) (a : W36) :
    (d.printed lines).dumpLine a = d.dumpLine a := rfl

lemma run_print (line : List Char) (d : Debugger) :
    (print line).run d = .ok ((), d.printed [line]) := rfl

lemma add_one_ofNat (a : W36) (n : ℕ) : a + 1 + .ofNat n = a + W36.ofNat (n + 1) := by
  rw [W36.ofNat, W36.ofNat, BitVec.ofNat_add, BitVec.add_assoc, BitVec.add_comm 1]
  rfl

/-- **The loop of `mem`** prints the words one after the other. -/
lemma run_dumpWords (n : ℕ) (a : W36) {d : Debugger} (hstopped : d.cpu.running = false) :
    (dumpWords n a).run d = .ok (a + .ofNat n,
      d.printed ((List.range n).map fun k => d.dumpLine (a + .ofNat k))) := by
  induction n generalizing a d with
  | zero =>
      change Except.ok (a, d) = _
      simp [W36.ofNat, printed]
  | succ n ih =>
      have hread : (memGetN a).run d.cpu = .ok (d.cpu.word a.rhu, d.cpu) := by
        rw [run_memGetN, hit_of_stopped hstopped]
      rw [dumpWords, run_bind_of_ok (run_onCpu_of_ok hread), withCpu_self,
        run_read, run_bind_of_ok (run_print _ d)]
      change (dumpWords n (a + 1)).run (d.printed [d.dumpLine a]) = _
      rw [ih (a + 1) (d := d.printed [d.dumpLine a]) hstopped, List.range_succ_eq_map,
        add_one_ofNat, List.map_cons, List.map_map]
      have hzero : a + W36.ofNat 0 = a := by simp [W36.ofNat]
      simp only [printed_printed, dumpLine_printed, add_one_ofNat, hzero]
      rfl

/-! ### Lines that only look -/

/-- The command only looks: it changes no word and no table and does not leave the debugger.  A
number of an accumulator that the array does not have is read nevertheless. -/
def Looks (words : List (List Char)) : Option CommandName → Prop
  | some .mem | some .show | some .log | some .pchist | some .stats | some .help | none => True
  | some .ac =>
      match words with
      | _ :: number :: rest => rest = [] ∧ ∀ n, stoi number = .ok n → 0 ≤ n ∧ n ≠ 0o20
      | _ => True
  | some .obp | some .gbp | some .pbp | some .bp => words.length ≤ 1
  | some .mset => words.length ≤ 2
  | some .quit | some .restart | some .step | some .pc | some .continue | some .switch => False

/-- A line with such a command. -/
def LookLine (line : List Char) : Prop :=
  ∃ word words, getWords line = word :: words ∧ Looks (word :: words) (CommandName.ofWord word)

/-- What such a line may change. -/
structure Looked (d d' : Debugger) : Prop where
  cpu : d'.cpu = d.cpu
  prevLine : d'.prevLine = d.prevLine ∨ d'.prevLine = ['m']

lemma Looked.refl (d : Debugger) : Looked d d := ⟨rfl, .inl rfl⟩

lemma looked_printed (d : Debugger) (lines : List (List Char)) : Looked d (d.printed lines) :=
  ⟨rfl, .inl rfl⟩

/-- `dumpAC` within the array. -/
lemma run_dumpAC {k : ℤ} (hk : 0 ≤ k ∧ k < 16) (d : Debugger) :
    ∃ line, (dumpAC k).run d = .ok ((), d.printed [line]) := by
  rw [dumpAC, run_read, if_pos hk]
  exact ⟨_, rfl⟩

/-- The accumulators are printed one after the other. -/
lemma run_forM_dumpAC (ks : List ℕ) (hks : ∀ k ∈ ks, k < 16) (d : Debugger) :
    ∃ lines, (forM ks fun k : ℕ => dumpAC k : Session Unit).run d = .ok ((), d.printed lines) := by
  induction ks generalizing d with
  | nil => exact ⟨[], by simp [printed]; rfl⟩
  | cons k ks ih =>
      have hk := hks k List.mem_cons_self
      have hint : (0 : ℤ) ≤ k ∧ (k : ℤ) < 16 := by omega
      obtain ⟨line, hline⟩ := run_dumpAC hint d
      obtain ⟨lines, hlines⟩ :=
        ih (fun j hj => hks j (List.mem_cons_of_mem _ hj)) (d.printed [line])
      rw [List.forM_cons, run_bind_of_ok hline, hlines]
      exact ⟨line :: lines, by simp [printed]⟩

/-- The debugger after the command `mem`: an empty line will go on with the next word. -/
def dumped (d : Debugger) (n : ℕ) (a : W36) : Debugger :=
  { d.printed (((List.range n).map fun k => d.dumpLine (a + .ofNat k)) ++ [[]]) with
    lastAddr := a + .ofNat n, prevLine := ['m'] }

lemma run_mem_of_ok {words : List (List Char)} {n : ℤ} {a : W36}
    (hargs : d.memArguments words = .ok (n, a)) (hstopped : d.cpu.running = false) :
    (mem words).run d = .ok ((), d.dumped n.toNat a) := by
  rw [mem, run_read, hargs]
  change (dumpWords n.toNat a >>= _).run d = _
  rw [run_bind_of_ok (run_dumpWords _ a hstopped), run_bind_of_ok (run_print _ _)]
  rw [printed_printed]
  rfl

lemma run_mem (words : List (List Char)) (hstopped : d.cpu.running = false) :
    ∃ d', (mem words).run d = .ok ((), d') ∧ Looked d d' := by
  cases hargs : d.memArguments words with
  | error e =>
      refine ⟨d, ?_, .refl d⟩
      rw [mem, run_read, hargs]
      rfl
  | ok p => exact ⟨_, run_mem_of_ok hargs hstopped, rfl, .inr rfl⟩

/-- The command `ac` without a value. -/
lemma run_ac_of_looks {words : List (List Char)} (h : Looks words (some .ac)) (d : Debugger) :
    ∃ lines, (ac words).run d = .ok ((), d.printed lines) := by
  have hall : ∃ lines, (do
      forM (List.range 0o20) fun k : ℕ => dumpAC k
      print [] : Session Unit).run d = .ok ((), d.printed lines) := by
    obtain ⟨lines, hlines⟩ := run_forM_dumpAC (List.range 0o20) (fun k => List.mem_range.mp) d
    rw [run_bind_of_ok hlines]
    exact ⟨lines ++ [[]], by rw [run_print, printed_printed]⟩
  match words with
  | [] => exact hall
  | [_] => exact hall
  | _ :: number :: rest =>
      obtain ⟨rfl, hnumber⟩ := h
      rw [ac]
      cases hn : stoi number with
      | error e => exact ⟨[], by simp [printed, onArguments]; rfl⟩
      | ok n =>
          obtain ⟨hnonneg, hne⟩ := hnumber n hn
          rw [onArguments]
          split
          case isTrue => exact ⟨_, rfl⟩
          case isFalse hle =>
            obtain ⟨line, hline⟩ := run_dumpAC (show 0 ≤ n ∧ n < 16 by omega) d
            change ∃ lines, (dumpAC n >>= fun _ => print []).run d = _
            rw [run_bind_of_ok hline]
            exact ⟨[line] ++ [[]], by rw [run_print, printed_printed]⟩

/-- **A command that only looks** leaves the machine as it is. -/
lemma run_of_looks {word : List Char} {words : List (List Char)} {name : Option CommandName}
    (h : Looks (word :: words) name) {d : Debugger} (hstopped : d.cpu.running = false) :
    ∃ d', (runCommand (word :: words) name).run d = .ok (.noop, d') ∧ Looked d d' := by
  cases name with
  | none => exact ⟨d, rfl, .refl d⟩
  | some name =>
      cases name with
      | mem =>
          obtain ⟨d', hrun, hlooked⟩ := run_mem (word :: words) hstopped
          exact ⟨d', by rw [runCommand, run_bind_of_ok hrun]; rfl, hlooked⟩
      | ac =>
          obtain ⟨lines, hrun⟩ := run_ac_of_looks h d
          exact ⟨_, by rw [runCommand, run_bind_of_ok hrun]; rfl, looked_printed d lines⟩
      | obp | gbp | pbp | bp =>
          have hnil : words = [] :=
            List.eq_nil_of_length_eq_zero (Nat.le_zero.mp (Nat.le_of_succ_le_succ h))
          subst hnil
          exact ⟨d, rfl, .refl d⟩
      | mset =>
          match words with
          | [] => exact ⟨_, rfl, looked_printed d _⟩
          | [_] => exact ⟨_, rfl, looked_printed d _⟩
      | «show» | log | pchist | stats | help => exact ⟨d, rfl, .refl d⟩
      | quit | restart | step | pc | «continue» | switch => exact h.elim

/-- The line that an empty one repeats after `mem` only looks. -/
lemma lookLine_m : LookLine ['m'] := ⟨['m'], [], by decide, trivial⟩

/-- The line that is executed: an empty one repeats the line before it. -/
def repeated (d : Debugger) (line : List Char) : List Char := if line = [] then d.prevLine else line

/-- A line is its command, with the line kept for an empty one. -/
lemma run_debugLine {line word : List Char} {words : List (List Char)}
    (h : getWords (d.repeated line) = word :: words) :
    (debugLine line).run d = (runCommand (word :: words) (CommandName.ofWord word)).run
      { d with prevLine := d.repeated line } := by
  change getWords (if line = [] then d.prevLine else line) = word :: words at h
  rw [debugLine, run_read]
  simp only [h]
  rfl

/-- **A line that only looks.** -/
lemma run_lookLine {line : List Char} {d : Debugger} (h : LookLine (d.repeated line))
    (hstopped : d.cpu.running = false) :
    ∃ d', (debugLine line).run d = .ok (.noop, d') ∧ d'.cpu = d.cpu ∧ LookLine d'.prevLine := by
  obtain ⟨word, words, hwords, hlooks⟩ := h
  obtain ⟨d', hrun, hcpu, hprev⟩ :=
    run_of_looks hlooks (d := { d with prevLine := d.repeated line }) hstopped
  refine ⟨d', (run_debugLine hwords).trans hrun, hcpu, ?_⟩
  rcases hprev with hprev | hprev <;> rw [hprev]
  · exact ⟨word, words, hwords, hlooks⟩
  · exact lookLine_m

/-- Lines that only look; the line before them does so too if the first is an empty one. -/
lemma run_lookLines {looks : List (List Char)} (hlooks : ∀ line ∈ looks, line ≠ [] → LookLine line)
    (rest : List (List Char)) {d : Debugger} (hfirst : looks.head? = some [] → LookLine d.prevLine)
    (hstopped : d.cpu.running = false) :
    ∃ d', (debug (looks ++ rest)).run d = (debug rest).run d' ∧ d'.cpu = d.cpu := by
  induction looks generalizing d with
  | nil => exact ⟨d, rfl, rfl⟩
  | cons line looks ih =>
      have hline : LookLine (d.repeated line) := by
        rw [repeated]
        split
        case isTrue h => exact hfirst (by rw [h]; rfl)
        case isFalse h => exact hlooks line List.mem_cons_self h
      obtain ⟨d₁, hrun, hcpu, hprev⟩ := run_lookLine hline hstopped
      obtain ⟨d', hrest, hcpu'⟩ := ih (fun l hl => hlooks l (List.mem_cons_of_mem _ hl))
        (fun _ => hprev) (hcpu ▸ hstopped)
      refine ⟨d', ?_, hcpu'.trans hcpu⟩
      rw [List.cons_append, debug, run_bind_of_ok hrun, if_pos rfl, hrest]

/-! ### Lines that leave the debugger -/

/-- How the user leaves the debugger by the command. -/
def leaves (words : List (List Char)) : Option CommandName → Option DebugCommand
  | some .quit => some .quit
  | some .restart => some .restart
  | some .step => some (.step (stepCount words))
  | some .pc => some (.pc (wordArgument words))
  | some .continue => some .continue
  | some .switch => some (.switch (wordArgument words))
  | _ => none

/-- **A command that leaves the debugger**, and what the loop of `emulate` does then. -/
lemma machine_of_leaves {words : List (List Char)} {name : Option CommandName}
    {command : DebugCommand} (h : leaves words name = some command) (cycle : Cycle)
    (d : Debugger) :
    ∃ action d', (runCommand words name).run d = .ok (action, d') ∧ action ≠ .noop ∧
      d'.prevLine = d.prevLine ∧
      (afterDebug cycle action).run d'.cpu = (KM10.debug cycle command).run d.cpu := by
  cases name with
  | none => cases h
  | some name =>
      cases name with
      | quit => cases h; exact ⟨.quit, _, rfl, by decide, rfl, rfl⟩
      | restart => cases h; exact ⟨.restart, _, rfl, by decide, rfl, rfl⟩
      | step => cases h; exact ⟨.step, _, rfl, by decide, rfl, rfl⟩
      | pc => cases h; exact ⟨.pcChanged, _, rfl, by decide, rfl, rfl⟩
      | «continue» => cases h; exact ⟨.run, _, rfl, by decide, rfl, rfl⟩
      | switch => cases h; exact ⟨.pcChanged, _, rfl, by decide, rfl, rfl⟩
      | _ => cases h

/-- What the user types when the debugger is entered: lines that only look, and the line with the
command, which is `last`.  An empty line at the beginning repeats the line `prev`, with which the
debugger was left before; that may be the command itself, if nothing else is typed. -/
structure Spells (prev : List Char) (lines : List (List Char)) (command : DebugCommand)
    (last : List Char) : Prop where
  looks : ∀ line ∈ lines.dropLast, line ≠ [] → LookLine line
  first : lines.dropLast.head? = some [] → LookLine prev
  ends : lines = [[]] ∧ last = prev ∨ lines.getLast? = some last ∧ last ≠ []
  leaves : ∃ word words, getWords last = word :: words ∧
    leaves (word :: words) (CommandName.ofWord word) = some command

/-- **The lines of a visit** to the debugger. -/
lemma run_debug_of_spells {lines : List (List Char)} {command : DebugCommand} {last : List Char}
    (h : Spells d.prevLine lines command last) (hstopped : d.cpu.running = false) (cycle : Cycle) :
    ∃ action d', (debug lines).run d = .ok (action, d') ∧ d'.prevLine = last ∧
      (afterDebug cycle action).run d'.cpu = (KM10.debug cycle command).run d.cpu := by
  obtain ⟨word, words, hwords, hleaves⟩ := h.leaves
  -- the lines before the last one, and that one as it is executed
  obtain ⟨looks, line, d₁, hlines, hlooks, hcpu, hrepeated⟩ : ∃ looks line d₁,
      lines = looks ++ [line] ∧ (debug lines).run d = (debug [line]).run d₁ ∧
        d₁.cpu = d.cpu ∧ d₁.repeated line = last := by
    rcases h.ends with ⟨hempty, hlast⟩ | ⟨hlast, hne⟩
    · exact ⟨[], [], d, hempty, by rw [hempty], rfl, hlast.symm⟩
    · have hlines := List.dropLast_append_getLast? last hlast
      obtain ⟨d₁, hrun, hcpu⟩ := run_lookLines h.looks [last] h.first hstopped
      rw [hlines] at hrun
      exact ⟨lines.dropLast, last, d₁, hlines.symm, hrun, hcpu, if_neg hne⟩
  obtain ⟨action, d', hcommand, hne, hprev, hafter⟩ :=
    machine_of_leaves hleaves cycle { d₁ with prevLine := d₁.repeated line }
  refine ⟨action, d', ?_, hprev.trans hrepeated, hafter.trans (congrArg _ hcpu)⟩
  rw [hlooks, debug, run_bind_of_ok ((run_debugLine (hrepeated.symm ▸ hwords)).trans hcommand),
    if_neg hne]
  rfl

/-- What is run on the machine leaves the line that an empty one repeats. -/
lemma prevLine_of_onCpu {α : Type} {m : Exec α} {a : α} (h : (onCpu m).run d = .ok (a, d')) :
    d'.prevLine = d.prevLine := by
  cases hm : m.run d.cpu with
  | error e => rw [run_onCpu_of_error hm] at h; cases h
  | ok p =>
      rw [run_onCpu_of_ok hm] at h
      cases h
      rfl

/-- A round in which the debugger is not entered. -/
lemma run_typedPass_of_running (hrunning : d.cpu.fetched.running = true)
    (lines : List (List Char)) (command : DebugCommand) :
    machine ((typedPass lines).run d) = (pass command).run d.cpu ∧
      ∀ {outcome d'}, (typedPass lines).run d = .ok (outcome, d') → d'.prevLine = d.prevLine := by
  rw [run_typedPass, run_pass, if_pos hrunning, if_pos hrunning]
  exact ⟨machine_run_onCpu _ _, prevLine_of_onCpu⟩

/-- A round in which lines are typed is one with the command. -/
lemma run_typedPass_of_spells (hstopped : d.cpu.fetched.running = false)
    {lines : List (List Char)} {command : DebugCommand} {last : List Char}
    (h : Spells d.prevLine lines command last) :
    machine ((typedPass lines).run d) = (pass command).run d.cpu ∧
      ∀ {outcome d'}, (typedPass lines).run d = .ok (outcome, d') → d'.prevLine = last := by
  obtain ⟨action, d₁, hrun, hlast, hafter⟩ :=
    run_debug_of_spells (d := d.withCpu d.cpu.fetched) h hstopped d.cpu.cycle
  rw [run_typedPass, run_pass, hstopped, if_neg Bool.false_ne_true, if_neg Bool.false_ne_true,
    run_bind_of_ok hrun]
  exact ⟨(machine_run_onCpu _ _).trans hafter, fun h => (prevLine_of_onCpu h).trans hlast⟩

/-- Rounds of the loop of `emulate`, each with the lines that are typed if the debugger is entered
in it. -/
def typedSession : List (List (List Char)) → Session (List Outcome)
  | [] => return []
  | lines :: rest => do
      let outcome ← typedPass lines
      let outcomes ← typedSession rest
      return outcome :: outcomes

/-- What the user types in a session from the machine `s`, after the line `prev`: in every round in
which the debugger is entered, lines that spell the command. -/
inductive SpellsSession : Cpu → List Char → List (List (List Char)) → List DebugCommand → Prop where
  | nil (s : Cpu) (prev : List Char) : SpellsSession s prev [] []
  | running {s : Cpu} {prev : List Char} {lines : List (List Char)} {command : DebugCommand}
      {typed : List (List (List Char))} {commands : List DebugCommand}
      (hrunning : s.fetched.running = true)
      (hrest : ∀ outcome t, (pass command).run s = .ok (outcome, t) →
        SpellsSession t prev typed commands) :
      SpellsSession s prev (lines :: typed) (command :: commands)
  | entered {s : Cpu} {prev last : List Char} {lines : List (List Char)} {command : DebugCommand}
      {typed : List (List (List Char))} {commands : List DebugCommand}
      (hstopped : s.fetched.running = false) (hspells : Spells prev lines command last)
      (hrest : ∀ outcome t, (pass command).run s = .ok (outcome, t) →
        SpellsSession t last typed commands) :
      SpellsSession s prev (lines :: typed) (command :: commands)

/-- A sequence is run on the machine if its parts are. -/
lemma machine_run_bind {α β : Type} {m : Session α} {k : α → Session β} {m' : Exec α}
    {k' : α → Exec β} (hm : machine (m.run d) = m'.run d.cpu)
    (hk : ∀ a d', m.run d = .ok (a, d') → m'.run d.cpu = .ok (a, d'.cpu) →
      machine ((k a).run d') = (k' a).run d'.cpu) :
    machine ((m >>= k).run d) = (m' >>= k').run d.cpu := by
  cases hrun : m.run d with
  | error e =>
      rw [hrun] at hm
      rw [StateT.run_bind, StateT.run_bind, ← hm, hrun]
      rfl
  | ok p =>
      rw [hrun] at hm
      rw [run_bind_of_ok hrun, run_bind_of_ok hm.symm]
      exact hk p.1 p.2 hrun hm.symm

/-- A round and the rest of a session. -/
lemma machine_run_typedSession {lines : List (List Char)} {typed : List (List (List Char))}
    {command : DebugCommand} {commands : List DebugCommand} {prev : List Char}
    (hround : machine ((typedPass lines).run d) = (pass command).run d.cpu ∧
      ∀ {outcome d'}, (typedPass lines).run d = .ok (outcome, d') → d'.prevLine = prev)
    (hrest : ∀ {outcome d'}, (pass command).run d.cpu = .ok (outcome, d'.cpu) →
      d'.prevLine = prev →
      machine ((typedSession typed).run d') = (session commands).run d'.cpu) :
    machine ((typedSession (lines :: typed)).run d) = (session (command :: commands)).run d.cpu :=
  machine_run_bind hround.1 fun _ _ hrun hpass =>
    machine_run_bind (hrest hpass (hround.2 hrun)) fun _ _ _ _ => rfl

end Debugger

open Debugger

/-- **What is typed is what the machine is told.**  In a session at the terminal the user may look
at words, accumulators, tables and the state as often as he likes before the line that leaves the
debugger, and an empty line repeats the line before it, also the one with which he left the
debugger the last time; to the machine it is the session of the commands of these lines. -/
theorem typed_session {d : Debugger} {typed : List (List (List Char))}
    {commands : List DebugCommand} (h : SpellsSession d.cpu d.prevLine typed commands) :
    machine ((typedSession typed).run d) = (session commands).run d.cpu := by
  generalize hs : d.cpu = s at h
  generalize hp : d.prevLine = prev at h
  induction h generalizing d with
  | nil => subst hs; rfl
  | running hrunning _ ih =>
      subst hs hp
      exact machine_run_typedSession (run_typedPass_of_running hrunning _ _)
        fun hpass hprev => ih _ _ hpass rfl hprev
  | entered hstopped hspells _ ih =>
      subst hs hp
      exact machine_run_typedSession (run_typedPass_of_spells hstopped hspells)
        fun hpass hprev => ih _ _ hpass rfl hprev

/-- Words are looked at and the instruction is stepped over, an empty line steps over the next one,
two more are stepped over, in the second of which nothing is typed, and an empty line steps over
another two. -/
theorem typed_session_step :
    machine ((typedSession [[[], "m 100 2".toList, [], "s".toList], [[]], ["s 2".toList], [],
        [[]]]).run (.initial .standing)) =
      (session [.step 1, .step 1, .step 2, .continue, .step 2]).run .standing := by
  have hlook : LookLine "m 100 2".toList :=
    ⟨['m'], [['1', '0', '0'], ['2']], by decide +kernel, trivial⟩
  have hhelp : LookLine ['h', 'e', 'l', 'p'] := ⟨['h', 'e', 'l', 'p'], [], by decide, trivial⟩
  have hs : ∃ word words, getWords ['s'] = word :: words ∧
      leaves (word :: words) (CommandName.ofWord word) = some (.step 1) :=
    ⟨['s'], [], by decide, by decide +kernel⟩
  have hs2 : ∃ word words, getWords "s 2".toList = word :: words ∧
      leaves (word :: words) (CommandName.ofWord word) = some (.step 2) :=
    ⟨['s'], [['2']], by decide +kernel, by decide +kernel⟩
  refine typed_session (d := .initial .standing) ?_
  refine @SpellsSession.entered _ _ ['s'] _ _ _ _ (by decide +kernel)
    ⟨?_, fun _ => hhelp, .inr ⟨rfl, by decide⟩, hs⟩ fun _ t ht => ?_
  · intro line hline hne
    have hcases : line = [] ∨ line = "m 100 2".toList ∨ line = [] := by simpa using hline
    obtain rfl | rfl | rfl := hcases
    · exact absurd rfl hne
    · exact hlook
    · exact absurd rfl hne
  rw [← final_of_run ht]
  refine .entered (by decide +kernel) ⟨by simp, by simp, .inl ⟨rfl, rfl⟩, hs⟩ fun _ t ht => ?_
  rw [← final_of_run ht]
  refine .entered (by decide +kernel) ⟨by simp, by simp, .inr ⟨rfl, by decide⟩, hs2⟩
    fun _ t ht => ?_
  rw [← final_of_run ht]
  refine .running (by decide +kernel) fun _ t ht => ?_
  rw [← final_of_run ht]
  exact .entered (by decide +kernel) ⟨by simp, by simp, .inl ⟨rfl, rfl⟩, hs2⟩
    fun _ t _ => .nil t _

end KM10
