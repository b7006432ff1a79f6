import KM10.Debugger.Commands
import Mathlib.Data.Set.Basic

/-!
What the breakpoint commands leave in the tables (`handleBPCommand` of `debugger.cpp`).

* `BreakpointTable.typed`: what a line makes of a table;
* `Untabled`: no other command touches them;
* `breakpoints_typed`: the tables are what the lines have made of them, and the digits behind a
  minus sign remove nothing.
-/

namespace KM10

open Numerals StateExcept

/-! ### What a line makes of a table -/

/-- The table that a command is about. -/
def CommandName.table : CommandName → Option BreakpointTable
  | .obp => some .opBPs
  | .gbp => some .addressGBPs
  | .pbp => some .addressPBPs
  | .bp => some .executeBPs
  | _ => none

namespace BreakpointTable

@[simp] lemma get_set (table table' : BreakpointTable) (bps : List ℕ) (s : Cpu) :
    table'.get (table.set bps s) = if table = table' then bps else table'.get s := by
  cases table <;> cases table' <;> rfl

/-- The command is about the table. -/
def Concerns (table : BreakpointTable) (name : Option CommandName) : Prop :=
  name.bind CommandName.table = some table

instance decidableConcerns (table : BreakpointTable) (name : Option CommandName) :
    Decidable (table.Concerns name) := inferInstanceAs (Decidable (_ = _))

/-- The line clears the table. -/
def Clears (table : BreakpointTable) (line : List Char) : Prop :=
  ∃ word rest, Debugger.getWords line = word :: ['c', 'l', 'e', 'a', 'r'] :: rest ∧
    table.Concerns (CommandName.ofWord word)

/-- The line puts the number into the table, in 32 bits. -/
def Sets (table : BreakpointTable) (line : List Char) (n : ℕ) : Prop :=
  ∃ word number rest w, Debugger.getWords line = word :: number :: rest ∧
    table.Concerns (CommandName.ofWord word) ∧ W36.ofString number = .ok w ∧
      n = w.toNat % 2 ^ 32

/-- What the line makes of the table. -/
def typed (table : BreakpointTable) (ns : Set ℕ) (line : List Char) : Set ℕ :=
  {n | n ∈ ns ∧ ¬ table.Clears line ∨ table.Sets line n}

/-- The numbers in the table. -/
def numbers (table : BreakpointTable) (s : Cpu) : Set ℕ := {n | n ∈ table.get s}

/-- Typing a line again does not change the table. -/
lemma typed_typed (table : BreakpointTable) (ns : Set ℕ) (line : List Char) :
    table.typed (table.typed ns line) line = table.typed ns line := by
  ext n
  simp only [typed, Set.mem_ofPred_eq]
  constructor
  · rintro (⟨h, -⟩ | h)
    · exact h
    · exact .inr h
  · rintro (h | h)
    · exact .inl ⟨.inl h, h.2⟩
    · exact .inr h

lemma typed_nil (table : BreakpointTable) (ns : Set ℕ) : table.typed ns [] = ns := by
  have hwords : Debugger.getWords [] = [] := by decide
  ext n
  simp [typed, Clears, Sets, hwords]

/-- A line with another command. -/
lemma typed_of_not_concerns {table : BreakpointTable} {line word : List Char}
    {words : List (List Char)} (hwords : Debugger.getWords line = word :: words)
    (h : ¬ table.Concerns (CommandName.ofWord word)) (ns : Set ℕ) : table.typed ns line = ns := by
  have hword {word' : List Char} {words' : List (List Char)}
      (h' : Debugger.getWords line = word' :: words') : word' = word :=
    (List.cons.inj (h'.symm.trans hwords)).1
  ext n
  simp only [typed, Set.mem_ofPred_eq]
  constructor
  · rintro (⟨hn, -⟩ | ⟨word', _, _, _, hwords', hconcerns, -⟩)
    · exact hn
    · exact absurd (hword hwords' ▸ hconcerns) h
  · intro hn
    refine .inl ⟨hn, ?_⟩
    rintro ⟨word', _, hwords', hconcerns⟩
    exact h (hword hwords' ▸ hconcerns)

end BreakpointTable

namespace Debugger

/-! ### The other commands -/

/-- The tables are the same, and so is the line that an empty one repeats, unless it is that of
`mem`. -/
structure Untabled (d d' : Debugger) : Prop where
  numbers : ∀ table : BreakpointTable, table.numbers d'.cpu = table.numbers d.cpu
  prevLine : d'.prevLine = d.prevLine ∨ d'.prevLine = ['m']

instance untabled_refl : Std.Refl Untabled := ⟨fun _ => ⟨fun _ => rfl, .inl rfl⟩⟩

instance untabled_trans : IsTrans Debugger Untabled where
  trans _ _ _ h h' := ⟨fun table => (h'.numbers table).trans (h.numbers table), by
    rcases h'.prevLine with heq | heq
    · exact h.prevLine.imp heq.trans heq.trans
    · exact .inr heq⟩

/-- A change of something else. -/
lemma untabled_modify {u : Debugger → Debugger}
    (h : ∀ d table, BreakpointTable.get table (u d).cpu = table.get d.cpu)
    (hprev : ∀ d, (u d).prevLine = d.prevLine ∨ (u d).prevLine = ['m']) :
    Frames Untabled (modify u : Session PUnit) :=
  .modify _ fun d => ⟨fun table => by rw [BreakpointTable.numbers, h]; rfl, hprev d⟩

instance untabled_print (line : List Char) : Frames Untabled (print line) :=
  untabled_modify (fun _ _ => rfl) fun _ => .inl rfl

/-- The machine does not touch the tables. -/
lemma untabled_onCpu {α : Type} {m : Exec α}
    (h : ∀ {s a t}, m.run s = .ok (a, t) → ∀ table, BreakpointTable.get table t = table.get s) :
    Frames Untabled (onCpu m) where
  out := by
    intro d a d' hrun
    cases hm : m.run d.cpu with
    | error e => rw [run_onCpu_of_error hm] at hrun; cases hrun
    | ok p =>
        rw [run_onCpu_of_ok hm] at hrun
        cases hrun
        exact ⟨fun table => by
          rw [BreakpointTable.numbers, withCpu_cpu, h hm table]
          rfl, .inl rfl⟩

instance untabled_acPutN (v : W36) (n : ℕ) : Frames Untabled (onCpu (acPutN v n)) :=
  untabled_onCpu fun {s a t} h table => by
    rw [acPutN] at h
    split at h
    · cases h
      cases table <;> rfl
    · cases h

instance untabled_memGetN (a : W36) : Frames Untabled (onCpu (memGetN a)) :=
  untabled_onCpu fun {s v t} h table => by
    rw [run_memGetN] at h
    cases h
    cases table <;> rfl

instance untabled_memPutN (v a : W36) : Frames Untabled (onCpu (memPutN v a)) :=
  untabled_onCpu fun {s u t} h table => by
    rw [run_memPutN] at h
    cases h
    cases table <;> (simp only [BreakpointTable.get, Cpu.hit, Cpu.setWord]; split <;> rfl)

instance untabled_onArguments {α : Type} (arguments : Except StoError α) (k : α → Session Unit)
    [h : ∀ a, Frames Untabled (k a)] : Frames Untabled (onArguments arguments k) := by
  cases arguments with
  | ok a => exact h a
  | error e => exact Frames.pure _ _

instance untabled_dumpAC (k : ℤ) : Frames Untabled (dumpAC k) := by
  rw [dumpAC]
  infer_instance

instance untabled_dumpWords (n : ℕ) (a : W36) : Frames Untabled (dumpWords n a) := by
  induction n generalizing a with
  | zero => exact Frames.pure _ _
  | succ n ih =>
      rw [dumpWords]
      infer_instance

lemma untabled_forM (ks : List ℕ) :
    Frames Untabled (forM ks fun k : ℕ => dumpAC k : Session Unit) := by
  induction ks with
  | nil => exact Frames.pure _ _
  | cons k ks ih =>
      rw [List.forM_cons]
      infer_instance

instance untabled_ac (words : List (List Char)) : Frames Untabled (ac words) := by
  have hall := untabled_forM (List.range 0o20)
  match words with
  | [] => exact Frames.bind _ _ _
  | [_] => exact Frames.bind _ _ _
  | _ :: number :: [] =>
      rw [ac]
      have (n : ℤ) : Frames Untabled (do dumpAC n; print [] : Session Unit) := inferInstance
      infer_instance
  | _ :: number :: v :: _ => rw [ac]; infer_instance

instance untabled_mem (words : List (List Char)) : Frames Untabled (mem words) := by
  have (a : W36) : Frames Untabled
      (modify fun d => { d with lastAddr := a, prevLine := ['m'] } : Session PUnit) :=
    untabled_modify (fun _ _ => rfl) fun _ => .inr rfl
  rw [mem]
  infer_instance

instance untabled_mset (words : List (List Char)) : Frames Untabled (mset words) := by
  have (a : W36) : Frames Untabled (modify fun d => { d with lastAddr := a } : Session PUnit) :=
    untabled_modify (fun _ _ => rfl) fun _ => .inl rfl
  rw [mset]
  refine @Frames.bind _ _ _ _ _ _ _ _ _ fun d => ?_
  match words with
  | [] => infer_instance
  | [_] => infer_instance
  | [_, _] => infer_instance
  | _ :: address :: v :: _ => infer_instance

/-- **Another command** leaves the tables alone. -/
lemma untabled_runCommand {name : Option CommandName}
    (h : ∀ table : BreakpointTable, ¬ table.Concerns name) (words : List (List Char)) :
    Frames Untabled (runCommand words name) := by
  have hmodify {u : Debugger → Debugger} (action : DebugAction)
      (h : ∀ d table, BreakpointTable.get table (u d).cpu = table.get d.cpu)
      (hprev : ∀ d, (u d).prevLine = d.prevLine) :
      Frames Untabled (do modify u; return action : Session DebugAction) := by
    have := untabled_modify h fun d => .inl (hprev d)
    infer_instance
  cases name with
  | none => exact Frames.pure _ _
  | some name =>
      cases name with
      | obp | gbp | pbp | bp => exact absurd rfl (h _)
      | ac | mem | mset => rw [runCommand]; infer_instance
      | «show» | log | pchist | stats | help => exact Frames.pure _ _
      | quit | restart | step | pc | «continue» | switch =>
          exact hmodify _ (fun _ table => by cases table <;> rfl) fun _ => rfl

/-! ### The breakpoint commands -/

/-- What the words of a breakpoint command make of its table. -/
def entered (words : List (List Char)) (ns : Set ℕ) : Set ℕ :=
  match words with
  | _ :: word :: _ =>
      if word = ['c', 'l', 'e', 'a', 'r'] then ∅
      else
        match W36.ofString word with
        | .ok w => insert (w.toNat % 2 ^ 32) ns
        | .error _ => ns
  | _ => ns

/-- A store into one of the tables. -/
lemma numbers_set (table table' : BreakpointTable) (bps : List ℕ) (s : Cpu) :
    table'.numbers (table.set bps s) =
      if table = table' then {n | n ∈ bps} else table'.numbers s := by
  rw [BreakpointTable.numbers, BreakpointTable.get_set]
  split <;> rfl

/-- **A breakpoint command.** -/
lemma run_handleBPCommand (table : BreakpointTable) (words : List (List Char)) (d : Debugger) :
    ∃ d', (handleBPCommand table words).run d = .ok ((), d') ∧ d'.prevLine = d.prevLine ∧
      ∀ table', BreakpointTable.numbers table' d'.cpu =
        if table = table' then entered words (table.numbers d.cpu)
        else table'.numbers d.cpu := by
  have hsame (table' : BreakpointTable) : table'.numbers d.cpu =
      if table = table' then table.numbers d.cpu else table'.numbers d.cpu := by
    split
    case isTrue h => rw [h]
    case isFalse => rfl
  match words with
  | [] => exact ⟨d, rfl, rfl, hsame⟩
  | [_] => exact ⟨d, rfl, rfl, hsame⟩
  | _ :: word :: _ =>
      rw [handleBPCommand, entered]
      split
      case isTrue =>
        have hempty : {n | n ∈ ([] : List ℕ)} = (∅ : Set ℕ) := by simp
        refine ⟨_, rfl, rfl, fun table' => ?_⟩
        rw [← hempty]
        exact numbers_set table table' [] d.cpu
      case isFalse =>
        cases hw : W36.ofString word with
        | error e => exact ⟨_, rfl, rfl, hsame⟩
        | ok w =>
            have hnonneg : ¬ (w.toNat : ℤ) < 0 := by omega
            have hcut : (BitVec.ofInt 32 w.toNat).toNat = w.toNat % 2 ^ 32 := by
              rw [BitVec.ofInt_natCast, BitVec.toNat_ofNat]
            have hinsert : {n | n ∈ (table.get d.cpu).insert (w.toNat % 2 ^ 32)} =
                insert (w.toNat % 2 ^ 32) (table.numbers d.cpu) := by
              ext n
              exact List.mem_insert_iff
            simp only [if_neg hnonneg, hcut]
            refine ⟨_, rfl, rfl, fun table' => ?_⟩
            rw [← hinsert]
            exact numbers_set table table' _ d.cpu

/-- So a line about the table makes of it what it should. -/
lemma typed_of_concerns {table : BreakpointTable} {line word : List Char}
    {words : List (List Char)} (hwords : getWords line = word :: words)
    (h : table.Concerns (CommandName.ofWord word)) (ns : Set ℕ) :
    table.typed ns line = entered (word :: words) ns := by
  ext n
  simp only [BreakpointTable.typed, Set.mem_ofPred_eq, BreakpointTable.Clears,
    BreakpointTable.Sets, hwords, List.cons.injEq]
  match words with
  | [] => simp [entered]
  | number :: rest =>
      rw [entered]
      split
      case isTrue hclear =>
        have hno : W36.ofString ['c', 'l', 'e', 'a', 'r'] = .error .invalid_argument := by decide
        subst hclear
        simp [h, hno]
      case isFalse hclear =>
        cases hw : W36.ofString number with
        | error e => simp [hclear, hw]
        | ok w => simp [hclear, hw, h, or_comm]

/-- **A line** makes of every table what it should. -/
lemma numbers_of_debugLine {line : List Char} {d d' : Debugger} {action : DebugAction}
    (h : (debugLine line).run d = .ok (action, d')) :
    (∀ table, BreakpointTable.numbers table d'.cpu =
      table.typed (table.numbers d.cpu) (d.repeated line)) ∧
      (d'.prevLine = d.repeated line ∨ d'.prevLine = ['m']) := by
  cases hwords : getWords (d.repeated line) with
  | nil =>
      rw [debugLine, run_read] at h
      change getWords (if line = [] then d.prevLine else line) = [] at hwords
      simp only [hwords] at h
      cases h
  | cons word words =>
      rw [run_debugLine hwords] at h
      by_cases hnone : ∀ table : BreakpointTable, ¬ table.Concerns (CommandName.ofWord word)
      · obtain ⟨hnumbers, hprev⟩ := (untabled_runCommand hnone (word :: words)).out h
        refine ⟨fun table => ?_, hprev⟩
        rw [BreakpointTable.typed_of_not_concerns hwords (hnone table)]
        exact hnumbers table
      · obtain ⟨table, htable⟩ := not_forall_not.mp hnone
        have hcommand : runCommand (word :: words) (CommandName.ofWord word) = (do
            handleBPCommand table (word :: words)
            return .noop : Session DebugAction) := by
          cases hname : CommandName.ofWord word with
          | none => rw [hname] at htable; cases htable
          | some name =>
              rw [hname] at htable
              cases name <;> cases htable <;> rfl
        obtain ⟨d₁, hrun, hprev, hnumbers⟩ :=
          run_handleBPCommand table (word :: words) { d with prevLine := d.repeated line }
        rw [hcommand, run_bind_of_ok hrun] at h
        cases h
        refine ⟨fun table' => (hnumbers table').trans ?_, .inl hprev⟩
        split
        case isTrue heq => rw [← heq, typed_of_concerns hwords htable]
        case isFalse hne =>
          refine (BreakpointTable.typed_of_not_concerns hwords (fun h => hne ?_) _).symm
          exact Option.some.inj (htable.symm.trans h)

/-- Lines that are typed one after the other; an empty one at the beginning repeats the line before
it. -/
lemma numbers_of_debug {lines : List (List Char)} {d d' : Debugger}
    (hrun : (Debugger.debug lines).run d = .ok (.noop, d')) (table : BreakpointTable) :
    table.numbers d'.cpu =
      (lines.modifyHead d.repeated).foldl table.typed (table.numbers d.cpu) := by
  induction lines generalizing d with
  | nil => cases hrun; rfl
  | cons line lines ih =>
      obtain ⟨action, d₁, hline, hrest⟩ := ok_of_run_bind hrun
      split at hrest
      case isFalse hne => cases hrest; exact absurd rfl hne
      case isTrue =>
        obtain ⟨hnumbers, hprev⟩ := numbers_of_debugLine hline
        rw [List.modifyHead_cons, List.foldl_cons, ← hnumbers, ih hrest]
        cases lines with
        | nil => rfl
        | cons line' lines =>
            rw [List.modifyHead_cons, List.foldl_cons, List.foldl_cons]
            congr 1
            -- an empty line changes nothing, since the line that it repeats has done so already
            rw [repeated]
            split
            case isFalse => rfl
            case isTrue hempty =>
              rw [hempty, BreakpointTable.typed_nil]
              rcases hprev with hprev | hprev <;> rw [hprev]
              · rw [hnumbers, BreakpointTable.typed_typed]
              · exact BreakpointTable.typed_of_not_concerns
                  (show getWords ['m'] = [['m']] by decide) (by cases table <;> decide) _

/-- Octal digits behind a minus sign. -/
lemma ofString_minus {digits : List Char} (hdigits : ∀ c ∈ digits, IsNumeral 8 c) (w : W36) :
    W36.ofString ('-' :: digits) = .ok w ↔
      digits ≠ [] ∧ value 8 digits < 2 ^ 64 ∧ w = -.ofNat (value 8 digits) := by
  have hcomma : ',' ∉ '-' :: digits := by
    rw [List.mem_cons, not_or]
    exact ⟨by decide, fun h => absurd (hdigits _ h) (by decide)⟩
  have hsplit := splitHalves_of_none hcomma (show splitHalves [] = none from rfl)
  have hstoul : stoul ('-' :: digits) = stoulValue true digits := by
    have htake := takeWhile_digits hdigits noNumeral_nil
    rw [List.append_nil] at htake
    change stoulValue true (digits.takeWhile (IsNumeral 8)) = _
    rw [htake]
  rw [List.append_nil] at hsplit
  rw [W36.ofString, hsplit]
  simp only [hstoul, stoulValue]
  by_cases hne : digits = []
  case pos =>
    rw [if_pos hne]
    exact iff_of_false (fun h => by cases h) fun h => h.1 hne
  case neg =>
    rw [if_neg hne]
    by_cases hlt : value 8 digits < 2 ^ 64
    case neg =>
      rw [if_pos (Nat.not_lt.mp hlt)]
      exact iff_of_false (fun h => by cases h) fun h => hlt h.2.1
    case pos =>
      have hcut : (-BitVec.ofNat 64 (value 8 digits)).setWidth 36 =
          -W36.ofNat (value 8 digits) := by
        rw [BitVec.setWidth_neg_of_le (by decide)]
        refine congrArg _ (BitVec.eq_of_toNat_eq ?_)
        simp only [W36.ofNat, BitVec.toNat_setWidth, BitVec.toNat_ofNat]
        omega
      rw [if_neg (Nat.not_le.mpr hlt)]
      change Except.ok ((-BitVec.ofNat 64 (value 8 digits)).setWidth 36) = _ ↔ _
      rw [hcut, Except.ok.injEq]
      exact ⟨fun h => ⟨hne, hlt, h.symm⟩, fun h => h.2.2.symm⟩

end Debugger

open Debugger

/-- **The breakpoint tables are what has been typed.**  As long as the debugger is not left, a table
holds the numbers that it held or that a line has put into it since the last line that cleared it.
A minus sign in front of the digits, which the help text describes as removing the number, clears
nothing: the negative is put into the table as well, in 32 bits. -/
theorem breakpoints_typed {lines : List (List Char)} {d d' : Debugger}
    (hrun : (Debugger.debug lines).run d = .ok (.noop, d')) (table : BreakpointTable) :
    table.numbers d'.cpu =
        (lines.modifyHead d.repeated).foldl table.typed (table.numbers d.cpu) ∧
      ∀ line word digits rest, getWords line = word :: ('-' :: digits) :: rest →
        (∀ c ∈ digits, IsNumeral 8 c) →
          ¬ table.Clears line ∧ ∀ n, table.Sets line n ↔
            table.Concerns (CommandName.ofWord word) ∧ digits ≠ [] ∧ value 8 digits < 2 ^ 64 ∧
              n = (2 ^ 32 - value 8 digits % 2 ^ 32) % 2 ^ 32 := by
  refine ⟨numbers_of_debug hrun table, ?_⟩
  intro line word digits rest hwords hdigits
  constructor
  · rintro ⟨word', rest', hwords', -⟩
    rw [hwords] at hwords'
    cases hwords'
  · intro n
    have hcut : (-W36.ofNat (value 8 digits)).toNat % 2 ^ 32 =
        (2 ^ 32 - value 8 digits % 2 ^ 32) % 2 ^ 32 := by
      rw [W36.ofNat, BitVec.toNat_neg, BitVec.toNat_ofNat]
      omega
    constructor
    · rintro ⟨word', number, rest', w, hwords', hconcerns, hw, rfl⟩
      rw [hwords] at hwords'
      cases hwords'
      obtain ⟨hne, hlt, rfl⟩ := (ofString_minus hdigits w).mp hw
      exact ⟨hconcerns, hne, hlt, hcut⟩
    · rintro ⟨hconcerns, hne, hlt, rfl⟩
      exact ⟨word, _, rest, _, hwords, hconcerns, (ofString_minus hdigits _).mpr ⟨hne, hlt, rfl⟩,
        hcut.symm⟩

/-- A breakpoint is set, and the attempt to remove it sets another one. -/
theorem breakpoints_typed_minus :
    BreakpointTable.executeBPs.numbers (final (Debugger.debug
        [[], "bp 100".toList, "bp -100".toList, []]) (.initial .initial)).cpu =
      [['h', 'e', 'l', 'p'], "bp 100".toList, "bp -100".toList, []].foldl
        BreakpointTable.executeBPs.typed (BreakpointTable.executeBPs.numbers .initial) ∧
      BreakpointTable.executeBPs.Sets "bp -100".toList (2 ^ 32 - 0o100) := by
  have hrun : (Debugger.debug [[], "bp 100".toList, "bp -100".toList, []]).run
      (.initial .initial) = .ok (.noop, _) := run_eq_of_returned (by decide +kernel)
  obtain ⟨hnumbers, hminus⟩ := breakpoints_typed hrun .executeBPs
  have hwords : getWords "bp -100".toList = [['b', 'p'], '-' :: ['1', '0', '0']] := by
    decide +kernel
  refine ⟨hnumbers, ((hminus _ _ _ _ hwords (by simp [IsNumeral])).2 _).mpr ?_⟩
  exact ⟨by decide +kernel, by decide, by decide, by decide⟩

end KM10
