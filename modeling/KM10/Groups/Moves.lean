import KM10.Effects.Stores

/-!
The full-word moves: opcodes 0200 to 0217.

* `moved`, `movedFlags`: the word that a move makes of its source, and the flags that it sets;
* `Computes`: an operation as the word it computes and the change it makes to the flags;
* `MoveEntry`: a handler moves as its opcode says;
* `run_move`: the handlers of the group do.
-/

namespace KM10

open StateExcept

/-! ### The move of an opcode -/

/-- The word that a move makes of its source: the source itself, its halves exchanged, its
negation, its magnitude. -/
def moved (kind : ℕ) (v : W36) : W36 :=
  match kind with
  | 0 => v
  | 1 => W36.halves v.rhu v.lhu
  | 2 => BitVec.ofInt 36 (-v.toInt)
  | _ => BitVec.ofInt 36 |v.toInt|

/-- The flags after a move: a negation carries on zero, and a negation or a magnitude overflows
on the most negative number. -/
def movedFlags (kind : ℕ) (v : W36) (f : ProgramFlags) : ProgramFlags :=
  let zero := kind = 2 ∧ v = 0
  let least := 2 ≤ kind ∧ v.toInt = -2 ^ 35
  { f with
    cy0 := f.cy0 || zero
    cy1 := f.cy1 || zero || least
    tr1 := f.tr1 || least
    ov := f.ov || least }

/-- Only the most negative number is the word with the sign bit alone. -/
lemma eq_bit0_iff (v : W36) : v = W36.ofNat W36.bit0 ↔ v.toInt = -2 ^ 35 :=
  BitVec.toInt_inj.symm

lemma movedFlags_of_zero {v : W36} (h : v = 0) (f : ProgramFlags) :
    movedFlags 2 v f = f.carries := by
  have hleast : (0 : W36).toInt ≠ -2 ^ 35 := by decide
  simp only [movedFlags, h, hleast, and_false, and_self, decide_false, decide_true, Bool.or_false,
    Bool.or_true]
  rfl

lemma movedFlags_of_least {kind : ℕ} {v : W36} (hkind : 2 ≤ kind) (h : v.toInt = -2 ^ 35)
    (f : ProgramFlags) : movedFlags kind v f = f.overflow1 := by
  have hzero : v ≠ 0 := by
    rintro rfl
    cases h
  simp only [movedFlags, hkind, h, hzero, and_false, and_self, decide_false, decide_true,
    Bool.or_false, Bool.or_true]
  rfl

lemma movedFlags_of_not {kind : ℕ} {v : W36} (hzero : ¬ (kind = 2 ∧ v = 0))
    (hleast : ¬ (2 ≤ kind ∧ v.toInt = -2 ^ 35)) (f : ProgramFlags) : movedFlags kind v f = f := by
  simp only [movedFlags, hzero, hleast, decide_false, Bool.or_false]

/-! ### The operations -/

/-- The operation computes a word and changes the flags. -/
class Computes (op : W36 → Exec W36) (value : outParam (W36 → W36))
    (update : outParam (W36 → ProgramFlags → ProgramFlags)) : Prop where
  out : ∀ v s, (op v).run s = .ok (value v, { s with flags := update v s.flags })

instance computes_id : Computes pure (fun v => v) fun _ f => f := ⟨fun _ _ => rfl⟩

instance computes_pure (value : W36 → W36) :
    Computes (fun v => pure (value v)) value fun _ f => f := ⟨fun _ _ => rfl⟩

instance computes_negate : Computes negate (moved 2) (movedFlags 2) where
  out := fun v s => by
    have hvalue : moved 2 v = -v := by
      rw [moved, BitVec.ofInt_neg, BitVec.ofInt_toInt]
    rw [negate, hvalue]
    by_cases hleast : v.toInt = -2 ^ 35
    · have hzero : v ≠ 0 := by
        rintro rfl
        cases hleast
      rw [if_pos ((eq_bit0_iff v).mpr hleast), if_neg hzero, movedFlags_of_least le_rfl hleast]
      rfl
    · rw [if_neg (mt (eq_bit0_iff v).mp hleast)]
      by_cases hzero : v = 0
      · rw [if_pos hzero, movedFlags_of_zero hzero]
        rfl
      · rw [if_neg hzero, movedFlags_of_not (mt And.right hzero) (mt And.right hleast)]
        rfl

instance computes_magnitude : Computes magnitude (moved 3) (movedFlags 3) where
  out := fun v s => by
    have hvalue : moved 3 v = if v.sign then -v else v := by
      have hsign : v.sign = true ↔ v.toInt < 0 := by
        rw [W36.sign, ← BitVec.msb_eq_getLsbD_last (w := 36), BitVec.msb_eq_toInt,
          decide_eq_true_eq]
      change BitVec.ofInt 36 |v.toInt| = _
      split
      case isTrue hneg =>
        rw [abs_of_neg (hsign.mp hneg), BitVec.ofInt_neg, BitVec.ofInt_toInt]
      case isFalse hpos =>
        rw [abs_of_nonneg (not_lt.mp (mt hsign.mpr hpos)), BitVec.ofInt_toInt]
    rw [magnitude, hvalue]
    by_cases hleast : v.toInt = -2 ^ 35
    · rw [if_pos ((eq_bit0_iff v).mpr hleast), movedFlags_of_least (by omega) hleast]
      rfl
    · rw [if_neg (mt (eq_bit0_iff v).mp hleast),
        movedFlags_of_not (by omega) (mt And.right hleast)]
      rfl

/-! ### The instructions -/

variable {src : Exec W36} {op : W36 → Exec W36} {put : W36 → Exec Unit} {source : Cpu → W36}
  {value : W36 → W36} {update : W36 → ProgramFlags → ProgramFlags} {d : Dest}

lemma does_moveInsn [hsrc : Reads src source] [hop : Computes op value update]
    [hput : Puts put d] :
    Does (moveInsn src op put) (fun _ => .iNormal) fun s =>
      { s.store (value (source s)) d with flags := update (source s) s.flags } := by
  intro s
  obtain ⟨running, hread⟩ := hsrc.out s
  obtain ⟨running', hstore⟩ :=
    hput.run (value (source s)) s running (update (source s) s.flags)
  refine ⟨running', ?_⟩
  rw [moveInsn, run_bind_of_ok hread, run_bind_of_ok (hop.out _ _)]
  exact run_bind_of_ok hstore

/-! ### The table -/

/-- The handler of an entry moves as its opcode says. -/
def MoveEntry (e : ℕ × Handler) : Prop :=
  Does e.2 (fun _ => .iNormal) fun s =>
    { s.store (moved (e.1 / 4 % 4) (s.modeSource (e.1 % 4))) (.ofMode (e.1 % 4)) with
      flags := movedFlags (e.1 / 4 % 4) (s.modeSource (e.1 % 4)) s.flags }

lemma MoveEntry.of_moveInsn {n : ℕ} [Reads src source] [Computes op value update] [Puts put d]
    (hd : d = .ofMode (n % 4)) (hsource : source = fun s => s.modeSource (n % 4))
    (hvalue : value = moved (n / 4 % 4)) (hflags : update = movedFlags (n / 4 % 4)) :
    MoveEntry (n, moveInsn src op put) := by
  refine does_moveInsn.congr (fun _ => rfl) fun s => ?_
  rw [hd, hsource, hvalue, hflags]

/-- A move without a computation sets no flags. -/
lemma movedFlags_of_lt {kind : ℕ} (h : kind < 2) : (fun _ f => f) = movedFlags kind := by
  funext v f
  rw [movedFlags_of_not (by omega) (by omega)]

lemma move_entries : ∀ e ∈ installMoveGroup, MoveEntry e := by
  simp only [installMoveGroup, List.forall_mem_cons, List.not_mem_nil, false_imp_iff,
    implies_true, and_true]
  and_intros
  all_goals first
    | exact .of_moveInsn rfl rfl rfl rfl
    | exact .of_moveInsn rfl rfl rfl (movedFlags_of_lt (by decide))

/-- Every opcode is one of an instruction of the group. -/
lemma mem_move_opcodes (kind mode : Fin 4) :
    0o200 + 4 * kind.val + mode.val ∈ installMoveGroup.map Prod.fst := by
  revert kind mode
  decide +kernel

/-- The handler of an opcode of the group. -/
lemma move_ops (kind mode : Fin 4) :
    Does (ops (0o200 + 4 * kind.val + mode.val)) (fun _ => .iNormal) fun s =>
      { s.store (moved kind.val (s.modeSource mode.val)) (.ofMode mode.val) with
        flags := movedFlags kind.val (s.modeSource mode.val) s.flags } := by
  have hsub : installMoveGroup ⊆ installs := fun e he => mem_installs.mpr (by tauto)
  have hrow := ops_of_entries hsub move_entries (mem_move_opcodes kind mode)
  have hkind : (0o200 + 4 * kind.val + mode.val) / 4 % 4 = kind.val := by omega
  have hmode : (0o200 + 4 * kind.val + mode.val) % 4 = mode.val := by omega
  simp only [MoveEntry, hkind, hmode] at hrow
  exact hrow

/-- **The full-word moves**: the handler of an opcode stores what the move makes of the source
at the destination of its mode, sets the flags of the move, completes, and changes nothing
else. -/
theorem run_move (kind mode : Fin 4) (s : Cpu) :
    ∃ running, (ops (0o200 + 4 * kind.val + mode.val)).run s = .ok (.iNormal,
      { s.store (moved kind.val (s.modeSource mode.val)) (.ofMode mode.val) with
        running := running, flags := movedFlags kind.val (s.modeSource mode.val) s.flags }) :=
  move_ops kind mode s

end KM10
