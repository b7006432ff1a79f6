import KM10.Effects.Stores

/-!
The half-word group: opcodes 0500 to 0577.

An opcode names the half that is written (bit 040), the effect on the other half (bits 030),
whether the half that is read is the opposite one (bit 04), and a mode.

* `halfWord`: the word that the instruction makes of its source and its target;
* `Cpu.modeTarget`: the word that a mode writes over;
* `HalfEntry`: a handler stores the word of its opcode as the mode says;
* `run_half`: the handlers of the group do.
-/

namespace KM10

open StateExcept

/-! ### The word of an opcode -/

/-- The half of the source that is moved, with the half that is written and whether the other
one is read. -/
def movedHalf (half opposite : ℕ) (source : W36) : BitVec 18 :=
  if half = opposite then source.lhu else source.rhu

/-- What an effect makes of the half that is not written: it keeps it, or fills it with zeros,
with ones, or with copies of the sign of the moved half. -/
def otherHalf (effect : ℕ) (moved old : BitVec 18) : BitVec 18 :=
  match effect with
  | 0 => old
  | 1 => 0
  | 2 => BitVec.allOnes 18
  | _ => if moved.msb then BitVec.allOnes 18 else 0

/-- The word that an instruction makes of its source and its target. -/
def halfWord (half effect opposite : ℕ) (source target : W36) : W36 :=
  let moved := movedHalf half opposite source
  if half = 0 then W36.halves moved (otherHalf effect moved target.rhu)
  else W36.halves (otherHalf effect moved target.lhu) moved

/-- A half of copies of the sign. -/
lemma extnOf_eq (v : BitVec 18) : extnOf v = if v.msb then BitVec.allOnes 18 else 0 := by
  rw [extnOf, BitVec.msb_eq_getLsbD_last]
  rfl

/-! ### The instructions -/

/-- The word that a mode writes over: the accumulator or memory. -/
def Cpu.modeTarget (s : Cpu) (m : ℕ) : W36 := if m < 2 then s.acOperand else s.memOperand

variable {src dst : Exec W36} {source target : Cpu → W36} {put : W36 → Exec Unit} {d : Dest}

lemma does_halfInsn [hsrc : Reads src source] [hdst : Reads dst target] [hput : Puts put d]
    (ext : W36 → W36) (copy : W36 → W36 → W36) :
    Does (halfInsn ext copy src dst put) (fun _ => .iNormal)
      fun s => s.store (ext (copy (source s) (target s))) d := by
  intro s
  obtain ⟨running, hread⟩ := hsrc.out s
  obtain ⟨running1, hread1⟩ := hdst.out { s with running := running }
  rw [hdst.stopped] at hread1
  obtain ⟨running2, hstore⟩ := hput.run (ext (copy (source s) (target s))) s running1 s.flags
  refine ⟨running2, ?_⟩
  rw [halfInsn, run_bind_of_ok hread, run_bind_of_ok hread1]
  exact (run_bind_of_ok hstore).trans (by rw [← store_flags s _ d]; rfl)

/-! ### The table -/

/-- The handler of an entry stores the word of its opcode where its mode says. -/
def HalfEntry (e : ℕ × Handler) : Prop :=
  Does e.2 (fun _ => .iNormal) fun s =>
    s.store (halfWord (e.1 / 0o40 % 2) (e.1 / 0o10 % 4) (e.1 / 4 % 2) (s.modeSource (e.1 % 4))
      (s.modeTarget (e.1 % 4))) (.ofMode (e.1 % 4))

lemma HalfEntry.of_halfInsn {op : ℕ} {ext : W36 → W36} {copy : W36 → W36 → W36}
    [Reads src source] [Reads dst target] [Puts put d] (hd : d = .ofMode (op % 4))
    (hsource : source = fun s => s.modeSource (op % 4))
    (htarget : target = fun s => s.modeTarget (op % 4))
    (hword : ∀ v w, ext (copy v w) =
      halfWord (op / 0o40 % 2) (op / 0o10 % 4) (op / 4 % 2) v w) :
    HalfEntry (op, halfInsn ext copy src dst put) := by
  refine (does_halfInsn ext copy).congr (fun _ => rfl) fun s => ?_
  rw [hword, hd, hsource, htarget]

/-- The copies and the treatments of the other half, case by case. -/
lemma half_entries : ∀ e ∈ installHalfGroup, HalfEntry e := by
  simp only [installHalfGroup, List.forall_mem_cons, List.not_mem_nil, false_imp_iff,
    implies_true, and_true]
  and_intros
  all_goals
    refine .of_halfInsn rfl rfl rfl fun v w => ?_
    simp only [zeroR, zeroL, onesR, onesL, extnR, extnL, copyHLL, copyHLR, copyHRL, copyHRR,
      W36.rhu_halves, W36.lhu_halves, extnOf_eq, id]
    rfl

/-- Every opcode is one of an instruction of the group. -/
lemma mem_half_opcodes (half : Fin 2) (effect : Fin 4) (opposite : Fin 2) (mode : Fin 4) :
    0o500 + 0o40 * half.val + 0o10 * effect.val + 4 * opposite.val + mode.val ∈
      installHalfGroup.map Prod.fst := by
  revert half effect opposite mode
  decide +kernel

/-- **The half-word group**: the handler of an opcode moves the half of the source that it
names, treats the other half by its effect, stores the word at the destination of its mode,
completes, and changes nothing else. -/
theorem run_half (half : Fin 2) (effect : Fin 4) (opposite : Fin 2) (mode : Fin 4) (s : Cpu) :
    ∃ running,
      (ops (0o500 + 0o40 * half.val + 0o10 * effect.val + 4 * opposite.val + mode.val)).run s =
        .ok (.iNormal,
          { s.store (halfWord half.val effect.val opposite.val (s.modeSource mode.val)
              (s.modeTarget mode.val)) (.ofMode mode.val) with running := running }) := by
  have hsub : installHalfGroup ⊆ installs := fun e he => mem_installs.mpr (by tauto)
  have hrow := ops_of_entries hsub half_entries (mem_half_opcodes half effect opposite mode) s
  have hhalf : (0o500 + 0o40 * half.val + 0o10 * effect.val + 4 * opposite.val + mode.val) /
      0o40 % 2 = half.val := by omega
  have heffect : (0o500 + 0o40 * half.val + 0o10 * effect.val + 4 * opposite.val + mode.val) /
      0o10 % 4 = effect.val := by omega
  have hopposite : (0o500 + 0o40 * half.val + 0o10 * effect.val + 4 * opposite.val + mode.val) /
      4 % 2 = opposite.val := by omega
  have hmode : (0o500 + 0o40 * half.val + 0o10 * effect.val + 4 * opposite.val + mode.val) %
      4 = mode.val := by omega
  simp only [hhalf, heffect, hopposite, hmode] at hrow
  exact hrow

end KM10
