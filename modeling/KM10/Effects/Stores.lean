import KM10.Effects.Operands

/-!
What an instruction stores.

The instructions of a family differ in their operands, in the word they compute, and in where
they store it.

* `Dest`, `Cpu.store`: the destinations, and the machine with a word stored there;
* `store_keeps`: what writes of accumulators and words keep, a store keeps;
* `Cpu.modeSource`, `Dest.ofMode`: the source and the destination of the modes of a move;
* `Puts`: a store to a destination, which at most stops the machine besides;
* `Does`: a handler as the result that it reports and the change that it makes;
* `ops_of_entries`: what holds of the entries of a group holds of the handlers of their opcodes.
-/

namespace KM10

open StateExcept

/-! ### Destinations -/

/-- Where an instruction stores its result: to the accumulator, to memory, to both, or to
memory and to the accumulator as well when its AC field is non-zero. -/
inductive Dest where
  | ac
  | mem
  | both
  | self
deriving DecidableEq

/-- The machine with a word stored at a destination. -/
def Cpu.store (s : Cpu) (v : W36) : Dest → Cpu
  | .ac => s.setAC v s.iw.ac
  | .mem => s.setWord v s.ea.rhu
  | .both => (s.setAC v s.iw.ac).setWord v s.ea.rhu
  | .self =>
      if s.iw.ac = 0 then s.setWord v s.ea.rhu else (s.setWord v s.ea.rhu).setAC v s.iw.ac

/-- The source of the four modes of a move: memory, the immediate operand, the accumulator, and
memory again. -/
def Cpu.modeSource (s : Cpu) (m : ℕ) : W36 :=
  if m = 1 then s.immediateOperand else if m = 2 then s.acOperand else s.memOperand

/-- Their destination. -/
def Dest.ofMode (m : ℕ) : Dest := if m < 2 then .ac else if m = 2 then .mem else .self

/-- A store does not depend on the run flag and the flags, and keeps them. -/
lemma store_update (s : Cpu) (v : W36) (d : Dest) (running : Bool) (flags : ProgramFlags) :
    ({ s with running := running, flags := flags } : Cpu).store v d =
      { s.store v d with running := running, flags := flags } := by
  cases d with
  | ac => rfl
  | mem | both =>
      simp only [Cpu.store, Cpu.setWord]
      split <;> rfl
  | self =>
      simp only [Cpu.store, Cpu.setWord]
      split <;> split <;> rfl

/-- What writes of accumulators and of words keep, a store keeps. -/
lemma store_keeps {α : Type} {g : Cpu → α} (hac : ∀ s v n, g (Cpu.setAC s v n) = g s)
    (hword : ∀ s v a, g (Cpu.setWord s v a) = g s) (s : Cpu) (v : W36) (d : Dest) :
    g (s.store v d) = g s := by
  cases d with
  | ac => exact hac _ _ _
  | mem => exact hword _ _ _
  | both => exact (hword _ _ _).trans (hac _ _ _)
  | self =>
      rw [Cpu.store]
      split
      · exact hword _ _ _
      · exact (hac _ _ _).trans (hword _ _ _)

section Store

variable (s : Cpu) (v : W36) (d : Dest)

@[simp] lemma store_flags : (s.store v d).flags = s.flags :=
  store_keeps (g := Cpu.flags) (fun _ _ _ => rfl) setWord_flags s v d

@[simp] lemma store_pc : (s.store v d).pc = s.pc :=
  store_keeps (g := Cpu.pc) (fun _ _ _ => rfl) setWord_pc s v d

@[simp] lemma store_ea : (s.store v d).ea = s.ea :=
  store_keeps (g := Cpu.ea) (fun _ _ _ => rfl) setWord_ea s v d

@[simp] lemma store_AC : (s.store v d).AC = s.AC :=
  store_keeps (g := Cpu.AC) (fun _ _ _ => rfl) setWord_AC s v d

@[simp] lemma store_inInterrupt : (s.store v d).inInterrupt = s.inInterrupt :=
  store_keeps (g := Cpu.inInterrupt) (fun _ _ _ => rfl) setWord_inInterrupt s v d

end Store

/-! ### Stores -/

/-- The computation stores a word at a destination and at most stops the machine besides. -/
class Puts (put : W36 → Exec Unit) (d : outParam Dest) : Prop where
  out : ∀ v s, ∃ running, (put v).run s = .ok ((), { s.store v d with running := running })

instance puts_acPut : Puts acPut .ac := ⟨fun v s => ⟨s.running, run_acPut v s⟩⟩

instance puts_memPut : Puts memPut .mem := ⟨fun v s => ⟨_, run_memPut v s⟩⟩

instance puts_bothPut : Puts bothPut .both where
  out := fun v s => by
    rw [bothPut, run_bind_of_ok (run_acPut v s), run_memPut]
    exact ⟨_, rfl⟩

instance puts_selfPut : Puts selfPut .self where
  out := fun v s => by
    let s1 := (s.setWord v s.ea.rhu).hit (s.setWord v s.ea.rhu).addressPBPs s.ea.vma.toNat
    have hiw : s1.iw = s.iw := setWord_iw s _ _
    refine ⟨s1.running, ?_⟩
    rw [selfPut, run_bind_of_ok (run_memPut v s), run_bind_of_ok (run_gets Cpu.iw s1), hiw,
      Cpu.store]
    by_cases hac : s.iw.ac = 0
    · rw [if_neg (not_not.mpr hac), if_pos hac]
      rfl
    · rw [if_pos hac, if_neg hac, run_acPut, hiw]
      rfl

/-- The store of a word that was computed from the machine, on a machine that it may have
stopped and whose flags it may have changed. -/
lemma Puts.run {put : W36 → Exec Unit} {d : Dest} (h : Puts put d) (v : W36) (s : Cpu)
    (running : Bool) (flags : ProgramFlags) :
    ∃ running', (put v).run { s with running := running, flags := flags } =
      .ok ((), { s.store v d with running := running', flags := flags }) := by
  obtain ⟨running', hrun⟩ := h.out v { s with running := running, flags := flags }
  rw [store_update] at hrun
  exact ⟨running', hrun⟩

/-! ### Handlers -/

/-- The handler reports the result `r` of the machine before it and leaves the machine `f`, up
to the run flag. -/
def Does (h : Handler) (r : Cpu → IResult) (f : Cpu → Cpu) : Prop :=
  ∀ s, ∃ running, h.run s = .ok (r s, { f s with running := running })

/-- A handler does what is the same as what it does. -/
lemma Does.congr {h : Handler} {r r' : Cpu → IResult} {f f' : Cpu → Cpu} (hd : Does h r f)
    (hr : ∀ s, r s = r' s) (hf : ∀ s, f s = f' s) : Does h r' f' := by
  intro s
  obtain ⟨running, hrun⟩ := hd s
  rw [hr, hf] at hrun
  exact ⟨running, hrun⟩

lemma does_pure (r : IResult) : Does (pure r) (fun _ => r) fun s => s :=
  fun s => ⟨s.running, rfl⟩

/-- What holds of every entry of some groups holds of the handler of each of their opcodes. -/
lemma ops_of_entries {entries : List (ℕ × Handler)} (hsub : entries ⊆ installs)
    {P : ℕ × Handler → Prop} (h : ∀ e ∈ entries, P e) {op : ℕ}
    (hop : op ∈ entries.map Prod.fst) : P (op, ops op) := by
  obtain ⟨e, he, rfl⟩ := List.mem_map.mp hop
  have hops : ops e.1 = e.2 := ops_of_mem (hsub he)
  rw [hops]
  exact h e he

end KM10
