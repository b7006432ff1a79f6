import KM10.Effects.Stack
import KM10.Effects.Steps
import KM10.Library.Brackets

/-!
Well-bracketed use of a stack of section 0.

The pointer of the stack has two halves that are stepped independently: the count on the left, and
the address of the last word on the right.  As long as the count does not come by zero and the
words lie apart from everything else that is stored, the machine holds a list of words there.

* `StackRoom`, `HoldsStack`: the room that a stack has, and the words that it holds;
* `StackStep`, `Matched`, `LeavesStack`: the instructions on the stack, and the others;
* `holds_of_push`, `holds_of_pop`: the two ends of a pair;
* `bracketed_stack`: a well-bracketed run gives back every word that it has pushed;
* `bracketed_stack_call`: a call with a word saved over it.
-/

namespace KM10

open StateExcept

/-- One pass of a run. -/
abbrev PassStep := TraceStep Cpu (Cycle × IResult)

/-! ### A stack in memory -/

/-- The address of the `k`-th word of the stack above `r`. -/
def slot (r : BitVec 18) (k : ℕ) : BitVec 18 := r + BitVec.ofNat 18 k

/-- The stack pointer over `k` words. -/
def pointer (l r : BitVec 18) (k : ℕ) : W36 := W36.halves (l + BitVec.ofNat 18 k) (slot r k)

/-- There is room for `d` words above the pointer `l,,r`: the count does not come by zero, and the
addresses are those of memory words and do not wrap. -/
structure StackRoom (l r : BitVec 18) (d : ℕ) : Prop where
  count : ∀ k, 1 ≤ k → k ≤ d → l + BitVec.ofNat 18 k ≠ 0
  low : 0o20 ≤ r.toNat + 1
  high : r.toNat + d < 2 ^ 18

/-- The words above `r`, the last one first. -/
def StackWords (s : Cpu) (r : BitVec 18) : List W36 → Prop
  | [] => True
  | v :: stack => s.word (slot r (stack.length + 1)) = v ∧ StackWords s r stack

/-- The machine holds a stack of words under the pointer in accumulator `P`. -/
structure HoldsStack (P : BitVec 4) (l r : BitVec 18) (stack : List W36) (s : Cpu) : Prop where
  pointer : s.acs P = pointer l r stack.length
  words : StackWords s r stack

/-- The machine has the words above `r` of another one. -/
lemma StackWords.congr {s t : Cpu} {r : BitVec 18} {stack : List W36} (h : StackWords s r stack)
    (hsame : ∀ k, 1 ≤ k → k ≤ stack.length → t.word (slot r k) = s.word (slot r k)) :
    StackWords t r stack := by
  induction stack with
  | nil => trivial
  | cons v stack ih =>
      refine ⟨?_, ih h.2 fun k hk hle => hsame k hk ?_⟩
      · rw [hsame _ (Nat.le_add_left 1 _) le_rfl]
        exact h.1
      · exact hle.trans (Nat.le_succ _)

section Room

variable {l r : BitVec 18} {d : ℕ}

/-- The slots do not wrap. -/
lemma StackRoom.toNat_slot (h : StackRoom l r d) {k : ℕ} (hk : k ≤ d) :
    (slot r k).toNat = r.toNat + k := by
  have := h.high
  rw [slot, BitVec.toNat_add, BitVec.toNat_ofNat]
  omega

/-- The slots are memory words. -/
lemma StackRoom.slot_not_lt (h : StackRoom l r d) {k : ℕ} (hpos : 1 ≤ k) (hk : k ≤ d) :
    ¬ slot r k < 0o20 := by
  have hlow := h.low
  rw [BitVec.lt_def, h.toNat_slot hk]
  change ¬ r.toNat + k < 16
  omega

/-- Different slots are apart. -/
lemma StackRoom.slot_ne (h : StackRoom l r d) {j k : ℕ} (hj : j ≤ d) (hk : k ≤ d) (hne : j ≠ k) :
    slot r j ≠ slot r k := by
  intro heq
  have hnat := congrArg BitVec.toNat heq
  rw [h.toNat_slot hj, h.toNat_slot hk] at hnat
  omega

lemma slot_succ (r : BitVec 18) (k : ℕ) : slot r (k + 1) = slot r k + 1 := by
  rw [slot, slot, BitVec.ofNat_add, BitVec.add_assoc]
  rfl

end Room

/-! ### The instructions -/

/-- A pass that executes an instruction on the stack with a program in section 0, outside of
interrupts. -/
structure StackStep (op : ℕ) (P : BitVec 4) (x : PassStep) : Prop where
  cycle : x.label.1 = .normal
  inInterrupt : x.pre.inInterrupt = false
  pc : x.pre.pc.isSection0 = true
  next : x.post.pc.isSection0 = true
  op : x.pre.fetchWord.op.toNat = op
  ac : x.pre.fetchWord.ac = P

/-- The effective address of the instruction that a pass executes. -/
def EffectiveAddress (x : PassStep) (E : BitVec 18) : Prop :=
  ∃ last, LastLink x.pre.fetched x.pre.fetchWord last ∧
    (W36.ofNat (x.pre.fetched.linkAddress last)).rhu = E

/-- An address that is neither the accumulator of the stack nor one of its `d` slots. -/
structure Apart (P : BitVec 4) (r : BitVec 18) (d : ℕ) (E : BitVec 18) : Prop where
  pointer : ¬ (E < 0o20 ∧ E.setWidth 4 = P)
  words : ∀ k, 1 ≤ k → k ≤ d → slot r k ≠ E

/-- A pass that does not write the stack pointer and the `d` slots. -/
structure LeavesStack (P : BitVec 4) (r : BitVec 18) (d : ℕ) (x : PassStep) : Prop where
  pointer : x.post.acs P = x.pre.acs P
  words : ∀ k, 1 ≤ k → k ≤ d → x.post.word (slot r k) = x.pre.word (slot r k)

/-- PUSH and POP to an address apart from the stack, or PUSHJ and POPJ. -/
def Matched (P : BitVec 4) (r : BitVec 18) (d : ℕ) (o c : PassStep) : Prop :=
  (StackStep 0o261 P o ∧ StackStep 0o262 P c ∧ ∀ E, EffectiveAddress c E → Apart P r d E) ∨
    (StackStep 0o260 P o ∧ StackStep 0o263 P c)

/-- The word that an opening instruction pushes: the operand of PUSH, and the return address of
PUSHJ in the right half. -/
structure Pushes (o : PassStep) (v : W36) : Prop where
  push : o.pre.fetchWord.op.toNat = 0o261 → ∃ E, EffectiveAddress o E ∧ o.pre.word E = v
  pushj : o.pre.fetchWord.op.toNat = 0o260 → v.rhu = o.pre.pc.rhu + 1

/-- What a closing instruction does with the word that it pops: POP stores it, and POPJ goes on at
its right half. -/
structure Delivers (c : PassStep) (v : W36) : Prop where
  pop : c.pre.fetchWord.op.toNat = 0o262 → ∃ E, EffectiveAddress c E ∧ c.post.word E = v
  popj : c.pre.fetchWord.op.toNat = 0o263 →
    c.post.pc.vma.toNat = v.rhu.toNat ∧ c.post.fetchPC.vma = c.post.pc.vma

section Steps

variable {l r : BitVec 18} {d op : ℕ} {P : BitVec 4} {stack : List W36} {v : W36} {x c o : PassStep}

/-- The handler of such a pass runs on a machine with the words of the one before it. -/
lemma exists_of_stackStep (h : Step x.pre x.label x.post) (hx : StackStep op P x) :
    ∃ u r w, (ops op).run u = .ok (r, w) ∧ x.post = w.retire r ∧
      EffectiveAddress x u.ea.rhu ∧ u.word = x.pre.word ∧ u.acs u.iw.ac = x.pre.acs P ∧
      u.iw.ac = P ∧ u.pc = x.pre.pc ∧ u.inInterrupt = false := by
  obtain ⟨hcycle, last, running, nSteps, w, hlast, hop, hpost⟩ := exists_of_step h
  have hnormal : x.pre.cycle = .normal := hcycle.symm.trans hx.cycle
  let u := x.pre.dispatched last running nSteps
  have hac : u.iw.ac = P := hx.ac
  have hacs : u.acs = x.pre.acs := fetched_acs_of_normal hnormal
  refine ⟨u, _, w, hx.op ▸ hop, hpost, ⟨last, hlast, rfl⟩, fetched_word_of_normal hnormal,
    by rw [hacs, hac], hac, fetched_pc x.pre, ?_⟩
  exact (fetched_inInterrupt_of_normal hnormal).trans hx.inInterrupt

/-- A store in the next slot and a step of the pointer hold one word more. -/
lemma holds_cons {s u t : Cpu} (hroom : StackRoom l r d) (hlt : stack.length < d)
    (h : HoldsStack P l r stack s) (hu : u.word = s.word)
    (ht : t.word = ((u.setWord v (slot r (stack.length + 1))).setAC
      (pointer l r (stack.length + 1)) P).word) :
    HoldsStack P l r (v :: stack) t := by
  have hslot (k : ℕ) (hpos : 1 ≤ k) (hk : k ≤ d) :
      t.word (slot r k) = (u.setWord v (slot r (stack.length + 1))).word (slot r k) := by
    rw [ht, word_setAC_of_ne fun hac => hroom.slot_not_lt hpos hk hac.1]
  refine ⟨?_, ?_, h.words.congr fun k hpos hle => ?_⟩
  · rw [acs_eq_word, ht, ← acs_eq_word, acs_setAC, if_pos rfl]
    rfl
  · rw [hslot _ (Nat.le_add_left 1 _) hlt, word_setWord]
  · have hk : k ≤ d := hle.trans hlt.le
    calc t.word (slot r k)
        = (u.setWord v (slot r (stack.length + 1))).word (slot r k) := hslot k hpos hk
      _ = u.word (slot r k) := word_setWord_of_ne (hroom.slot_ne hk hlt (by omega))
      _ = s.word (slot r k) := by rw [hu]

/-- The next pointer is the one that a push makes. -/
lemma pushedPointer_eq {u : Cpu} (h : u.acs u.iw.ac = pointer l r stack.length) :
    u.pushedPointer = pointer l r (stack.length + 1) := by
  rw [Cpu.pushedPointer, h, pointer, pointer, W36.lhu_halves, W36.rhu_halves, slot_succ,
    BitVec.ofNat_add, ← BitVec.add_assoc]
  rfl

/-- The last pointer is the one that a pop makes. -/
lemma poppedPointer_eq {u : Cpu} (h : u.acs u.iw.ac = pointer l r (stack.length + 1)) :
    u.poppedPointer = pointer l r stack.length := by
  rw [Cpu.poppedPointer, h, pointer, pointer, W36.lhu_halves, W36.rhu_halves, slot_succ,
    BitVec.ofNat_add, ← BitVec.add_assoc, BitVec.add_sub_cancel]
  congr 1
  exact BitVec.add_sub_cancel _ _

/-- **An opening instruction** puts its word on the stack. -/
lemma holds_of_push (hroom : StackRoom l r d) (hlt : stack.length < d)
    (hs : HoldsStack P l r stack x.pre) (h : Step x.pre x.label x.post)
    (hpair : Matched P r d x c) :
    ∃ v, Pushes x v ∧ HoldsStack P l r (v :: stack) x.post := by
  have hcount : (pointer l r (stack.length + 1)).lhu ≠ 0 := by
    rw [pointer, W36.lhu_halves]
    exact hroom.count _ (Nat.le_add_left 1 _) hlt
  rcases hpair with ⟨hx, -, -⟩ | ⟨hx, -⟩
  · obtain ⟨u, res, w, hop, hpost, hE, hword, hacs, hac, hpc, -⟩ := exists_of_stackStep h hx
    have hpointer := pushedPointer_eq (hacs.trans hs.pointer)
    obtain ⟨running, hrun⟩ := run_doPUSH (s := u) (by rw [hpc]; exact hx.pc)
      (by rw [hpointer]; exact hcount)
    rw [ops_PUSH, hrun] at hop
    cases hop
    refine ⟨u.word u.ea.rhu, ⟨fun _ => ⟨_, hE, by rw [hword]⟩,
      fun hop => absurd (hx.op.symm.trans hop) (by decide)⟩, holds_cons hroom hlt hs hword ?_⟩
    rw [hpost, retire_word]
    change ((u.setWord _ u.pushedPointer.rhu).setAC u.pushedPointer u.iw.ac).word = _
    rw [hpointer, hac, pointer, W36.rhu_halves]
  · obtain ⟨u, res, w, hop, hpost, -, hword, hacs, hac, hpc, hin⟩ := exists_of_stackStep h hx
    have hpointer := pushedPointer_eq (hacs.trans hs.pointer)
    obtain ⟨w', hrun, hpushed, -⟩ := run_doPUSHJ_room (s := u) (by rw [hpc]; exact hx.pc)
      (by rw [hpointer]; exact hcount)
    rw [ops_PUSHJ, hrun] at hop
    cases hop
    let v := ({ u with flags := u.flags.clearForCall } : Cpu).saved true
    have hv : v.rhu = x.pre.pc.rhu + 1 := by
      rw [← hpc]
      exact rhu_saved (s := { u with flags := u.flags.clearForCall }) hin true
    refine ⟨v, ⟨fun hop => absurd (hx.op.symm.trans hop) (by decide), fun _ => hv⟩,
      holds_cons hroom hlt hs hword ?_⟩
    rw [hpost, retire_word, hpushed, Cpu.stackSlot, hpointer, hac, pointer, W36.rhu_halves]

/-- A step back of the pointer holds the words below the last one. -/
lemma holds_tail {s t : Cpu} (hlt : stack.length < d) (h : HoldsStack P l r (v :: stack) s)
    (hP : t.acs P = pointer l r stack.length)
    (hwords : ∀ k, 1 ≤ k → k ≤ d → t.word (slot r k) = s.word (slot r k)) :
    HoldsStack P l r stack t :=
  ⟨hP, h.words.2.congr fun k hpos hle => hwords k hpos (hle.trans hlt.le)⟩

/-- **A closing instruction** delivers the last word of the stack. -/
lemma holds_of_pop (hroom : StackRoom l r d) (hlt : stack.length < d)
    (hs : HoldsStack P l r (v :: stack) x.pre) (h : Step x.pre x.label x.post)
    (hpair : Matched P r d o x) :
    Delivers x v ∧ HoldsStack P l r stack x.post := by
  have htop {u : Cpu} (hword : u.word = x.pre.word) (hacs : u.acs u.iw.ac = x.pre.acs P) :
      u.stackTop = v := by
    rw [Cpu.stackTop, hword, hacs, hs.pointer, pointer, W36.rhu_halves]
    exact hs.words.1
  rcases hpair with ⟨-, hx, hapart⟩ | ⟨-, hx⟩
  · obtain ⟨u, res, w, hop, hpost, hE, hword, hacs, hac, hpc, -⟩ := exists_of_stackStep h hx
    have hpointer := poppedPointer_eq (hacs.trans hs.pointer)
    obtain ⟨running, flags, hrun⟩ := run_doPOP (s := u) (by rw [hpc]; exact hx.pc)
    rw [ops_POP, hrun, htop hword hacs, hpointer, hac] at hop
    cases hop
    obtain ⟨hnotP, hnotSlot⟩ := hapart _ hE
    have hpostWord : x.post.word =
        ((u.setAC (pointer l r stack.length) P).setWord v u.ea.rhu).word := by
      rw [hpost, retire_word]
      rfl
    refine ⟨⟨fun _ => ⟨_, hE, ?_⟩, fun hop => absurd (hx.op.symm.trans hop) (by decide)⟩,
      holds_tail hlt hs ?_ fun k hpos hk => ?_⟩
    · rw [hpostWord, word_setWord]
    · rw [acs_eq_word, hpostWord, ← acs_eq_word, acs_setWord,
        if_neg fun hE => hnotP ⟨hE.1, hE.2.symm⟩, acs_setAC, if_pos rfl]
    · calc x.post.word (slot r k)
          = (u.setAC (pointer l r stack.length) P).word (slot r k) := by
            rw [hpostWord, word_setWord_of_ne (hnotSlot k hpos hk)]
        _ = u.word (slot r k) :=
            word_setAC_of_ne fun hac => hroom.slot_not_lt hpos hk hac.1
        _ = x.pre.word (slot r k) := by rw [hword]
  · obtain ⟨u, res, w, hop, hpost, -, hword, hacs, hac, hpc, -⟩ := exists_of_stackStep h hx
    have hpointer := poppedPointer_eq (hacs.trans hs.pointer)
    obtain ⟨running, flags, hrun⟩ := run_doPOPJ (s := u) (by rw [hpc]; exact hx.pc)
    rw [ops_POPJ, hrun, htop hword hacs, hpointer, hac] at hop
    cases hop
    have hpostWord : x.post.word = (u.setAC (pointer l r stack.length) P).word := by
      rw [hpost, retire_word]
      rfl
    refine ⟨⟨fun hop => absurd (hx.op.symm.trans hop) (by decide), fun _ => ?_⟩,
      holds_tail hlt hs ?_ fun k hpos hk => ?_⟩
    · have hnext := (W36.isSection0_iff _).mp hx.next
      have hrhu : x.post.pc.rhu = v.rhu := by
        rw [hpost, W36.rhu_eq_vma, vma_retire_iJump, ← W36.rhu_eq_vma]
        exact W36.rhu_setRhu _ _
      refine ⟨?_, ?_⟩
      · rw [← hrhu, (W36.toNat_rhu_eq_iff _).mpr hnext]
      · rw [hpost, vma_retire_iJump, fetch_vma_retire_iJump]
    · rw [acs_eq_word, hpostWord, ← acs_eq_word, acs_setAC, if_pos rfl]
    · rw [hpostWord, word_setAC_of_ne fun hac => hroom.slot_not_lt hpos hk hac.1, hword]

end Steps

/-! ### A run -/

/-- A word without indirection has one effective address. -/
lemma effectiveAddress_iff {x : PassStep} (h : x.pre.fetchWord.i = false) (E : BitVec 18) :
    EffectiveAddress x E ↔ (W36.ofNat (x.pre.fetched.linkAddress x.pre.fetchWord)).rhu = E := by
  constructor
  · rintro ⟨last, hlast, hE⟩
    cases hlast with
    | here _ => exact hE
    | there hi _ =>
        rw [h] at hi
        cases hi
  · exact fun hE => ⟨_, .here (by rw [h]; rfl), hE⟩

/-- The closing instruction answers the opening one: POP stores the operand of PUSH at its own
address, and POPJ goes on behind PUSHJ. -/
structure Answers (o c : PassStep) : Prop where
  push : o.pre.fetchWord.op.toNat = 0o261 →
    ∃ E E', EffectiveAddress o E ∧ EffectiveAddress c E' ∧ c.post.word E' = o.pre.word E
  pushj : o.pre.fetchWord.op.toNat = 0o260 →
    c.post.pc.vma.toNat = (o.pre.pc.rhu + 1).toNat ∧ c.post.fetchPC.vma = c.post.pc.vma

/-- A pair through which a word has gone. -/
lemma answers_of_word {P : BitVec 4} {r : BitVec 18} {d : ℕ} {o c : PassStep} {v : W36}
    (hpair : Matched P r d o c) (hpushes : Pushes o v) (hdelivers : Delivers c v) :
    Answers o c := by
  rcases hpair with ⟨ho, hc, -⟩ | ⟨ho, hc⟩
  · refine ⟨fun _ => ?_, fun hop => absurd (ho.op.symm.trans hop) (by decide)⟩
    obtain ⟨E, hE, hv⟩ := hpushes.push ho.op
    obtain ⟨E', hE', hv'⟩ := hdelivers.pop hc.op
    exact ⟨E, E', hE, hE', hv'.trans hv.symm⟩
  · refine ⟨fun hop => absurd (ho.op.symm.trans hop) (by decide), fun _ => ?_⟩
    rw [← hpushes.pushj ho.op]
    exact hdelivers.popj hc.op

/-- **Well-bracketed use of the stack**: in a run whose stack instructions are bracketed at most
`d` deep, every closing instruction answers its opening one, and the pointer is at the end what it
was at the beginning. -/
theorem bracketed_stack {P : BitVec 4} {l r : BitVec 18} {d : ℕ} {s : Cpu} {steps : List PassStep}
    {pairs : List (PassStep × PassStep)} (hroom : StackRoom l r d) (h : Trace Step s steps)
    (hbracketed : Bracketed (LeavesStack P r d) (Matched P r d) d steps pairs)
    (hs : s.acs P = W36.halves l r) :
    (∀ x ∈ pairs, Answers x.1 x.2) ∧ (Trace.final s steps).acs P = W36.halves l r := by
  have hempty : HoldsStack P l r [] s := by
    refine ⟨?_, trivial⟩
    rw [hs, pointer, slot]
    simp
  obtain ⟨hend, hpairs⟩ := hbracketed.run (HoldsStack P l r) Pushes Delivers
    (fun {stack s e t} hholds hle _ hleaves =>
      ⟨hleaves.pointer.trans hholds.pointer, hholds.words.congr fun k hpos hk =>
        hleaves.words k hpos (hk.trans hle)⟩)
    (fun {stack s e t c} hholds hlt hst hpair => holds_of_push hroom hlt hholds hst hpair)
    (fun {stack v s e t o} hholds hlt hst hpair => holds_of_pop hroom hlt hholds hst hpair)
    h hempty (Nat.zero_add d).le
  constructor
  · intro x hx
    obtain ⟨v, hpushes, hdelivers⟩ := hpairs x hx
    exact answers_of_word (hbracketed.pair_of_mem x hx) hpushes hdelivers
  · rw [hend.pointer, pointer, slot]
    simp

/-- A subroutine that saves a word on the stack and takes it back.  The stack of accumulator 17
begins at location 3000. -/
def Cpu.atCall : Cpu :=
  { Cpu.initial with
    running := true
    memP := fun a =>
      if a = 0o1000 then W36.assemble 0o260 0o17 false 0 0o2000
      else if a = 0o2000 then W36.assemble 0o261 0o17 false 0 0o4000
      else if a = 0o2001 then W36.assemble 0o262 0o17 false 0 0o4001
      else if a = 0o2002 then W36.assemble 0o263 0o17 false 0 0
      else if a = 0o4000 then 0o123
      else 0
    ACBlocks := fun _ n => if n = 0o17 then W36.halves (-0o10) 0o2777 else 0
    pc := 0o1000
    fetchPC := 0o1000 }

/-- A pass that executes an instruction of a program. -/
def Cpu.stepBy (s : Cpu) (r : IResult) : PassStep := ⟨s, (.normal, r), s.next⟩

def callPass : PassStep := Cpu.atCall.stepBy .iJump
def pushPass : PassStep := callPass.post.stepBy .iNormal
def popPass : PassStep := pushPass.post.stepBy .iNormal
def popjPass : PassStep := popPass.post.stepBy .iJump

/-- A run that begins with such a pass. -/
lemma trace_stepBy {s : Cpu} {r : IResult} {steps : List PassStep}
    (h : Step s (.normal, r) s.next) (rest : Trace Step (s.stepBy r).post steps) :
    Trace Step s (s.stepBy r :: steps) := .cons h rest

lemma trace_call : Trace Step Cpu.atCall [callPass, pushPass, popPass, popjPass] := by
  refine trace_stepBy (step_next (by decide +kernel)) ?_
  refine trace_stepBy (step_next (by decide +kernel)) ?_
  refine trace_stepBy (step_next (by decide +kernel)) ?_
  exact trace_stepBy (step_next (by decide +kernel)) (.nil _)

lemma stackRoom_call : StackRoom (-0o10) 0o2777 2 where
  count := by
    intro k hpos hk
    interval_cases k <;> decide
  low := by decide
  high := by decide

lemma matched_call : Matched 0o17 0o2777 2 callPass popjPass :=
  .inr ⟨⟨rfl, by decide +kernel, by decide +kernel, by decide +kernel, by decide +kernel,
    by decide +kernel⟩, ⟨rfl, by decide +kernel, by decide +kernel, by decide +kernel,
    by decide +kernel, by decide +kernel⟩⟩

lemma matched_push : Matched 0o17 0o2777 2 pushPass popPass := by
  refine .inl ⟨⟨rfl, by decide +kernel, by decide +kernel, by decide +kernel, by decide +kernel,
    by decide +kernel⟩, ⟨rfl, by decide +kernel, by decide +kernel, by decide +kernel,
    by decide +kernel, by decide +kernel⟩, fun E hE => ?_⟩
  have hE : E = 0o4001 := by
    rw [← (effectiveAddress_iff (by decide +kernel) E).mp hE]
    decide +kernel
  rw [hE]
  refine ⟨by decide, fun k hpos hk => ?_⟩
  interval_cases k <;> decide

theorem bracketed_stack_call : Answers callPass popjPass ∧ Answers pushPass popPass ∧
    popjPass.post.acs 0o17 = W36.halves (-0o10) 0o2777 := by
  have hinner : Bracketed (LeavesStack 0o17 0o2777 2) (Matched 0o17 0o2777 2) 1
      [pushPass, popPass] [(pushPass, popPass)] :=
    Bracketed.nest matched_push (.nil 0) (.nil 1)
  have hbracketed : Bracketed (LeavesStack 0o17 0o2777 2) (Matched 0o17 0o2777 2) 2
      (callPass :: ([pushPass, popPass] ++ popjPass :: []))
      ((callPass, popjPass) :: ([(pushPass, popPass)] ++ [])) :=
    Bracketed.nest matched_call hinner (.nil 2)
  obtain ⟨hanswers, hend⟩ := bracketed_stack stackRoom_call trace_call hbracketed rfl
  exact ⟨hanswers (callPass, popjPass) List.mem_cons_self,
    hanswers (pushPass, popPass) (List.mem_cons_of_mem _ List.mem_cons_self), hend⟩

end KM10
