import KM10.Effects.Address

/-!
The effective address of section 0.

`getEA` adds whole index registers to the address and never reduces the sum.  The low 18 bits of
what it returns are nevertheless the effective address of section 0.

* `EaFields`, `Cpu.eaAddress`, `IsEffectiveAddress`: the reference, which reduces every sum;
* `Cpu.eaNext`: the links of the chain of indirect words;
* `run_getEALoop_fields`: the loop of `getEA` along the chain;
* `AgreeAlong`: what the effective address depends on;
* `getEA_reference`: `getEA` against the reference.
-/

namespace KM10

open StateExcept

/-! ### The reference -/

/-- The fields of a word that take part in an address calculation. -/
structure EaFields where
  i : Bool
  x : BitVec 4
  y : BitVec 18
deriving DecidableEq

/-- The I, X and Y fields of a word. -/
def W36.eaFields (w : W36) : EaFields := ⟨w.i, w.x, w.y⟩

/-- The address that the fields name, with the right half of the index register. -/
def Cpu.eaAddress (s : Cpu) (f : EaFields) : BitVec 18 :=
  if f.x ≠ 0 then f.y + (s.acs f.x).rhu else f.y

/-- The fields of the word at that address. -/
def Cpu.eaNext (s : Cpu) (f : EaFields) : EaFields := (s.word (s.eaAddress f)).eaFields

/-- The effective address: the address that the fields name, or if I is set the effective address
of the fields of the word there. -/
inductive IsEffectiveAddress (s : Cpu) : EaFields → BitVec 18 → Prop where
  | direct {f : EaFields} (h : f.i = false) : IsEffectiveAddress s f (s.eaAddress f)
  | indirect {f : EaFields} {e : BitVec 18} (h : f.i = true)
      (rest : IsEffectiveAddress s (s.eaNext f) e) : IsEffectiveAddress s f e

/-- There is at most one. -/
lemma IsEffectiveAddress.unique {s : Cpu} {f : EaFields} {d e : BitVec 18}
    (h : IsEffectiveAddress s f d) (h' : IsEffectiveAddress s f e) : d = e := by
  induction h with
  | direct hi =>
    cases h' with
    | direct => rfl
    | indirect hi' => rw [hi] at hi'; cases hi'
  | indirect hi _ ih =>
    cases h' with
    | direct hi' => rw [hi] at hi'; cases hi'
    | indirect _ rest => exact ih rest

/-! ### The chain -/

/-- The chain of indirect words from the fields on ends with fields without I. -/
abbrev EaEnds (s : Cpu) : EaFields → EaFields → Prop := Chase.Ends s.eaNext fun f => !f.i

lemma isEffectiveAddress_iff {s : Cpu} {f : EaFields} {e : BitVec 18} :
    IsEffectiveAddress s f e ↔ ∃ last, EaEnds s f last ∧ s.eaAddress last = e := by
  constructor
  · intro h
    induction h with
    | direct hi => exact ⟨_, .here (by rw [hi]; rfl), rfl⟩
    | indirect hi _ ih =>
      obtain ⟨last, hlast, he⟩ := ih
      exact ⟨last, .there (by rw [hi]; rfl) hlast, he⟩
  · rintro ⟨last, hlast, rfl⟩
    induction hlast with
    | here hi => exact .direct (Bool.not_eq_true' _ ▸ hi)
    | there hi _ ih => exact .indirect (Bool.not_eq_false' _ ▸ hi) ih

/-! ### The loop -/

lemma ofNat_toNat_eq_rhu (w : W36) : BitVec.ofNat 18 w.toNat = w.rhu := by
  apply BitVec.eq_of_toNat_eq
  rw [BitVec.toNat_ofNat, W36.rhu, BitVec.extractLsb'_toNat, Nat.shiftRight_zero]

/-- The indexing step, of which the reference takes the low 18 bits. -/
lemma run_indexed_low (x : BitVec 4) (y : ℕ) (i : Bool) (s : Cpu) :
    ∃ sum, (indexed x y).run s = .ok (sum, s) ∧
      BitVec.ofNat 18 sum = s.eaAddress ⟨i, x, .ofNat 18 y⟩ := by
  rw [indexed, Cpu.eaAddress]
  by_cases hx : x ≠ 0
  · have hac : (acGetN x.toNat).run s = .ok (s.acs x, s) := by
      rw [acGetN, if_pos x.isLt, run_gets, BitVec.ofNat_toNat, BitVec.setWidth_eq]
    rw [if_pos hx, if_pos hx, run_bind_of_ok hac]
    refine ⟨_, rfl, ?_⟩
    rw [BitVec.ofNat_add, ofNat_toNat_eq_rhu]
  · rw [if_neg hx, if_neg hx]
    exact ⟨y, rfl, rfl⟩

/-- The loop follows the chain, by induction on its rounds; on the way it at most stops the
machine. -/
lemma run_getEALoop_fields (fuel : ℕ) (i : Bool) (x : BitVec 4) (y : ℕ) (s : Cpu) :
    (Chase.follow s.eaNext (fun f => !f.i) fuel ⟨i, x, .ofNat 18 y⟩ = none ∧
        (getEALoop fuel i x y).run s = .error .hang) ∨
      ∃ last ea running,
        Chase.follow s.eaNext (fun f => !f.i) fuel ⟨i, x, .ofNat 18 y⟩ = some last ∧
        (getEALoop fuel i x y).run s = .ok (ea, { s with running := running }) ∧
        BitVec.ofNat 18 ea = s.eaAddress last := by
  induction fuel generalizing i x y s with
  | zero => exact .inl ⟨rfl, rfl⟩
  | succ fuel ih =>
    obtain ⟨sum, hsum, hlow⟩ := run_indexed_low x y i s
    rw [getEALoop, run_bind_of_ok hsum, Chase.follow]
    cases i with
    | false => exact .inr ⟨_, sum, s.running, rfl, rfl, hlow⟩
    | true =>
      obtain ⟨running, hget⟩ := exists_run_memGetN (W36.ofNat sum) s
      let t : Cpu := { s with running := running }
      let w := s.word (W36.ofNat sum).rhu
      have hnext : s.eaNext ⟨true, x, .ofNat 18 y⟩ = ⟨w.i, w.x, .ofNat 18 w.y.toNat⟩ := by
        have hrhu : (W36.ofNat sum).rhu = .ofNat 18 sum := by
          apply BitVec.eq_of_toNat_eq
          rw [W36.toNat_rhu_ofNat, BitVec.toNat_ofNat]
        rw [Cpu.eaNext, ← hlow, ← hrhu, BitVec.ofNat_toNat, BitVec.setWidth_eq]
        rfl
      simp only [if_true, Bool.not_true, Bool.false_eq_true, if_false]
      rw [run_bind_of_ok hget, hnext]
      -- the machine after the fetch of the link has the same links
      exact ih w.i w.x w.y.toNat t

/-- The next fields depend only on an address of 18 bits, so that `eaRounds` rounds find the end of
the chain if there is one. -/
lemma follow_of_eaEnds {s : Cpu} {f last : EaFields} (h : EaEnds s f last) :
    Chase.follow s.eaNext (fun f => !f.i) eaRounds f = some last := by
  refine Chase.follow_of_ends (fun f => (s.eaAddress f).isLt) ?_ h
  intro a b hab
  rw [Cpu.eaNext, Cpu.eaNext, BitVec.eq_of_toNat_eq hab]

section Returns

variable {s : Cpu} {i : Bool} {x : BitVec 4} {y : ℕ}

/-- With an end of the chain `getEA` returns. -/
lemma exists_run_getEA {last : EaFields} (h : EaEnds s ⟨i, x, .ofNat 18 y⟩ last) :
    ∃ ea running, (getEA i x y).run s = .ok (ea, { s with running := running }) ∧
      BitVec.ofNat 18 ea = s.eaAddress last := by
  rcases run_getEALoop_fields eaRounds i x y s with
    ⟨hnone, -⟩ | ⟨last', ea, running, hsome, hrun, hea⟩
  · rw [follow_of_eaEnds h] at hnone
    cases hnone
  · rw [follow_of_eaEnds h] at hsome
    cases hsome
    exact ⟨ea, running, hrun, hea⟩

/-- And it returns only with one. -/
lemma eaEnds_of_run {ea : ℕ} {u : Cpu} (h : (getEA i x y).run s = .ok (ea, u)) :
    ∃ last, EaEnds s ⟨i, x, .ofNat 18 y⟩ last ∧ BitVec.ofNat 18 ea = s.eaAddress last := by
  rcases run_getEALoop_fields eaRounds i x y s with
    ⟨-, hrun⟩ | ⟨last, ea', running, hsome, hrun, hea⟩
  · rw [getEA, hrun] at h
    cases h
  · rw [getEA, hrun, Except.ok.injEq, Prod.mk.injEq] at h
    exact ⟨last, Chase.ends_of_follow hsome, h.1 ▸ hea⟩

end Returns

/-! ### What it depends on -/

/-- The machines agree on what one link reads: the right half of its index register, and if I is
set the fields of the word at its address. -/
def AgreeAt (s t : Cpu) (f : EaFields) : Prop :=
  (f.x ≠ 0 → (t.acs f.x).rhu = (s.acs f.x).rhu) ∧
    (f.i = true → (t.word (s.eaAddress f)).eaFields = s.eaNext f)

/-- The machines agree on what each link of the chain reads. -/
def AgreeAlong (s t : Cpu) (f : EaFields) : Prop :=
  ∀ n, (∀ k < n, (s.eaNext^[k] f).i = true) → AgreeAt s t (s.eaNext^[n] f)

lemma IsEffectiveAddress.of_agreeAlong {s t : Cpu} {f : EaFields} {e : BitVec 18}
    (h : IsEffectiveAddress s f e) (hagree : AgreeAlong s t f) : IsEffectiveAddress t f e := by
  have haddress {f : EaFields} (h : AgreeAt s t f) : t.eaAddress f = s.eaAddress f := by
    rw [Cpu.eaAddress, Cpu.eaAddress]
    split
    case isTrue hx => rw [h.1 hx]
    case isFalse => rfl
  induction h with
  | @direct f hi =>
    have hat : AgreeAt s t f := hagree 0 nofun
    rw [← haddress hat]
    exact .direct hi
  | @indirect f e hi _ ih =>
    have hat : AgreeAt s t f := hagree 0 nofun
    refine .indirect hi ?_
    rw [Cpu.eaNext, haddress hat, hat.2 hi]
    refine ih fun n hn => hagree (n + 1) fun k hk => ?_
    cases k with
    | zero => exact hi
    | succ k => exact hn k (by omega)

/-- `getEA` returns if and only if the chain of indirect words is finite.  The low 18 bits of its
result are then the effective address, and depend only on the low 18 bits of the given address, the
right halves of the index registers and the I, X and Y fields of the words on the chain. -/
theorem getEA_reference (s : Cpu) (i : Bool) (x : BitVec 4) (y : ℕ) :
    let f : EaFields := ⟨i, x, .ofNat 18 y⟩
    ((∃ p, (getEA i x y).run s = .ok p) ↔ ∃ n, (s.eaNext^[n] f).i = false) ∧
      ∀ ea u, (getEA i x y).run s = .ok (ea, u) →
        IsEffectiveAddress s f (.ofNat 18 ea) ∧
        ∀ t, AgreeAlong s t f → ∀ y', BitVec.ofNat 18 y' = .ofNat 18 y →
          ∃ ea' v, (getEA i x y').run t = .ok (ea', v) ∧
            BitVec.ofNat 18 ea' = .ofNat 18 ea := by
  refine ⟨⟨?_, ?_⟩, fun ea u hrun => ?_⟩
  · rintro ⟨⟨ea, u⟩, hrun⟩
    obtain ⟨last, hlast, -⟩ := eaEnds_of_run hrun
    obtain ⟨n, hn, hstop, -⟩ := hlast.exists_iterate
    exact ⟨n, by rw [hn]; exact Bool.not_eq_true' _ ▸ hstop⟩
  · rintro ⟨n, hn⟩
    obtain ⟨last, hlast⟩ := @Chase.ends_of_iterate _ s.eaNext (fun f => !f.i)
      ⟨i, x, .ofNat 18 y⟩ n (by rw [hn]; rfl)
    obtain ⟨ea, running, hrun, -⟩ := exists_run_getEA hlast
    exact ⟨_, hrun⟩
  · obtain ⟨last, hlast, hea⟩ := eaEnds_of_run hrun
    have href : IsEffectiveAddress s ⟨i, x, .ofNat 18 y⟩ (.ofNat 18 ea) :=
      isEffectiveAddress_iff.mpr ⟨last, hlast, hea.symm⟩
    refine ⟨href, fun t hagree y' hy => ?_⟩
    obtain ⟨last', hlast', hea'⟩ := isEffectiveAddress_iff.mp (href.of_agreeAlong hagree)
    rw [← hy] at hlast'
    obtain ⟨ea', running, hrun', hlow⟩ := exists_run_getEA hlast'
    exact ⟨ea', _, hrun', hlow.trans hea'⟩

/-- A machine with a chain of two links, both indexed, to an indexed address. -/
def Cpu.withChain : Cpu :=
  { Cpu.initial with
    ACBlocks := fun _ n => if n = 1 then .halves 0o777777 3 else if n = 2 then 5 else 0
    memP := fun a =>
      if a = 0o103 then W36.assemble 0 0 true 2 0o200
      else if a = 0o205 then W36.assemble 0 0 false 1 0o400
      else 0 }

theorem getEA_reference_chain :
    IsEffectiveAddress Cpu.withChain ⟨true, 1, 0o100⟩ 0o403 ∧
      ∃ ea v, (getEA true 1 (2 ^ 18 + 0o100)).run Cpu.withChain = .ok (ea, v) ∧
        BitVec.ofNat 18 ea = 0o403 := by
  obtain ⟨hreturns, hreference⟩ := getEA_reference Cpu.withChain true 1 0o100
  obtain ⟨⟨ea, u⟩, hrun⟩ := hreturns.mpr ⟨2, by decide +kernel⟩
  have hea : BitVec.ofNat 18 ea = 0o403 := by
    rw [run_eq_of_returned (a := 0o777777000403) (by decide +kernel)] at hrun
    cases hrun
    decide
  obtain ⟨haddress, hagree⟩ := hreference ea u hrun
  obtain ⟨ea', v, hrun', hsame⟩ :=
    hagree Cpu.withChain (fun _ _ => ⟨fun _ => rfl, fun _ => rfl⟩) (2 ^ 18 + 0o100) (by decide)
  exact ⟨hea ▸ haddress, ea', v, hrun', hsame.trans hea⟩

end KM10
