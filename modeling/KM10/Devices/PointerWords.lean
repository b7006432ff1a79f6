import KM10.Effects.OnDevice

/-!
Block input and output.

BLKI and BLKO step the pointer word at the effective address and call the DATAI or DATAO of the
device for the word that it points to.  Those handlers use the effective address of the
instruction instead, which is that of the pointer.

* `Cpu.stepped`, `Cpu.takeWord`, `run_doBLKI`, `run_doBLKO`: what one execution does;
* `Cpu.repeated`: a number of executions at one address;
* `InputsBlock`, `OutputsBlock`: what they should do to a block of words;
* `blocks_iff`: when they do.
-/

namespace KM10

open StateExcept

/-! ### One execution -/

/-- The pointer word at the effective address, with both halves stepped. -/
def Cpu.stepped (s : Cpu) : W36 :=
  W36.halves ((s.word s.ea.rhu).lhu + 1) ((s.word s.ea.rhu).rhu + 1)

/-- The result of BLKI and BLKO for a new count. -/
def skipUnlessZero (count : BitVec 18) : IResult := if count ≠ 0 then .iSkip else .iNormal

/-- The word that the DATAI of a device delivers. -/
def Devices.dataWord (d : Devices) : DeviceName → W36
  | .apr => d.apr.breakState
  | .pag => ProcessContext.u { d.pag.processContext with
      loadUserBase := false, selectPrevContext := false, selectACBlocks := false }
  | _ => 0

/-- The devices once a handler has started the sweep of the cache control device. -/
def Devices.sweptFor (d : Devices) (dev : DeviceName) : Devices :=
  if dev = .cca then d.startSweep else d

/-- The process context is loaded from a word. -/
def Cpu.loadContext (s : Cpu) (w : W36) : Cpu :=
  { s with
    pag := { s.pag with processContext := s.pag.processContext.load (.ofBits w) }
    AC := if (ProcessContext.ofBits w).selectACBlocks then (ProcessContext.ofBits w).curACBlock
      else s.AC }

/-- What the DATAO of a device does with a word.  Only that of the pager looks at it. -/
def Cpu.takeWord (s : Cpu) (dev : DeviceName) (w : W36) : Cpu :=
  if dev = .pag then s.loadContext w else { s with toDevices := s.toDevices.sweptFor dev }

/-- Of two stores at one address the second one counts. -/
lemma setWord_setWord (s : Cpu) (v w : W36) (a : BitVec 18) :
    (s.setWord v a).setWord w a = s.setWord w a := by
  have hif (c : Prop) [Decidable c] (x : W36) :
      (if c then w else if c then v else x) = if c then w else x := by
    split <;> rfl
  simp only [Cpu.setWord]
  split
  · exact congrArg (fun blocks => { s with ACBlocks := blocks })
      (funext fun b => funext fun m => hif (b = s.AC ∧ m = a.setWidth 4) (s.ACBlocks b m))
  · exact congrArg (fun memP => { s with memP := memP }) (funext fun m => hif (m = a) (s.memP m))

lemma setWord_with_devices (s : Cpu) (d : Devices) (v : W36) (a : BitVec 18) :
    ({ s with toDevices := d } : Cpu).setWord v a = { s.setWord v a with toDevices := d } := by
  simp only [Cpu.setWord]
  split <;> rfl

lemma run_sweepFirst (dev : DeviceName) (s : Cpu) :
    (sweepFirst dev).run s = .ok ((), { s with toDevices := s.toDevices.sweptFor dev }) := by
  rw [sweepFirst, Devices.sweptFor]
  split <;> rfl

lemma exists_run_memGet (s : Cpu) :
    ∃ running, memGet.run s = .ok (s.word s.ea.rhu, { s with running := running }) :=
  ⟨_, run_memGet s⟩

lemma exists_run_memPut (v : W36) (s : Cpu) : ∃ running,
    (memPut v).run s = .ok ((), { s.setWord v s.ea.rhu with running := running }) :=
  ⟨_, run_memPut v s⟩

lemma run_stepPointer (s : Cpu) : ∃ running, stepPointer.run s =
    .ok (s.stepped, { s.setWord s.stepped s.ea.rhu with running := running }) := by
  obtain ⟨running, hget⟩ := exists_run_memGet s
  obtain ⟨running', hput⟩ := exists_run_memPut s.stepped { s with running := running }
  rw [setWord_running] at hput
  refine ⟨running', ?_⟩
  rw [stepPointer, run_bind_of_ok hget]
  exact (run_bind_of_ok hput).trans rfl

/-- DATAI stores the word of the device at the effective address. -/
lemma run_doDATAI (dev : DeviceName) (s : Cpu) : ∃ running, (doDATAI dev).run s =
    .ok (.iNormal, { s.setWord (s.dataWord dev) s.ea.rhu with
      toDevices := s.toDevices.sweptFor dev, running := running }) := by
  obtain ⟨running, hput⟩ :=
    exists_run_memPut (s.dataWord dev) { s with toDevices := s.toDevices.sweptFor dev }
  rw [setWord_with_devices] at hput
  refine ⟨running, ?_⟩
  rw [doDATAI, run_bind_of_ok (run_sweepFirst dev s), run_bind_of_ok (run_gets Cpu.toDevices _)]
  cases dev <;> exact (run_bind_of_ok hput).trans rfl

/-- DATAO gives the device the word at the effective address. -/
lemma run_doDATAO {dev : DeviceName} (hdev : dev ≠ .apr) (s : Cpu) : ∃ r running,
    (doDATAO dev).run s =
      .ok (r, { s.takeWord dev (s.word s.ea.rhu) with running := running }) := by
  rw [doDATAO, Cpu.takeWord]
  by_cases hpag : dev = .pag
  · rw [if_pos hpag, if_pos hpag]
    obtain ⟨running, hget⟩ := exists_run_memGet s
    refine ⟨.iNormal, running, ?_⟩
    have hswitch (select : Bool) (b : BitVec 3) (u : Cpu) :
        (if select then updateACBlock b else pure () : Exec Unit).run u =
          .ok ((), { u with AC := if select then b else u.AC }) := by
      cases select <;> rfl
    rw [doPAGDATAO, run_bind_of_ok hget]
    simp only []
    refine (run_bind_of_ok (a := ()) (t := { s.loadContext (s.word s.ea.rhu) with
      AC := s.AC, running := running }) rfl).trans ?_
    exact (run_bind_of_ok (hswitch _ _ _)).trans rfl
  · rw [if_neg hpag, if_neg hpag, if_neg hdev, run_bind_of_ok (run_sweepFirst dev s)]
    exact ⟨.iNoSuchDevice, s.running, rfl⟩

/-- **BLKI** of the code: the word of the device overwrites the pointer. -/
lemma run_doBLKI {dev : DeviceName} (hdev : dev ≠ .apr) (s : Cpu) : ∃ running,
    (doBLKI dev).run s = .ok (skipUnlessZero s.stepped.lhu,
      { s.setWord (s.dataWord dev) s.ea.rhu with
        toDevices := s.toDevices.sweptFor dev, running := running }) := by
  obtain ⟨running, hpointer⟩ := run_stepPointer s
  obtain ⟨running', hdata⟩ :=
    run_doDATAI dev { s.setWord s.stepped s.ea.rhu with running := running }
  have hdata : (doDATAI dev).run { s.setWord s.stepped s.ea.rhu with running := running } =
      .ok (.iNormal, { s.setWord (s.dataWord dev) s.ea.rhu with
        toDevices := s.toDevices.sweptFor dev, running := running' }) := by
    rw [hdata, setWord_running, setWord_ea, setWord_toDevices, setWord_setWord]
  refine ⟨running', ?_⟩
  rw [doBLKI, if_neg hdev, run_bind_of_ok hpointer]
  exact (run_bind_of_ok hdata).trans rfl

/-- A second start of a sweep changes nothing. -/
lemma takeWord_sweptFor (s : Cpu) (dev : DeviceName) (w : W36) :
    ({ s with toDevices := s.toDevices.sweptFor dev } : Cpu).takeWord dev w = s.takeWord dev w := by
  cases dev <;> rfl

/-- **BLKO** of the code: the device takes the pointer. -/
lemma run_doBLKO {dev : DeviceName} (hdev : dev ≠ .apr) (s : Cpu) : ∃ running,
    (doBLKO dev).run s = .ok (skipUnlessZero s.stepped.lhu,
      { (s.setWord s.stepped s.ea.rhu).takeWord dev s.stepped with running := running }) := by
  let u : Cpu := { s with toDevices := s.toDevices.sweptFor dev }
  obtain ⟨running, hpointer⟩ := run_stepPointer u
  obtain ⟨r, running', hdata⟩ :=
    run_doDATAO hdev { u.setWord s.stepped s.ea.rhu with running := running }
  have hword : ({ u.setWord s.stepped s.ea.rhu with running := running } : Cpu).word
      ({ u.setWord s.stepped s.ea.rhu with running := running } : Cpu).ea.rhu = s.stepped := by
    change (u.setWord s.stepped s.ea.rhu).word (u.setWord s.stepped s.ea.rhu).ea.rhu = _
    rw [setWord_ea]
    exact word_setWord u s.stepped s.ea.rhu
  have hdata : (doDATAO dev).run { u.setWord s.stepped s.ea.rhu with running := running } =
      .ok (r, { (s.setWord s.stepped s.ea.rhu).takeWord dev s.stepped with
        running := running' }) := by
    have htake := takeWord_sweptFor (s.setWord s.stepped s.ea.rhu) dev s.stepped
    rw [setWord_toDevices] at htake
    have hu : u.setWord s.stepped s.ea.rhu =
        { s.setWord s.stepped s.ea.rhu with toDevices := s.toDevices.sweptFor dev } :=
      setWord_with_devices _ _ _ _
    rw [hdata, hword, ← htake, hu]
    cases dev <;> rfl
  refine ⟨running', ?_⟩
  rw [doBLKO, if_neg hdev, run_bind_of_ok (run_sweepFirst dev s), run_bind_of_ok hpointer]
  exact (run_bind_of_ok hdata).trans rfl

/-! ### Executions at one address -/

/-- The machine after a number of executions. -/
def Cpu.repeated (m : Exec IResult) (s : Cpu) : ℕ → Cpu
  | 0 => s
  | i + 1 => final m (s.repeated m i)

/-- The count of the pointer word at the effective address after `i` steps. -/
def Cpu.blockCount (s : Cpu) (i : ℕ) : BitVec 18 := (s.word s.ea.rhu).lhu + BitVec.ofNat 18 i

/-- Its address after `i` steps. -/
def Cpu.blockAddress (s : Cpu) (i : ℕ) : BitVec 18 := (s.word s.ea.rhu).rhu + BitVec.ofNat 18 i

/-- The pointer word after `i` steps. -/
def Cpu.blockPointer (s : Cpu) (i : ℕ) : W36 := W36.halves (s.blockCount i) (s.blockAddress i)

/-- Each of `n` executions returns, and skips exactly when its new count is not zero. -/
def SkipsByCount (m : Exec IResult) (s : Cpu) (n : ℕ) : Prop :=
  ∀ i < n, m.run (s.repeated m i) =
    .ok (skipUnlessZero (s.blockCount (i + 1)), s.repeated m (i + 1))

/-- What `n` executions of BLKI should do: the words of the device are in the block, the pointer
has been stepped `n` times, and the other words are as they were. -/
structure InputsBlock (dev : DeviceName) (s : Cpu) (n : ℕ) : Prop where
  results : SkipsByCount (doBLKI dev) s n
  stored : ∀ i < n, (s.repeated (doBLKI dev) n).word (s.blockAddress (i + 1)) =
    (s.repeated (doBLKI dev) i).dataWord dev
  pointer : (s.repeated (doBLKI dev) n).word s.ea.rhu = s.blockPointer n
  others : ∀ a, a ≠ s.ea.rhu → (∀ i < n, a ≠ s.blockAddress (i + 1)) →
    (s.repeated (doBLKI dev) n).word a = s.word a

/-- The machine after a DATAO with an effective address. -/
def Cpu.outputAt (s : Cpu) (dev : DeviceName) (a : BitVec 18) : Cpu :=
  final (doDATAO dev) { s with ea := W36.halves 0 a }

/-- The same devices and the same current block. -/
structure SameRegisters (s t : Cpu) : Prop where
  toDevices : t.toDevices = s.toDevices
  AC : t.AC = s.AC

/-- The same words in memory and in all blocks. -/
structure SameMemory (s t : Cpu) : Prop where
  memP : t.memP = s.memP
  ACBlocks : t.ACBlocks = s.ACBlocks

/-- What `n` executions of BLKO should do: each of them does to the device what a DATAO of the
next word of the block does, and of the memory only the pointer changes. -/
structure OutputsBlock (dev : DeviceName) (s : Cpu) (n : ℕ) : Prop where
  results : SkipsByCount (doBLKO dev) s n
  handed : ∀ i < n,
    SameRegisters ((s.repeated (doBLKO dev) i).outputAt dev (s.blockAddress (i + 1)))
      (s.repeated (doBLKO dev) (i + 1))
  memory : SameMemory (s.setWord (s.blockPointer n) s.ea.rhu) (s.repeated (doBLKO dev) n)

/-- Results agree if both counts are zero or both are not. -/
lemma skipUnlessZero_eq_iff {c d : BitVec 18} :
    skipUnlessZero c = skipUnlessZero d ↔ (c = 0 ↔ d = 0) := by
  have hzero {c : BitVec 18} (hc : c = 0) : skipUnlessZero c = .iNormal := if_neg (not_not.mpr hc)
  have hne {c : BitVec 18} (hc : c ≠ 0) : skipUnlessZero c = .iSkip := if_pos hc
  by_cases hc : c = 0 <;> by_cases hd : d = 0
  · rw [hzero hc, hzero hd]
    exact iff_of_true rfl (iff_of_true hc hd)
  · rw [hzero hc, hne hd]
    exact iff_of_false IResult.noConfusion fun h => hd (h.mp hc)
  · rw [hne hc, hzero hd]
    exact iff_of_false IResult.noConfusion fun h => hc (h.mpr hd)
  · rw [hne hc, hne hd]
    exact iff_of_true rfl (iff_of_false hc hd)

/-- No step leaves the pointer as it is. -/
lemma blockPointer_zero (s : Cpu) : s.blockPointer 0 = s.word s.ea.rhu := by
  rw [Cpu.blockPointer, Cpu.blockCount, Cpu.blockAddress]
  simp

lemma blockCount_succ (s : Cpu) (i : ℕ) : s.blockCount (i + 1) = s.blockCount i + 1 := by
  rw [Cpu.blockCount, Cpu.blockCount, BitVec.ofNat_add, BitVec.add_assoc]
  rfl

lemma blockAddress_succ (s : Cpu) (i : ℕ) : s.blockAddress (i + 1) = s.blockAddress i + 1 := by
  rw [Cpu.blockAddress, Cpu.blockAddress, BitVec.ofNat_add, BitVec.add_assoc]
  rfl

/-! ### Input -/

/-- The word of the device is the pointer stepped `n` times and is in the whole block already, and
the counts lead to the same results as that of the word. -/
structure DataInPlace (dev : DeviceName) (s : Cpu) (n : ℕ) : Prop where
  pointer : s.blockPointer n = s.dataWord dev
  block : ∀ i < n, s.word (s.blockAddress (i + 1)) = s.dataWord dev
  counts : ∀ i < n, i ≠ 0 → (s.blockCount (i + 1) = 0 ↔ s.blockCount (n + 1) = 0)

/-- A sweep does not concern what the device delivers. -/
lemma dataWord_sweptFor (d : Devices) (dev : DeviceName) :
    (d.sweptFor dev).dataWord dev = d.dataWord dev := by
  cases dev <;> rfl

section Input

variable {dev : DeviceName} (hdev : dev ≠ .apr) (s : Cpu)
include hdev

/-- After some executions of BLKI the pointer is the word of the device. -/
lemma repeated_BLKI (i : ℕ) :
    (s.repeated (doBLKI dev) i).ea = s.ea ∧
      (s.repeated (doBLKI dev) i).dataWord dev = s.dataWord dev ∧
      ∀ a, (s.repeated (doBLKI dev) i).word a =
        if i ≠ 0 ∧ a = s.ea.rhu then s.dataWord dev else s.word a := by
  induction i with
  | zero => exact ⟨rfl, rfl, fun a => (if_neg fun h => h.1 rfl).symm⟩
  | succ i ih =>
      obtain ⟨hea, hdata, hword⟩ := ih
      obtain ⟨running, hrun⟩ := run_doBLKI hdev (s.repeated (doBLKI dev) i)
      rw [Cpu.repeated, final_of_run hrun, hdata, hea]
      refine ⟨(setWord_ea _ _ _).trans hea, (dataWord_sweptFor _ _).trans hdata, fun a => ?_⟩
      change ((s.repeated (doBLKI dev) i).setWord (s.dataWord dev) s.ea.rhu).word a = _
      by_cases ha : a = s.ea.rhu
      · rw [ha, word_setWord, if_pos ⟨i.succ_ne_zero, rfl⟩]
      · rw [word_setWord_of_ne ha, hword, if_neg fun h => ha h.2, if_neg fun h => ha h.2]

/-- The first result of BLKI goes by the count of the pointer, the others by that of the word of
the device. -/
lemma run_repeated_BLKI (i : ℕ) :
    (doBLKI dev).run (s.repeated (doBLKI dev) i) =
      .ok (skipUnlessZero (if i = 0 then s.blockCount 1 else (s.dataWord dev).lhu + 1),
        s.repeated (doBLKI dev) (i + 1)) := by
  obtain ⟨hea, -, hword⟩ := repeated_BLKI hdev s i
  obtain ⟨running, hrun⟩ := run_doBLKI hdev (s.repeated (doBLKI dev) i)
  rw [Cpu.repeated, final_of_run hrun, hrun, Cpu.stepped, hea, hword, W36.lhu_halves]
  by_cases hi : i = 0
  · rw [if_pos hi, if_neg fun h => h.1 hi]
    rfl
  · rw [if_neg hi, if_pos ⟨hi, rfl⟩]

/-- **Input**: BLKI does what it should exactly if there is nothing to do. -/
lemma inputsBlock_iff {n : ℕ} (hdisjoint : ∀ i < n, s.blockAddress (i + 1) ≠ s.ea.rhu) :
    InputsBlock dev s n ↔ n = 0 ∨ DataInPlace dev s n := by
  obtain ⟨-, -, hword⟩ := repeated_BLKI hdev s n
  -- the words of the block have not changed
  have hblock (i : ℕ) (hi : i < n) : (s.repeated (doBLKI dev) n).word (s.blockAddress (i + 1)) =
      s.word (s.blockAddress (i + 1)) := by
    rw [hword, if_neg fun h => hdisjoint i hi h.2]
  have hothers (a : BitVec 18) (ha : a ≠ s.ea.rhu) :
      (s.repeated (doBLKI dev) n).word a = s.word a := by
    rw [hword, if_neg fun h => ha h.2]
  rcases Nat.eq_zero_or_pos n with rfl | hn
  · refine iff_of_true ⟨fun i hi => absurd hi i.not_lt_zero, fun i hi => absurd hi i.not_lt_zero,
      (blockPointer_zero s).symm, fun a ha _ => hothers a ha⟩ (.inl rfl)
  · have hpointer : (s.repeated (doBLKI dev) n).word s.ea.rhu = s.dataWord dev := by
      rw [hword, if_pos ⟨hn.ne', rfl⟩]
    -- the count that decides all results but the first one
    have hresults (heq : s.blockPointer n = s.dataWord dev) : SkipsByCount (doBLKI dev) s n ↔
        ∀ i < n, i ≠ 0 → (s.blockCount (i + 1) = 0 ↔ s.blockCount (n + 1) = 0) := by
      have hcount : (s.dataWord dev).lhu + 1 = s.blockCount (n + 1) := by
        rw [← heq, Cpu.blockPointer, W36.lhu_halves, blockCount_succ]
      refine forall₂_congr fun i hi => ?_
      rw [run_repeated_BLKI hdev, hcount]
      by_cases hzero : i = 0
      · rw [if_pos hzero, hzero]
        exact iff_of_true rfl fun h => absurd rfl h
      · rw [if_neg hzero]
        constructor
        · intro h _
          exact (skipUnlessZero_eq_iff.mp (congrArg Prod.fst (Except.ok.inj h))).symm
        · intro h
          rw [skipUnlessZero_eq_iff.mpr (h hzero).symm]
    rw [or_iff_right hn.ne']
    constructor
    · intro h
      have heq : s.blockPointer n = s.dataWord dev := h.pointer.symm.trans hpointer
      refine ⟨heq, fun i hi => ?_, (hresults heq).mp h.results⟩
      rw [← hblock i hi, h.stored i hi]
      exact (repeated_BLKI hdev s i).2.1
    · rintro ⟨heq, hwords, hcounts⟩
      refine ⟨(hresults heq).mpr hcounts, fun i hi => ?_, hpointer.trans heq.symm,
        fun a ha _ => hothers a ha⟩
      rw [hblock i hi, hwords i hi]
      exact (repeated_BLKI hdev s i).2.1.symm

end Input

/-! ### Output -/

/-- The machine after the device has taken the first `i` pointers. -/
def Cpu.taken (s : Cpu) (dev : DeviceName) : ℕ → Cpu
  | 0 => s
  | i + 1 => (s.taken dev i).takeWord dev (s.blockPointer (i + 1))

/-- The device changes nothing but registers. -/
structure OnlyRegisters (s t : Cpu) : Prop where
  memory : SameMemory s t
  ea : t.ea = s.ea

lemma onlyRegisters_takeWord (s : Cpu) (dev : DeviceName) (w : W36) :
    OnlyRegisters s (s.takeWord dev w) := by
  rw [Cpu.takeWord]
  split <;> exact ⟨⟨rfl, rfl⟩, rfl⟩

lemma onlyRegisters_taken (s : Cpu) (dev : DeviceName) (i : ℕ) :
    OnlyRegisters s (s.taken dev i) := by
  induction i with
  | zero => exact ⟨⟨rfl, rfl⟩, rfl⟩
  | succ i ih =>
      obtain ⟨⟨hmemP, hblocks⟩, hea⟩ :=
        onlyRegisters_takeWord (s.taken dev i) dev (s.blockPointer (i + 1))
      exact ⟨⟨hmemP.trans ih.memory.memP, hblocks.trans ih.memory.ACBlocks⟩, hea.trans ih.ea⟩

/-- What the device does depends on the registers only. -/
lemma SameRegisters.takeWord {s t : Cpu} (h : SameRegisters s t) (dev : DeviceName) (w : W36) :
    SameRegisters (s.takeWord dev w) (t.takeWord dev w) := by
  rw [Cpu.takeWord, Cpu.takeWord]
  split
  · rw [Cpu.loadContext, Cpu.loadContext, h.toDevices, h.AC]
    exact ⟨rfl, rfl⟩
  · rw [h.toDevices]
    exact ⟨rfl, h.AC⟩

/-- Words of the same memory, at an address that is in the same block. -/
lemma SameMemory.word {s t : Cpu} (h : SameMemory s t) {a : BitVec 18}
    (hAC : a < 0o20 → t.AC = s.AC) : t.word a = s.word a := by
  rw [Cpu.word, Cpu.word]
  split
  case isTrue ha => rw [Cpu.acs, Cpu.acs, h.ACBlocks, hAC ha]
  case isFalse => rw [h.memP]

/-- A store in the same memory, at an address that is in the same block. -/
lemma SameMemory.setWord {s t : Cpu} (h : SameMemory s t) {a : BitVec 18}
    (hAC : a < 0o20 → t.AC = s.AC) (v : W36) : SameMemory (s.setWord v a) (t.setWord v a) := by
  rw [Cpu.setWord, Cpu.setWord]
  split
  case isTrue ha =>
    rw [Cpu.setAC, Cpu.setAC, h.ACBlocks, hAC ha]
    exact ⟨h.memP, rfl⟩
  case isFalse =>
    rw [Cpu.setMem, Cpu.setMem, h.memP]
    exact ⟨rfl, h.ACBlocks⟩

/-- A DATAO has the device take the word at its address. -/
lemma sameRegisters_outputAt {dev : DeviceName} (hdev : dev ≠ .apr) (s : Cpu) (a : BitVec 18) :
    SameRegisters (s.takeWord dev (s.word a)) (s.outputAt dev a) := by
  obtain ⟨r, running, hrun⟩ := run_doDATAO hdev { s with ea := W36.halves 0 a }
  have hword : ({ s with ea := W36.halves 0 a } : Cpu).word
      ({ s with ea := W36.halves 0 a } : Cpu).ea.rhu = s.word a := by
    change s.word (W36.halves 0 a).rhu = s.word a
    rw [W36.rhu_halves]
  rw [Cpu.outputAt, final_of_run hrun, hword]
  cases dev <;> exact ⟨rfl, rfl⟩

/-- A store of the word that is there changes nothing. -/
lemma sameMemory_setWord_word (s : Cpu) (a : BitVec 18) :
    SameMemory (s.setWord (s.word a) a) s := by
  rw [Cpu.setWord, Cpu.word]
  split
  · refine ⟨rfl, funext fun b => funext fun n => ?_⟩
    change s.ACBlocks b n = if b = s.AC ∧ n = a.setWidth 4 then s.acs (a.setWidth 4) else _
    split
    case isTrue h => rw [h.1, h.2, Cpu.acs]
    case isFalse => rfl
  · refine ⟨funext fun m => ?_, rfl⟩
    change s.memP m = if m = a then s.memP a else s.memP m
    split
    case isTrue h => rw [h]
    case isFalse => rfl

/-- Words beside a store, in whichever block. -/
lemma SameMemory.word_of_ne {s t u : Cpu} {v : W36} {a b : BitVec 18}
    (h : SameMemory (s.setWord v a) t) (hu : SameMemory s u) (hAC : t.AC = u.AC) (hb : b ≠ a) :
    t.word b = u.word b := by
  have hshort {a : BitVec 18} (ha : a < 0o20) : (a.setWidth 4).toNat = a.toNat := by
    have hlt : a.toNat < 16 := ha
    rw [BitVec.toNat_setWidth]
    omega
  rw [Cpu.word, Cpu.word, Cpu.acs, Cpu.acs, h.memP, h.ACBlocks, hu.memP, hu.ACBlocks, hAC,
    Cpu.setWord]
  by_cases hb20 : b < 0o20
  · rw [if_pos hb20, if_pos hb20]
    split
    case isTrue ha =>
      refine if_neg fun hcell => hb (BitVec.eq_of_toNat_eq ?_)
      rw [← hshort hb20, ← hshort ha, hcell.2]
    case isFalse => rfl
  · rw [if_neg hb20, if_neg hb20]
    split
    case isTrue => rfl
    case isFalse => exact if_neg hb

/-- A block that leaves a word out is shorter than the memory. -/
lemma lt_of_disjoint {s : Cpu} {n : ℕ} (hdisjoint : ∀ i < n, s.blockAddress (i + 1) ≠ s.ea.rhu) :
    n < 2 ^ 18 := by
  by_contra hn
  let i := (s.ea.rhu - (s.word s.ea.rhu).rhu - 1).toNat
  refine hdisjoint i (i.lt_of_lt_of_le (BitVec.isLt _) (not_lt.mp hn)) ?_
  rw [Cpu.blockAddress, BitVec.ofNat_add, BitVec.ofNat_toNat, BitVec.setWidth_eq]
  change _ + (s.ea.rhu - (s.word s.ea.rhu).rhu - 1 + 1) = s.ea.rhu
  rw [BitVec.sub_add_cancel, BitVec.add_comm, BitVec.sub_add_cancel]

/-- Different numbers of steps within the memory lead to different addresses. -/
lemma blockAddress_inj {s : Cpu} {i j : ℕ} (hi : i < 2 ^ 18) (hj : j < 2 ^ 18)
    (h : s.blockAddress i = s.blockAddress j) : i = j := by
  have hnat := congrArg BitVec.toNat ((BitVec.add_right_inj _).mp h)
  rwa [BitVec.toNat_ofNat, BitVec.toNat_ofNat, Nat.mod_eq_of_lt hi, Nat.mod_eq_of_lt hj] at hnat

/-- After `i` executions of BLKO at one place the pointer has been stepped `i` times, and the
device has taken the pointers. -/
structure Outputting (dev : DeviceName) (s : Cpu) (i : ℕ) (t : Cpu) : Prop where
  ea : t.ea = s.ea
  memory : SameMemory (s.setWord (s.blockPointer i) s.ea.rhu) t
  registers : SameRegisters (s.taken dev i) t

/-- The pointer is stepped once more. -/
lemma Outputting.stepped {dev : DeviceName} {s : Cpu} {i : ℕ} {t : Cpu} (h : Outputting dev s i t)
    (hAC : s.ea.rhu < 0o20 → t.AC = s.AC) : t.stepped = s.blockPointer (i + 1) := by
  have hword : t.word s.ea.rhu = s.blockPointer i := by
    rw [h.memory.word fun ha => (hAC ha).trans (setWord_AC _ _ _).symm, word_setWord]
  rw [Cpu.stepped, h.ea, hword, Cpu.blockPointer, Cpu.blockPointer, W36.lhu_halves,
    W36.rhu_halves, blockCount_succ, blockAddress_succ]

/-- The device may take the pointer `i` in place of the word it points to, and finds the pointer
in the current block. -/
structure PointerServes (dev : DeviceName) (s : Cpu) (i : ℕ) : Prop where
  current : s.ea.rhu < 0o20 → (s.taken dev i).AC = s.AC
  alike : SameRegisters
    ((s.taken dev i).takeWord dev ((s.taken dev i).word (s.blockAddress (i + 1))))
    ((s.taken dev i).takeWord dev (s.blockPointer (i + 1)))

section Output

variable {dev : DeviceName} (hdev : dev ≠ .apr) {s : Cpu}
include hdev

/-- Executions of BLKO follow each other. -/
lemma run_repeated_BLKO (s : Cpu) (i : ℕ) : ∃ running,
    (doBLKO dev).run (s.repeated (doBLKO dev) i) =
      .ok (skipUnlessZero (s.repeated (doBLKO dev) i).stepped.lhu,
        s.repeated (doBLKO dev) (i + 1)) ∧
      s.repeated (doBLKO dev) (i + 1) =
        { ((s.repeated (doBLKO dev) i).setWord (s.repeated (doBLKO dev) i).stepped
            (s.repeated (doBLKO dev) i).ea.rhu).takeWord dev
              (s.repeated (doBLKO dev) i).stepped with running := running } := by
  obtain ⟨running, hrun⟩ := run_doBLKO hdev (s.repeated (doBLKO dev) i)
  have hnext : s.repeated (doBLKO dev) (i + 1) = _ := final_of_run hrun
  exact ⟨running, hrun.trans (by rw [hnext]), hnext⟩

/-- **One execution** in the block of the pointer. -/
lemma Outputting.step {i : ℕ} (h : Outputting dev s i (s.repeated (doBLKO dev) i))
    (hAC : s.ea.rhu < 0o20 → (s.repeated (doBLKO dev) i).AC = s.AC) :
    Outputting dev s (i + 1) (s.repeated (doBLKO dev) (i + 1)) := by
  obtain ⟨running, -, hnext⟩ := run_repeated_BLKO hdev s i
  rw [h.stepped hAC, h.ea] at hnext
  have honly := onlyRegisters_takeWord
    ((s.repeated (doBLKO dev) i).setWord (s.blockPointer (i + 1)) s.ea.rhu) dev
    (s.blockPointer (i + 1))
  have hmemory := h.memory.setWord (fun ha => (hAC ha).trans (setWord_AC _ _ _).symm)
    (s.blockPointer (i + 1))
  rw [setWord_setWord] at hmemory
  have hregisters : SameRegisters (s.taken dev i)
      ((s.repeated (doBLKO dev) i).setWord (s.blockPointer (i + 1)) s.ea.rhu) :=
    ⟨(setWord_toDevices _ _ _).trans h.registers.toDevices,
      (setWord_AC _ _ _).trans h.registers.AC⟩
  have htaken := hregisters.takeWord dev (s.blockPointer (i + 1))
  rw [hnext]
  exact ⟨honly.ea.trans ((setWord_ea _ _ _).trans h.ea),
    ⟨honly.memory.memP.trans hmemory.memP, honly.memory.ACBlocks.trans hmemory.ACBlocks⟩,
    ⟨htaken.toDevices, htaken.AC⟩⟩

/-- While the pointer is in the current block, executions follow each other. -/
lemma outputting_repeated {i : ℕ}
    (hkeeps : ∀ j < i, s.ea.rhu < 0o20 → (s.taken dev j).AC = s.AC) :
    Outputting dev s i (s.repeated (doBLKO dev) i) := by
  induction i with
  | zero =>
      have hmemory := sameMemory_setWord_word s s.ea.rhu
      rw [← blockPointer_zero] at hmemory
      exact ⟨rfl, hmemory, rfl, rfl⟩
  | succ i ih =>
      have h := ih fun j hj => hkeeps j (Nat.lt_succ_of_lt hj)
      exact h.step hdev fun ha => h.registers.AC.trans (hkeeps i i.lt_succ_self ha)

lemma ea_repeated_BLKO (i : ℕ) : (s.repeated (doBLKO dev) i).ea = s.ea := by
  induction i with
  | zero => rfl
  | succ i ih =>
      obtain ⟨running, -, hnext⟩ := run_repeated_BLKO hdev s i
      rw [hnext]
      exact (onlyRegisters_takeWord _ _ _).ea.trans ((setWord_ea _ _ _).trans ih)

/-- The pointer in an accumulator has been stepped as often as its block was the current one. -/
lemma exists_visits (hE : s.ea.rhu < 0o20) (i : ℕ) : ∃ v ≤ i,
    ((s.repeated (doBLKO dev) i).ACBlocks s.AC (s.ea.rhu.setWidth 4)).rhu = s.blockAddress v ∧
      (v = i → ∀ j < i, (s.repeated (doBLKO dev) j).AC = s.AC) := by
  induction i with
  | zero =>
      refine ⟨0, le_rfl, ?_, fun _ j hj => absurd hj j.not_lt_zero⟩
      have hword : s.word s.ea.rhu = s.ACBlocks s.AC (s.ea.rhu.setWidth 4) := by
        rw [Cpu.word, if_pos hE, Cpu.acs]
      rw [Cpu.blockAddress, hword]
      exact (BitVec.add_zero _).symm
  | succ i ih =>
      obtain ⟨v, hv, hrhu, hall⟩ := ih
      obtain ⟨running, -, hnext⟩ := run_repeated_BLKO hdev s i
      have hea := ea_repeated_BLKO hdev (s := s) i
      have hblocks : (s.repeated (doBLKO dev) (i + 1)).ACBlocks =
          ((s.repeated (doBLKO dev) i).setWord (s.repeated (doBLKO dev) i).stepped
            s.ea.rhu).ACBlocks := by
        rw [hnext, ← hea]
        exact (onlyRegisters_takeWord _ _ _).memory.ACBlocks
      have hcell : (s.repeated (doBLKO dev) (i + 1)).ACBlocks s.AC (s.ea.rhu.setWidth 4) =
          if s.AC = (s.repeated (doBLKO dev) i).AC then (s.repeated (doBLKO dev) i).stepped
          else (s.repeated (doBLKO dev) i).ACBlocks s.AC (s.ea.rhu.setWidth 4) := by
        rw [hblocks, Cpu.setWord, if_pos hE]
        exact if_congr (and_iff_left rfl) rfl rfl
      by_cases hAC : s.AC = (s.repeated (doBLKO dev) i).AC
      · refine ⟨v + 1, Nat.succ_le_succ hv, ?_, fun heq j hj => ?_⟩
        · rw [hcell, if_pos hAC, Cpu.stepped, W36.rhu_halves, hea, Cpu.word, if_pos hE, Cpu.acs,
            ← hAC, hrhu, blockAddress_succ]
        · rcases Nat.lt_succ_iff_lt_or_eq.mp hj with hlt | rfl
          · exact hall (Nat.succ.inj heq) j hlt
          · exact hAC.symm
      · refine ⟨v, hv.trans i.le_succ, ?_, fun heq => absurd hv (by omega)⟩
        rw [hcell, if_neg hAC, hrhu]

/-- If the pointer in an accumulator ends where it should, its block was always the current one. -/
lemma current_of_memory {n : ℕ} (hdisjoint : ∀ i < n, s.blockAddress (i + 1) ≠ s.ea.rhu)
    (hE : s.ea.rhu < 0o20)
    (hmemory : SameMemory (s.setWord (s.blockPointer n) s.ea.rhu) (s.repeated (doBLKO dev) n)) :
    ∀ j < n, (s.repeated (doBLKO dev) j).AC = s.AC := by
  obtain ⟨v, hv, hrhu, hall⟩ := exists_visits hdev hE n
  have hn := lt_of_disjoint hdisjoint
  have hcell : (s.repeated (doBLKO dev) n).ACBlocks s.AC (s.ea.rhu.setWidth 4) =
      s.blockPointer n := by
    rw [hmemory.ACBlocks, Cpu.setWord, if_pos hE]
    exact if_pos ⟨rfl, rfl⟩
  rw [hcell, Cpu.blockPointer, W36.rhu_halves] at hrhu
  exact hall (blockAddress_inj (hv.trans_lt hn) hn hrhu.symm)

/-- What a DATAO of the next word of the block would do. -/
lemma Outputting.handed_iff {i : ℕ} (h : Outputting dev s i (s.repeated (doBLKO dev) i))
    (hnext : Outputting dev s (i + 1) (s.repeated (doBLKO dev) (i + 1)))
    (hdisjoint : s.blockAddress (i + 1) ≠ s.ea.rhu) :
    SameRegisters ((s.repeated (doBLKO dev) i).outputAt dev (s.blockAddress (i + 1)))
        (s.repeated (doBLKO dev) (i + 1)) ↔
      SameRegisters
        ((s.taken dev i).takeWord dev ((s.taken dev i).word (s.blockAddress (i + 1))))
        ((s.taken dev i).takeWord dev (s.blockPointer (i + 1))) := by
  have hword : (s.repeated (doBLKO dev) i).word (s.blockAddress (i + 1)) =
      (s.taken dev i).word (s.blockAddress (i + 1)) :=
    h.memory.word_of_ne (onlyRegisters_taken s dev i).memory h.registers.AC hdisjoint
  have hout := sameRegisters_outputAt hdev (s.repeated (doBLKO dev) i) (s.blockAddress (i + 1))
  have htake := h.registers.takeWord dev ((s.taken dev i).word (s.blockAddress (i + 1)))
  rw [hword] at hout
  constructor
  · intro hsame
    exact ⟨hnext.registers.toDevices.symm.trans (hsame.toDevices.trans
        (hout.toDevices.trans htake.toDevices)),
      hnext.registers.AC.symm.trans (hsame.AC.trans (hout.AC.trans htake.AC))⟩
  · intro hsame
    exact ⟨hnext.registers.toDevices.trans (hsame.toDevices.trans
        (htake.toDevices.symm.trans hout.toDevices.symm)),
      hnext.registers.AC.trans (hsame.AC.trans (htake.AC.symm.trans hout.AC.symm))⟩

/-- **Output**: BLKO does what it should exactly if every pointer serves for the word it points
to. -/
lemma outputsBlock_iff {n : ℕ} (hdisjoint : ∀ i < n, s.blockAddress (i + 1) ≠ s.ea.rhu) :
    OutputsBlock dev s n ↔ ∀ i < n, PointerServes dev s i := by
  constructor
  · intro h
    have hkeeps (i : ℕ) : i < n → s.ea.rhu < 0o20 → (s.taken dev i).AC = s.AC := by
      induction i using Nat.strong_induction_on with
      | _ i ih =>
          intro hi hE
          have hi' := outputting_repeated hdev fun j hj => ih j hj (hj.trans hi)
          exact hi'.registers.AC.symm.trans (current_of_memory hdev hdisjoint hE h.memory i hi)
    have hall {i : ℕ} (hi : i ≤ n) : Outputting dev s i (s.repeated (doBLKO dev) i) :=
      outputting_repeated hdev fun j hj => hkeeps j (hj.trans_le hi)
    exact fun i hi => ⟨hkeeps i hi,
      ((hall hi.le).handed_iff hdev (hall hi) (hdisjoint i hi)).mp (h.handed i hi)⟩
  · intro h
    have hall {i : ℕ} (hi : i ≤ n) : Outputting dev s i (s.repeated (doBLKO dev) i) :=
      outputting_repeated hdev fun j hj => (h j (hj.trans_le hi)).current
    refine ⟨fun i hi => ?_, fun i hi =>
      ((hall hi.le).handed_iff hdev (hall hi) (hdisjoint i hi)).mpr (h i hi).alike,
      (hall le_rfl).memory⟩
    obtain ⟨running, hrun, -⟩ := run_repeated_BLKO hdev s i
    have hstepped := (hall hi.le).stepped fun hE =>
      (hall hi.le).registers.AC.trans ((h i hi).current hE)
    rw [hrun, hstepped, Cpu.blockPointer, W36.lhu_halves]

end Output

/-! ### Both -/

/-- Only the pager looks at the word. -/
lemma pointerServes_of_ne_pag {dev : DeviceName} (hpag : dev ≠ .pag) (s : Cpu) (i : ℕ) :
    PointerServes dev s i := by
  have htake (u : Cpu) (w : W36) :
      u.takeWord dev w = { u with toDevices := u.toDevices.sweptFor dev } := if_neg hpag
  constructor
  · intro _
    induction i with
    | zero => rfl
    | succ i ih =>
        rw [Cpu.taken, htake]
        exact ih
  · rw [htake, htake]
    exact ⟨rfl, rfl⟩

/-- **Block input and output**: for a device with the BLKI of `Device` and a block that leaves the
pointer out, executions of BLKI do what they should exactly if there are none or the data is in
place, and executions of BLKO do for every device but the pager, and for that one exactly if every
pointer serves for the word it points to. -/
theorem blocks_iff {dev : DeviceName} (hdev : dev ≠ .apr) (s : Cpu) {n : ℕ}
    (hdisjoint : ∀ i < n, s.blockAddress (i + 1) ≠ s.ea.rhu) :
    (InputsBlock dev s n ↔ n = 0 ∨ DataInPlace dev s n) ∧
      (OutputsBlock dev s n ↔ dev = .pag → ∀ i < n, PointerServes .pag s i) := by
  refine ⟨inputsBlock_iff hdev s hdisjoint, (outputsBlock_iff hdev hdisjoint).trans ?_⟩
  by_cases hpag : dev = .pag
  · rw [hpag]
    exact ⟨fun h _ => h, fun h => h rfl⟩
  · exact iff_of_true (fun i _ => pointerServes_of_ne_pag hpag s i) fun h => absurd h hpag

/-- The pointer -1,,-1 at 01000. -/
def Cpu.lastPointer : Cpu :=
  { Cpu.initial with
    ea := 0o1000
    memP := fun a => if a = 0o1000 then 0o777777777777 else 0 }

/-- One execution for the timer, whose word is 0, as is the word at 0. -/
theorem blocks_iff_lastPointer :
    InputsBlock .tim Cpu.lastPointer 1 ∧ OutputsBlock .tim Cpu.lastPointer 1 := by
  have hdisjoint : ∀ i < 1, Cpu.lastPointer.blockAddress (i + 1) ≠ Cpu.lastPointer.ea.rhu := by
    decide +kernel
  have hplace : DataInPlace .tim Cpu.lastPointer 1 := by
    refine ⟨by decide +kernel, by decide +kernel, fun i hi hne => absurd hi (by omega)⟩
  have htim : DeviceName.tim ≠ .apr := DeviceName.noConfusion
  obtain ⟨hinput, houtput⟩ := blocks_iff htim Cpu.lastPointer hdisjoint
  exact ⟨hinput.mpr (.inr hplace), houtput.mpr DeviceName.noConfusion⟩

/-- The pointer 0,,2000 at 01000, and a word at 02001 that selects block 1. -/
def Cpu.firstPointer : Cpu :=
  { Cpu.initial with
    ea := 0o1000
    memP := fun a => if a = 0o1000 then 0o2000 else if a = 0o2001 then 0o020040000000 else 0 }

/-- **A block that is not transferred**: BLKI for the timer leaves 0 in place of the pointer
1,,2001, and BLKO for the pager does not select block 1. -/
theorem not_blocks_firstPointer :
    (Cpu.firstPointer.repeated (doBLKI .tim) 1).word 0o1000 = 0 ∧
      ¬ InputsBlock .tim Cpu.firstPointer 1 ∧
      (Cpu.firstPointer.repeated (doBLKO .pag) 1).AC = 0 ∧
      ¬ OutputsBlock .pag Cpu.firstPointer 1 := by
  have hword : (Cpu.firstPointer.repeated (doBLKI .tim) 1).word 0o1000 = 0 := by decide +kernel
  have hAC : (Cpu.firstPointer.repeated (doBLKO .pag) 1).AC = 0 := by decide +kernel
  refine ⟨hword, fun h => ?_, hAC, fun h => ?_⟩
  · have hpointer : Cpu.firstPointer.blockPointer 1 = 0 := h.pointer.symm.trans hword
    exact absurd hpointer (by decide +kernel)
  · have hselected : ((Cpu.firstPointer.repeated (doBLKO .pag) 0).outputAt .pag
        (Cpu.firstPointer.blockAddress 1)).AC = 0 := (h.handed 0 Nat.one_pos).AC.symm.trans hAC
    exact absurd hselected (by decide +kernel)

end KM10
