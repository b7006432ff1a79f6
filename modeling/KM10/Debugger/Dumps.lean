import KM10.Debugger.Commands

/-!
Words that the debugger prints and words that it is given (the commands `mem` and `mset`).

* `run_memLine`, `run_emptyLines`: the words at an address and, with empty lines, the words behind
  them are printed, one line each;
* `retype`: the command `mset` with the address and the word of a printed line;
* `run_retypes`: such lines store words and change nothing else;
* `dump_restores`: so what has been printed can be typed into another machine, which then has the
  words of the first there.
-/

namespace KM10

open Numerals StateExcept

/-! ### Printed lines -/

namespace W36

lemma notMem_fmt36 {c : Char} (hc : IsNumeral 8 c = false) (hcomma : c ≠ ',') (w : W36) :
    c ∉ w.fmt36 := by
  have hdigits {width n : ℕ} : c ∉ numeral 8 width n := notMem_numeral hc
  simp [fmt36, fmt18, hdigits, hcomma]

lemma notMem_fmtVMA {c : Char} (hc : IsNumeral 8 c = false) (hcomma : c ≠ ',') (w : W36) :
    c ∉ w.fmtVMA := by
  have hdigits {width n : ℕ} : c ∉ numeral 8 width n := notMem_numeral hc
  simp [fmtVMA, fmt18, hdigits, hcomma]

lemma fmt36_ne_nil (w : W36) : w.fmt36 ≠ [] := by simp [fmt36]

lemma fmtVMA_ne_nil (w : W36) : w.fmtVMA ≠ [] := by simp [fmtVMA]

/-- A printed address is read as one of the same word. -/
lemma ofString_fmtVMA (a : W36) : ∃ a', ofString a.fmtVMA = .ok a' ∧ a'.rhu = a.rhu := by
  have h := (ofString_halves 1 (l := a.lhu &&& 0o7) (r := a.rhu) noNumeral_nil).1
  rw [List.append_nil] at h
  exact ⟨_, h, rhu_halves _ _⟩

lemma ofString_fmt36 (w : W36) : ofString w.fmt36 = .ok w := by
  have h := (ofString_halves 6 (l := w.lhu) (r := w.rhu) noNumeral_nil).1
  rwa [List.append_nil, halves_eta] at h

end W36

namespace Debugger

variable {d e : Debugger}

/-- The line with which the user stores the word of a printed line at its address. -/
def retype (line : List Char) : List Char :=
  let rest := line.drop dumpPrefix.length
  let address := rest.takeWhile (· ≠ ':')
  let value := ((rest.dropWhile (· ≠ ':')).drop 2).takeWhile (· ≠ ' ')
  ['m', 's', 'e', 't', ' '] ++ address ++ ' ' :: value

/-- What is cut out of a printed line. -/
lemma retype_dumpLine (d : Debugger) (a : W36) :
    retype (d.dumpLine a) =
      ['m', 's', 'e', 't'] ++ ' ' :: (a.fmtVMA ++ ' ' :: (d.cpu.word a.rhu).fmt36) := by
  have hcolon : ∀ c ∈ a.fmtVMA, (c ≠ ':') := fun c hc h =>
    W36.notMem_fmtVMA (by decide) (by decide) a (h ▸ hc)
  have hblank : ∀ c ∈ (d.cpu.word a.rhu).fmt36, (c ≠ ' ') := fun c hc h =>
    W36.notMem_fmt36 (by decide) (by decide) _ (h ▸ hc)
  have hvalue : ∃ rest, (d.dumpLine a).drop dumpPrefix.length =
      a.fmtVMA ++ ':' :: ' ' :: ((d.cpu.word a.rhu).fmt36 ++ ' ' :: rest) := by
    rw [dumpLine, List.append_assoc, List.drop_left' rfl, SymbolTables.dump]
    simp only [List.append_assoc, List.cons_append]
    exact ⟨_, rfl⟩
  obtain ⟨rest, hrest⟩ := hvalue
  have haddress : (a.fmtVMA ++ ':' :: ' ' :: ((d.cpu.word a.rhu).fmt36 ++ ' ' :: rest)).takeWhile
      (· ≠ ':') = a.fmtVMA := takeWhile_digits (by simpa using hcolon) (by simp)
  have hbehind : (a.fmtVMA ++ ':' :: ' ' :: ((d.cpu.word a.rhu).fmt36 ++ ' ' :: rest)).dropWhile
      (· ≠ ':') = ':' :: ' ' :: ((d.cpu.word a.rhu).fmt36 ++ ' ' :: rest) := by
    rw [List.dropWhile_append_of_pos (by simpa using hcolon)]
    rfl
  have htaken : ((d.cpu.word a.rhu).fmt36 ++ ' ' :: rest).takeWhile (· ≠ ' ') =
      (d.cpu.word a.rhu).fmt36 := takeWhile_digits (by simpa using hblank) (by simp)
  rw [retype]
  simp only [hrest, haddress, hbehind, List.drop_succ_cons, List.drop_zero, htaken]
  simp

/-- A digit or a comma is no space. -/
lemma isSpace_of_digits {c : Char} (h : IsNumeral 8 c = false → c ≠ ',' → False) :
    isSpace c = false := by
  rw [isSpace, Bool.eq_false_iff]
  intro hspace
  simp only [Bool.or_eq_true, decide_eq_true_eq] at hspace
  rcases hspace with ((((rfl | rfl) | rfl) | rfl) | rfl) | rfl <;>
    exact h (by decide) (by decide)

/-- The words of the line. -/
lemma getWords_retype (d : Debugger) (a : W36) : getWords (retype (d.dumpLine a)) =
    [['m', 's', 'e', 't'], a.fmtVMA, (d.cpu.word a.rhu).fmt36] := by
  have hspace : isSpace ' ' := rfl
  have hname : ∀ c ∈ ['m', 's', 'e', 't'], isSpace c = false := by simp [isSpace]
  have haddress : ∀ c ∈ a.fmtVMA, isSpace c = false := fun c hc =>
    isSpace_of_digits (fun hdigit hne => absurd hc (W36.notMem_fmtVMA hdigit hne a))
  have hvalue : ∀ c ∈ (d.cpu.word a.rhu).fmt36, isSpace c = false := fun c hc =>
    isSpace_of_digits (fun hdigit hne => absurd hc (W36.notMem_fmt36 hdigit hne _))
  rw [getWords, retype_dumpLine, List.splitOnP_append_cons_of_forall_mem hname ' ' hspace,
    List.splitOnP_append_cons_of_forall_mem haddress ' ' hspace, List.splitOnP_eq_singleton hvalue]
  simp [W36.fmt36_ne_nil, W36.fmtVMA_ne_nil]

/-! ### Lines that are typed -/

/-- A store does not start the machine. -/
lemma setWord_stopped {s : Cpu} (h : s.running = false) (v : W36) (a : BitVec 18) :
    (s.setWord v a).running = false := by
  rw [Cpu.setWord]
  split <;> exact h

/-- The command `mset` with an address and a word. -/
lemma run_mset_of_ok {word address v : List Char} {rest : List (List Char)} {a w : W36} {s : Cpu}
    (hargs : d.msetArguments address v = .ok (a, w))
    (hstore : (memPutN w a).run d.cpu = .ok ((), s)) :
    (mset (word :: address :: v :: rest)).run d = .ok ((), { d.withCpu s with lastAddr := a }) := by
  rw [mset, run_read]
  change (onArguments (d.msetArguments address v) _).run d = _
  rw [hargs]
  change (onCpu (memPutN w a) >>= _).run d = _
  rw [run_bind_of_ok (run_onCpu_of_ok hstore)]
  rfl

/-- A printed line that is typed stores its word. -/
lemma run_retype (d : Debugger) (a : W36) (he : e.cpu.running = false) :
    ∃ e', (debugLine (retype (d.dumpLine a))).run e = .ok (.noop, e') ∧
      e'.cpu = e.cpu.setWord (d.cpu.word a.rhu) a.rhu := by
  have hline : e.repeated (retype (d.dumpLine a)) = retype (d.dumpLine a) := by
    rw [repeated, if_neg (by simp [retype])]
  obtain ⟨a', haddress, hrhu⟩ := W36.ofString_fmtVMA a
  have hpc : a.fmtVMA ≠ ['p', 'c'] := fun h =>
    W36.notMem_fmtVMA (c := 'p') (by decide) (by decide) a (by simp [h])
  have hargs : msetArguments { e with prevLine := e.repeated (retype (d.dumpLine a)) } a.fmtVMA
      (d.cpu.word a.rhu).fmt36 = .ok (a', d.cpu.word a.rhu) := by
    rw [msetArguments, if_neg hpc, haddress, W36.ofString_fmt36]
    rfl
  have hstore : (memPutN (d.cpu.word a.rhu) a').run e.cpu =
      .ok ((), e.cpu.setWord (d.cpu.word a.rhu) a.rhu) := by
    rw [run_memPutN, hrhu, hit_of_stopped (setWord_stopped he _ _)]
  have hmset : CommandName.ofWord ['m', 's', 'e', 't'] = some .mset := by decide +kernel
  rw [run_debugLine (by rw [hline]; exact getWords_retype d a), hmset, runCommand,
    run_bind_of_ok (run_mset_of_ok hargs hstore)]
  exact ⟨_, rfl, rfl⟩

/-- **Printed lines that are typed** store their words one after the other. -/
lemma run_retypes (d : Debugger) (as : List W36) (he : e.cpu.running = false) :
    ∃ e', (Debugger.debug (as.map fun a => retype (d.dumpLine a))).run e = .ok (.noop, e') ∧
      e'.cpu = as.foldl (fun s a => s.setWord (d.cpu.word a.rhu) a.rhu) e.cpu := by
  induction as generalizing e with
  | nil => exact ⟨e, rfl, rfl⟩
  | cons a as ih =>
      obtain ⟨e₁, hrun, hcpu⟩ := run_retype d a he
      obtain ⟨e', hrest, hcpu'⟩ := ih (e := e₁) (hcpu ▸ setWord_stopped he _ _)
      refine ⟨e', ?_, by rw [hcpu', hcpu, List.foldl_cons]⟩
      rw [List.map_cons, Debugger.debug, run_bind_of_ok hrun, if_pos rfl, hrest]

/-- The words after that. -/
lemma word_foldl_setWord (f : BitVec 18 → W36) (as : List W36) (s : Cpu) (b : BitVec 18) :
    (as.foldl (fun s a => s.setWord (f a.rhu) a.rhu) s).word b =
      if ∃ a ∈ as, a.rhu = b then f b else s.word b := by
  induction as generalizing s with
  | nil => simp
  | cons a as ih =>
      rw [List.foldl_cons, ih]
      by_cases hrest : ∃ a ∈ as, a.rhu = b
      · rw [if_pos hrest, if_pos (by simp [hrest])]
      · by_cases hb : a.rhu = b
        · rw [if_neg hrest, if_pos ⟨a, List.mem_cons_self, hb⟩, hb, word_setWord]
        · rw [if_neg hrest, if_neg (by simp [hrest, hb]), word_setWord_of_ne (Ne.symm hb)]

/-- The machines differ at most in the words of the current block and of memory. -/
structure WordsOnly (s t : Cpu) : Prop where
  rest : t = { s with memP := t.memP, ACBlocks := t.ACBlocks }
  blocks : ∀ b n, b ≠ s.AC → t.ACBlocks b n = s.ACBlocks b n
  behind : ∀ a < 0o20, t.memP a = s.memP a

lemma WordsOnly.trans {s t u : Cpu} (h : WordsOnly s t) (h' : WordsOnly t u) : WordsOnly s u := by
  have hAC : t.AC = s.AC := by rw [h.rest]
  refine ⟨?_, fun b n hb => ?_, fun a ha => (h'.behind a ha).trans (h.behind a ha)⟩
  · rw [h'.rest, h.rest]
  · exact (h'.blocks b n (hAC ▸ hb)).trans (h.blocks b n hb)

/-- A store changes a word. -/
lemma wordsOnly_setWord (s : Cpu) (v : W36) (a : BitVec 18) : WordsOnly s (s.setWord v a) := by
  rw [Cpu.setWord]
  split
  case isTrue => exact ⟨rfl, fun b n hb => if_neg fun h => hb h.1, fun _ _ => rfl⟩
  case isFalse hhigh =>
    refine ⟨rfl, fun _ _ _ => rfl, fun b hb => if_neg ?_⟩
    rintro rfl
    exact hhigh hb

/-- Stores change the words only. -/
lemma wordsOnly_foldl_setWord (f : BitVec 18 → W36) (as : List W36) (s : Cpu) :
    WordsOnly s (as.foldl (fun s a => s.setWord (f a.rhu) a.rhu) s) := by
  induction as generalizing s with
  | nil => exact ⟨rfl, fun _ _ _ => rfl, fun _ _ => rfl⟩
  | cons a as ih => exact (wordsOnly_setWord s (f a.rhu) a.rhu).trans (ih _)

/-! ### Lines that print -/

/-- The words at these addresses have been printed, and nothing has changed. -/
structure Dumped (d d' : Debugger) (as : List W36) : Prop where
  cpu : d'.cpu = d.cpu
  symbols : d'.symbols = d.symbols
  out : ∃ lines, d'.out = d.out ++ lines ∧ lines.filter (· ≠ []) = as.map d.dumpLine

lemma dumpLine_ne_nil (d : Debugger) (a : W36) : d.dumpLine a ≠ [] := by
  simp [dumpLine, dumpPrefix]

/-- One dump after another. -/
lemma Dumped.trans {d d' d'' : Debugger} {as bs : List W36} (h : Dumped d d' as)
    (h' : Dumped d' d'' bs) : Dumped d d'' (as ++ bs) := by
  obtain ⟨lines, hout, hlines⟩ := h.out
  obtain ⟨lines', hout', hlines'⟩ := h'.out
  have hsame (a : W36) : d'.dumpLine a = d.dumpLine a := by
    rw [dumpLine, dumpLine, h.cpu, h.symbols]
  refine ⟨h'.cpu.trans h.cpu, h'.symbols.trans h.symbols, lines ++ lines', ?_, ?_⟩
  · rw [hout', hout, List.append_assoc]
  · rw [List.filter_append, hlines, hlines', List.map_append]
    exact congrArg _ (List.map_congr_left fun a _ => hsame a)

/-- The line has the command `mem`, for so many words from an address on. -/
def MemLine (d : Debugger) (line : List Char) (n : ℕ) (a : W36) : Prop :=
  ∃ word words k, getWords line = word :: words ∧ CommandName.ofWord word = some .mem ∧
    d.memArguments (word :: words) = .ok (k, a) ∧ k.toNat = n

/-- So many addresses. -/
def addresses (n : ℕ) (a : W36) : List W36 := (List.range n).map fun k => a + .ofNat k

/-- Addresses that go on. -/
lemma addresses_append (m n : ℕ) (a : W36) :
    addresses m a ++ addresses n (a + .ofNat m) = addresses (m + n) a := by
  rw [addresses, addresses, addresses, List.range_add, List.map_append, List.map_map]
  refine congrArg _ (List.map_congr_left fun j _ => ?_)
  change a + .ofNat m + .ofNat j = a + W36.ofNat (m + j)
  rw [W36.ofNat, W36.ofNat, W36.ofNat, BitVec.ofNat_add, BitVec.add_assoc]

/-- What such a line prints. -/
lemma run_memLine {line : List Char} {n : ℕ} {a : W36} (h : MemLine d (d.repeated line) n a)
    (hd : d.cpu.running = false) :
    ∃ d', (debugLine line).run d = .ok (.noop, d') ∧ Dumped d d' (addresses n a) ∧
      d'.lastAddr = a + .ofNat n ∧ d'.prevLine = ['m'] := by
  obtain ⟨word, words, k, hwords, hname, hargs, rfl⟩ := h
  have hrun := run_mem_of_ok (d := { d with prevLine := d.repeated line }) hargs hd
  refine ⟨dumped { d with prevLine := d.repeated line } k.toNat a, ?_, ⟨rfl, rfl, _, rfl, ?_⟩,
    rfl, rfl⟩
  · rw [run_debugLine hwords, hname, runCommand, run_bind_of_ok hrun]
    rfl
  · have hne : ∀ l ∈ (addresses k.toNat a).map d.dumpLine, decide (l ≠ []) = true := by
      intro l hl
      obtain ⟨b, -, rfl⟩ := List.mem_map.mp hl
      exact decide_eq_true (dumpLine_ne_nil d b)
    have hlines : ((List.range k.toNat).map fun j =>
        Debugger.dumpLine { d with prevLine := d.repeated line } (a + .ofNat j)) =
          (addresses k.toNat a).map d.dumpLine := by
      rw [addresses, List.map_map]
      rfl
    rw [hlines, List.filter_append, List.filter_eq_self.mpr hne]
    exact List.append_nil _

/-- Empty lines go on with the words behind. -/
lemma run_emptyLines (k : ℕ) {d : Debugger} (hprev : d.prevLine = ['m'])
    (hd : d.cpu.running = false) :
    ∃ d', (Debugger.debug (List.replicate k [])).run d = .ok (.noop, d') ∧
      Dumped d d' (addresses k d.lastAddr) := by
  induction k generalizing d with
  | zero => exact ⟨d, rfl, rfl, rfl, [], (List.append_nil _).symm, rfl⟩
  | succ k ih =>
      have hline : MemLine d (d.repeated []) 1 d.lastAddr :=
        ⟨['m'], [], 1, by rw [repeated, if_pos rfl, hprev]; decide, by decide +kernel, rfl, rfl⟩
      obtain ⟨d₁, hrun, hdumped, hlast, hprev₁⟩ := run_memLine hline hd
      obtain ⟨d', hrest, hdumped'⟩ := ih hprev₁ (hdumped.cpu ▸ hd)
      refine ⟨d', ?_, ?_⟩
      · rw [List.replicate_succ, Debugger.debug, run_bind_of_ok hrun, if_pos rfl, hrest]
      · have h := hdumped.trans hdumped'
        rwa [hlast, addresses_append, Nat.add_comm 1 k] at h

end Debugger

open Debugger

/-- **What has been dumped can be restored.**  The lines that a `mem` command and the empty lines
behind it print hold the words from the address on, one after the other; typed as `mset` commands
into any other machine they give it the words of the first machine there and change nothing else,
neither the accumulators of the other blocks nor the memory words behind the accumulators. -/
theorem dump_restores {d e : Debugger} {line : List Char} {n : ℕ} {a : W36}
    (hmem : MemLine d line n a) (hline : line ≠ []) (hd : d.cpu.running = false)
    (he : e.cpu.running = false) (k : ℕ) :
    ∃ d' e', (Debugger.debug (line :: List.replicate k [])).run d = .ok (.noop, d') ∧
      (Debugger.debug (((d'.out.drop d.out.length).filter (· ≠ [])).map retype)).run e =
        .ok (.noop, e') ∧
      d'.cpu = d.cpu ∧ WordsOnly e.cpu e'.cpu ∧
      ∀ b, e'.cpu.word b =
        if ∃ j < n + k, (a + .ofNat j).rhu = b then d.cpu.word b else e.cpu.word b := by
  have hrepeated : d.repeated line = line := if_neg hline
  obtain ⟨d₁, hrun, hdumped, hlast, hprev⟩ := run_memLine (hrepeated.symm ▸ hmem) hd
  obtain ⟨d', hrest, hdumped'⟩ := run_emptyLines k hprev (hdumped.cpu ▸ hd)
  have hall := hdumped.trans hdumped'
  rw [hlast, addresses_append] at hall
  obtain ⟨lines, hout, hlines⟩ := hall.out
  obtain ⟨e', htyped, hcpu⟩ := run_retypes d (addresses (n + k) a) he
  refine ⟨d', e', ?_, ?_, hall.cpu, ?_, fun b => ?_⟩
  · rw [Debugger.debug, run_bind_of_ok hrun, if_pos rfl, hrest]
  · rw [hout, List.drop_left, hlines, List.map_map]
    exact htyped
  · rw [hcpu]
    exact wordsOnly_foldl_setWord d.cpu.word (addresses (n + k) a) e.cpu
  · rw [hcpu, word_foldl_setWord d.cpu.word]
    simp [addresses]

/-- A machine with a word at location 0101. -/
def oneWord : Cpu := Cpu.initial.setMem 0o123456765432 0o101

/-- Two words and the one behind them, for a machine that has none of them. -/
theorem dump_restores_three :
    ∃ d' e', (Debugger.debug ("m 100 2".toList :: List.replicate 1 [])).run (.initial oneWord) =
        .ok (.noop, d') ∧
      (Debugger.debug (((d'.out.drop 0).filter (· ≠ [])).map retype)).run (.initial .initial) =
        .ok (.noop, e') ∧
      d'.cpu = oneWord ∧ WordsOnly Cpu.initial e'.cpu ∧
      ∀ b, e'.cpu.word b = if ∃ j < 2 + 1, (0o100 + W36.ofNat j).rhu = b then oneWord.word b
        else Cpu.initial.word b :=
  @dump_restores (.initial oneWord) (.initial .initial) "m 100 2".toList 2 0o100
    ⟨['m'], [['1', '0', '0'], ['2']], 2, by decide +kernel, by decide +kernel, by decide +kernel,
      rfl⟩ (by decide) rfl rfl 1

end KM10
