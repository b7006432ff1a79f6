import KM10.Symbols.Relocatable
import Mathlib.Data.BitVec

/-!
What the handlers of `loadREL` do to the blocks they are meant for.

* `RELBlock`: a block of a handled type with a count its handler expects, and `RELBlock.words`;
* `Ahead`: the words in front of the cursor, and `fetchREL_of_ahead`, that they are read;
* `skipREL_of_ahead`, `codeWords_of_ahead`, `symbolPairs_of_ahead`: the loops of the handlers;
* `Handles` with `handles_code`, `handles_symbols`, and so on: the handlers;
* `RELBlock.Kept`: the blocks that are loaded as a whole (`loadBlock_of_kept`); after any other
  the cursor is elsewhere (`x_ne_of_not_kept`).
-/

namespace KM10

/-- The blocks that a file may have: of a handled type, with symbols in pairs, two words in a
program name, two at least in code, and one or two in a start. -/
structure RELBlock.WellFormed (blockType : ℕ) (data : List W36) : Prop where
  type_le : blockType ≤ 7
  count_lt : data.length < 2 ^ 18
  code_le : blockType = 1 → 2 ≤ data.length
  symbols_even : blockType = 2 → 2 ∣ data.length
  name_two : blockType = 6 → data.length = 2
  start_count : blockType = 7 → data.length = 1 ∨ data.length = 2

/-- A block of a file. -/
structure RELBlock where
  blockType : ℕ
  relocation : W36
  data : List W36
  wellFormed : RELBlock.WellFormed blockType data

/-! ### Reading ahead -/

/-- The words in front of a cursor into the vector. -/
structure Ahead (rel : List W36) (x : BitVec 32) (ws : List W36) : Prop where
  le : x.toNat ≤ rel.length
  words : ws <+: rel.drop x.toNat

/-- The cursor a number of words further on. -/
def RELCursor.advance (c : RELCursor) (n : ℕ) : RELCursor := { c with x := c.x + BitVec.ofNat 32 n }

@[simp] lemma RELCursor.x_advance (c : RELCursor) (n : ℕ) :
    (c.advance n).x = c.x + BitVec.ofNat 32 n := rfl

@[simp] lemma RELCursor.tables_advance (c : RELCursor) (n : ℕ) :
    (c.advance n).tables = c.tables := rfl

@[simp] lemma RELCursor.advance_zero (c : RELCursor) : c.advance 0 = c := by
  rw [advance, BitVec.add_zero]

lemma RELCursor.advance_advance (c : RELCursor) (m n : ℕ) :
    (c.advance m).advance n = c.advance (m + n) := by
  rw [advance, advance, advance, BitVec.add_assoc, ← BitVec.ofNat_add]

variable {rel : List W36} {c : RELCursor}

/-- The cursor moves over the words in front of it without wrapping around. -/
lemma Ahead.advance (hsize : rel.length < 2 ^ 32) {vs ws : List W36}
    (h : Ahead rel c.x (vs ++ ws)) :
    (c.advance vs.length).x.toNat = c.x.toNat + vs.length ∧
      Ahead rel (c.advance vs.length).x ws := by
  have hle := h.words.length_le
  have hx := h.le
  rw [List.length_append, List.length_drop] at hle
  have htoNat : (c.advance vs.length).x.toNat = c.x.toNat + vs.length := by
    rw [RELCursor.x_advance, BitVec.toNat_add, BitVec.toNat_ofNat, Nat.add_mod_mod,
      Nat.mod_eq_of_lt (by omega)]
  obtain ⟨rest, hrest⟩ := h.words
  refine ⟨htoNat, by omega, rest, ?_⟩
  rw [htoNat, ← List.drop_drop, ← hrest, List.append_assoc, List.drop_left]

/-- The word in front of the cursor is read. -/
lemma fetchREL_of_ahead {w : W36} {ws : List W36} (h : Ahead rel c.x (w :: ws)) :
    fetchREL rel c = .ok (w, c.advance 1) := by
  obtain ⟨rest, hrest⟩ := h.words
  have hget : rel[c.x.toNat]? = some w := by
    have hzero := congrArg (fun l => l[0]?) hrest
    rw [List.getElem?_drop] at hzero
    exact hzero.symm
  rw [fetchREL, hget]
  rfl

/-- And the words behind it are in front of the cursor then. -/
lemma Ahead.tail (hsize : rel.length < 2 ^ 32) {w : W36} {ws : List W36}
    (h : Ahead rel c.x (w :: ws)) : Ahead rel (c.advance 1).x ws := by
  have hsingle : Ahead rel c.x ([w] ++ ws) := h
  exact (hsingle.advance hsize).2

/-! ### The loops of the handlers -/

/-- Words that are skipped. -/
lemma skipREL_of_ahead (hsize : rel.length < 2 ^ 32) {vs ws : List W36}
    (h : Ahead rel c.x (vs ++ ws)) : skipREL rel vs.length c = .ok (c.advance vs.length) := by
  induction vs generalizing c with
  | nil => rw [List.length_nil, skipREL, RELCursor.advance_zero]
  | cons w vs ih =>
      rw [List.length_cons, skipREL, fetchREL_of_ahead h]
      refine (ih (h.tail hsize)).trans ?_
      rw [RELCursor.advance_advance, Nat.add_comm]

/-- However many there are, skipping words moves the cursor by their number. -/
lemma x_of_skipREL {n : ℕ} {c' : RELCursor} (h : skipREL rel n c = .ok c') :
    c'.x = c.x + BitVec.ofNat 32 n := by
  induction n generalizing c with
  | zero =>
      rw [skipREL] at h
      cases h
      exact (BitVec.add_zero _).symm
  | succ n ih =>
      rw [skipREL, fetchREL] at h
      cases hget : rel[c.x.toNat]? with
      | none =>
          rw [hget] at h
          cases h
      | some w =>
          rw [hget] at h
          rw [ih h, BitVec.add_assoc, Nat.add_comm n, BitVec.ofNat_add]
          rfl

/-- How far the cursor is in the block. -/
lemma toNat_advance_sub (c : RELCursor) (relX : BitVec 32) (n : ℕ)
    (h : (c.x - relX).toNat + n < 2 ^ 32) :
    ((c.advance n).x - relX).toNat = (c.x - relX).toNat + n := by
  rw [RELCursor.x_advance, add_sub_right_comm, BitVec.toNat_add, BitVec.toNat_ofNat,
    Nat.add_mod_mod, Nat.mod_eq_of_lt h]

/-- The rest of a code block is read to its end. -/
lemma codeWords_of_ahead (hsize : rel.length < 2 ^ 32) {sc relX : BitVec 32} {rounds : ℕ}
    {vs ws : List W36} (h : Ahead rel c.x (vs ++ ws))
    (hend : (c.x - relX).toNat + vs.length = sc.toNat) (hrounds : vs.length ≤ rounds) :
    codeWords rel sc relX rounds c = .ok (c.advance vs.length) := by
  induction vs generalizing c rounds with
  | nil =>
      have hnot : ¬ c.x - relX < sc := by
        rw [BitVec.lt_def, not_lt]
        exact hend.ge
      cases rounds with
      | zero => rw [codeWords, List.length_nil, RELCursor.advance_zero]
      | succ rounds => rw [codeWords, if_neg hnot, List.length_nil, RELCursor.advance_zero]
  | cons w vs ih =>
      rw [List.length_cons] at hend hrounds
      have hlt : c.x - relX < sc := by
        rw [BitVec.lt_def]
        omega
      cases rounds with
      | zero => exact absurd hrounds (Nat.not_succ_le_zero _)
      | succ rounds =>
          have hsc := sc.isLt
          have hnext := toNat_advance_sub c relX 1 (by omega)
          rw [codeWords, if_pos hlt, fetchREL_of_ahead h]
          refine (ih (h.tail hsize) (by omega) (by omega)).trans ?_
          rw [RELCursor.advance_advance, List.length_cons, Nat.add_comm]

/-- The symbols of a block, each with its value. -/
def symbolsOf : List W36 → List (Radix50Word × W36)
  | sym :: value :: vs => (.ofWord sym, value) :: symbolsOf vs
  | _ => []

/-- A list of symbols defined one after another. -/
def SymbolTables.defineAll (t : SymbolTables) (defs : List (Radix50Word × W36)) : SymbolTables :=
  defs.foldl (fun t p => t.define p.1 p.2) t

/-- The rest of a symbol block is read to its end, a pair of words in each round. -/
lemma symbolPairs_of_ahead (hsize : rel.length < 2 ^ 32) {sc relX : BitVec 32} {k rounds : ℕ}
    {vs ws : List W36} (hvs : vs.length = 2 * k) (h : Ahead rel c.x (vs ++ ws))
    (hend : (c.x - relX).toNat + vs.length = sc.toNat) (hrounds : k ≤ rounds) :
    symbolPairs rel sc relX rounds c =
      .ok ⟨(c.advance vs.length).x, c.tables.defineAll (symbolsOf vs)⟩ := by
  induction k generalizing c rounds vs with
  | zero =>
      rw [Nat.mul_zero, List.length_eq_zero_iff] at hvs
      subst hvs
      have hnot : ¬ c.x - relX < sc := by
        rw [BitVec.lt_def, not_lt]
        exact hend.ge
      rw [List.length_nil, RELCursor.advance_zero]
      cases rounds with
      | zero => rfl
      | succ rounds => exact if_neg hnot
  | succ k ih =>
      obtain ⟨sym, value, vs, rfl⟩ : ∃ sym value vs', vs = sym :: value :: vs' := by
        match vs, hvs with
        | sym :: value :: vs, _ => exact ⟨sym, value, vs, rfl⟩
      simp only [List.length_cons] at hvs hend
      have hlt : c.x - relX < sc := by
        rw [BitVec.lt_def]
        omega
      cases rounds with
      | zero => exact absurd hrounds (Nat.not_succ_le_zero _)
      | succ rounds =>
          have hsc := sc.isLt
          have hnext := toNat_advance_sub c relX 2 (by omega)
          have hvalue : Ahead rel (c.advance 1).x (value :: (vs ++ ws)) := h.tail hsize
          have hrest : Ahead rel (c.advance 2).x (vs ++ ws) := by
            have htail := hvalue.tail hsize
            rwa [RELCursor.advance_advance] at htail
          rw [symbolPairs, if_pos hlt, fetchREL_of_ahead h]
          change (fetchREL rel (c.advance 1) >>= _) = _
          rw [fetchREL_of_ahead hvalue, RELCursor.advance_advance]
          refine (ih (c := ⟨(c.advance 2).x, c.tables.define (.ofWord sym) value⟩) (by omega) hrest
            (by rw [hnext]; omega) (by omega)).trans ?_
          have hx : (RELCursor.advance ⟨(c.advance 2).x, c.tables.define (.ofWord sym) value⟩
              vs.length).x = (c.advance (vs.length + 1 + 1)).x := by
            have hadd := congrArg RELCursor.x (c.advance_advance 2 vs.length)
            rw [Nat.add_comm 2] at hadd
            exact hadd
          rw [hx]
          rfl

/-! ### The handlers -/

namespace RELBlock

variable (b : RELBlock)

/-- The count of the block in 32 bits. -/
def sc : BitVec 32 := BitVec.ofNat 32 b.data.length

lemma toNat_sc : b.sc.toNat = b.data.length := by
  have hlt := b.wellFormed.count_lt
  rw [sc, BitVec.toNat_ofNat, Nat.mod_eq_of_lt (by omega)]

/-- The symbols that a block defines. -/
def definitions : List (Radix50Word × W36) := if b.blockType = 2 then symbolsOf b.data else []

/-- What the words of a code block do to the tables: a symbol in place of an address is touched. -/
def codeEffect (t : SymbolTables) : List W36 → SymbolTables
  | [] => t
  | symOrAddr :: _ =>
      if symOrAddr >>> 32 = 0o14 then t.touchGlobal (Radix50Word.ofWord symOrAddr).name else t

/-- What a block does to the tables. -/
def effect (t : SymbolTables) : SymbolTables :=
  if b.blockType = 1 then codeEffect t b.data else t.defineAll b.definitions

/-- The blocks that are loaded as a whole: no HISEG block, and no words at the end of a
program. -/
def Kept : Prop := b.blockType ≠ 3 ∧ (b.blockType = 5 → b.data = [])

end RELBlock

/-- What a handler does to a block that is in front of the cursor: the cursor moves behind it, and
the tables change as they should. -/
def Handles (b : RELBlock) (handler : BlockHandler) : Prop :=
  ∀ {rel : List W36} {c : RELCursor} {ws : List W36}, rel.length < 2 ^ 32 →
    Ahead rel c.x (b.data ++ ws) →
      handler rel b.sc c.x c = .ok ⟨(c.advance b.data.length).x, b.effect c.tables⟩

/-- Only code and symbols change the tables. -/
lemma RELBlock.effect_of_ne {b : RELBlock} (h1 : b.blockType ≠ 1) (h2 : b.blockType ≠ 2)
    (t : SymbolTables) : b.effect t = t := by
  rw [effect, if_neg h1, definitions, if_neg h2]
  rfl

/-- A handler that only skips the words of the block. -/
lemma handles_of_skip {b : RELBlock} {handler : BlockHandler} (h1 : b.blockType ≠ 1)
    (h2 : b.blockType ≠ 2)
    (h : ∀ {rel : List W36} {c : RELCursor} {ws : List W36}, rel.length < 2 ^ 32 →
      Ahead rel c.x (b.data ++ ws) → handler rel b.sc c.x c = .ok (c.advance b.data.length)) :
    Handles b handler := by
  intro rel c ws hsize hahead
  rw [h hsize hahead, RELBlock.effect_of_ne h1 h2]
  rfl

section Handlers

variable {b : RELBlock}

lemma handles_ignored (h : b.blockType = 0) : Handles b ignoredBlock :=
  handles_of_skip (by omega) (by omega) fun _ _ => rfl

lemma handles_entry (h : b.blockType = 4) : Handles b entryBlock := by
  refine handles_of_skip (by omega) (by omega) fun hsize hahead => ?_
  rw [entryBlock, b.toNat_sc]
  exact skipREL_of_ahead hsize hahead

lemma handles_end (h : b.blockType = 5) (hdata : b.data = []) : Handles b endBlock := by
  refine handles_of_skip (by omega) (by omega) fun hsize hahead => ?_
  rw [endBlock, hdata, List.length_nil, RELCursor.advance_zero]

lemma handles_name (h : b.blockType = 6) : Handles b nameBlock := by
  refine handles_of_skip (by omega) (by omega) fun hsize hahead => ?_
  rw [nameBlock, ← b.wellFormed.name_two h]
  exact skipREL_of_ahead hsize hahead

/-- The handler of start blocks reads as many words as there are, one or two. -/
lemma handles_start (h : b.blockType = 7) : Handles b startBlock := by
  refine handles_of_skip (by omega) (by omega) fun {rel c ws} hsize hahead => ?_
  have hsc : 2 ≤ b.sc ↔ 2 ≤ b.data.length := by
    rw [BitVec.le_def, b.toNat_sc]
    rfl
  rcases b.wellFormed.start_count h with hone | htwo
  · obtain ⟨addr, hdata⟩ := List.length_eq_one_iff.mp hone
    rw [hdata] at hahead
    rw [startBlock, fetchREL_of_ahead hahead, hone]
    exact if_neg (by rw [hsc, hone]; omega)
  · obtain ⟨addr, sym, hdata⟩ := List.length_eq_two.mp htwo
    rw [hdata] at hahead
    have hsym : Ahead rel (c.advance 1).x (sym :: ws) := hahead.tail hsize
    rw [startBlock, fetchREL_of_ahead hahead, htwo]
    refine (if_pos (hsc.mpr htwo.ge)).trans ?_
    rw [fetchREL_of_ahead hsym, RELCursor.advance_advance]
    rfl

/-- The handler of symbol blocks defines the symbols. -/
lemma handles_symbols (h : b.blockType = 2) : Handles b symbolBlock := by
  intro rel c ws hsize hahead
  obtain ⟨k, hk⟩ := b.wellFormed.symbols_even h
  have hzero : (c.x - c.x).toNat = 0 := by
    rw [sub_self]
    rfl
  rw [symbolBlock, symbolPairs_of_ahead hsize hk hahead (by rw [hzero, b.toNat_sc, Nat.zero_add])
    (by rw [b.toNat_sc]; omega), RELBlock.effect, if_neg (by omega), RELBlock.definitions,
    if_pos h]

/-- The handler of code blocks reads two words and then the rest. -/
lemma handles_code (h : b.blockType = 1) : Handles b codeBlock := by
  intro rel c ws hsize hahead
  obtain ⟨symOrAddr, offset, vs, hdata⟩ : ∃ symOrAddr offset vs,
      b.data = symOrAddr :: offset :: vs := by
    match hb : b.data, b.wellFormed.code_le h with
    | symOrAddr :: offset :: vs, _ => exact ⟨symOrAddr, offset, vs, rfl⟩
  have hcount : b.sc.toNat = vs.length + 2 := by
    rw [b.toNat_sc, hdata]
    rfl
  rw [hdata] at hahead
  have hoffset : Ahead rel (c.advance 1).x (offset :: (vs ++ ws)) := hahead.tail hsize
  have hrest : Ahead rel (c.advance 2).x (vs ++ ws) := by
    have htail := hoffset.tail hsize
    rwa [RELCursor.advance_advance] at htail
  have htwo : ((c.advance 2).x - c.x).toNat = 2 := by
    have hzero : (c.x - c.x).toNat = 0 := by
      rw [sub_self]
      rfl
    have hadvance := toNat_advance_sub c c.x 2 (by omega)
    rwa [hzero] at hadvance
  -- the words after the first two, whatever happened to the tables
  have hwords : ∀ t, codeWords rel b.sc c.x b.sc.toNat ⟨(c.advance 2).x, t⟩ =
      .ok ⟨(c.advance b.data.length).x, t⟩ := by
    intro t
    have hcode : codeWords rel b.sc c.x b.sc.toNat ⟨(c.advance 2).x, t⟩ =
        .ok (RELCursor.advance ⟨(c.advance 2).x, t⟩ vs.length) :=
      codeWords_of_ahead hsize hrest (by rw [htwo, hcount, Nat.add_comm]) (by omega)
    have hx : (RELCursor.advance ⟨(c.advance 2).x, t⟩ vs.length).x =
        (c.advance b.data.length).x := by
      have hadd := congrArg RELCursor.x (c.advance_advance 2 vs.length)
      rw [Nat.add_comm 2] at hadd
      rw [hdata]
      exact hadd
    rw [hcode, ← hx]
    rfl
  rw [codeBlock, fetchREL_of_ahead hahead, RELBlock.effect, if_pos h]
  by_cases hsym : symOrAddr >>> 32 = 0o14
  · have htouch : RELBlock.codeEffect c.tables b.data =
        c.tables.touchGlobal (Radix50Word.ofWord symOrAddr).name := by
      rw [hdata]
      exact if_pos hsym
    refine (if_pos hsym).trans ?_
    rw [fetchREL_of_ahead (c := ⟨(c.advance 1).x,
      (c.advance 1).tables.touchGlobal (Radix50Word.ofWord symOrAddr).name⟩) hoffset, htouch]
    have hadd := congrArg RELCursor.x (c.advance_advance 1 1)
    refine Eq.trans ?_ (hwords (c.tables.touchGlobal (Radix50Word.ofWord symOrAddr).name))
    rw [← hadd]
    rfl
  · have hkeep : RELBlock.codeEffect c.tables b.data = c.tables := by
      rw [hdata]
      exact if_neg hsym
    refine (if_neg hsym).trans ?_
    have hadd := congrArg RELCursor.x (c.advance_advance 1 1)
    rw [hkeep, ← hwords c.tables, ← hadd]
    rfl

end Handlers

/-! ### Blocks -/

namespace RELBlock

/-- The header: the type and the count. -/
def header (b : RELBlock) : W36 := BitVec.ofNat 18 b.blockType ++ BitVec.ofNat 18 b.data.length

/-- The words of a block. -/
def words (b : RELBlock) : List W36 := b.header :: b.relocation :: b.data

/-- The words of a file. -/
def file (bs : List RELBlock) : List W36 := bs.flatMap words

lemma toNat_lhu_header (b : RELBlock) : b.header.lhu.toNat = b.blockType := by
  have hle := b.wellFormed.type_le
  have hlhu : b.header.lhu = BitVec.ofNat 18 b.blockType := BitVec.extractLsb'_append_eq_left
  rw [hlhu, BitVec.toNat_ofNat, Nat.mod_eq_of_lt (by omega)]

lemma rhu_header (b : RELBlock) : b.header.rhu.setWidth 32 = b.sc := by
  have hlt := b.wellFormed.count_lt
  have hrhu : b.header.rhu = BitVec.ofNat 18 b.data.length := BitVec.extractLsb'_append_eq_right
  rw [hrhu, ← BitVec.toNat_inj, b.toNat_sc, BitVec.toNat_setWidth, BitVec.toNat_ofNat]
  omega

end RELBlock

/-- A round of the loop calls the handler of the block behind its first two words. -/
lemma loadBlock_of_ahead (hsize : rel.length < 2 ^ 32) {b : RELBlock} {ws : List W36}
    (h : Ahead rel c.x (b.words ++ ws)) {handler : BlockHandler}
    (hhandler : blockTypeHandler b.blockType = some handler) :
    loadBlock rel c = handler rel b.sc (c.advance 2).x (c.advance 2) ∧
      Ahead rel (c.advance 2).x (b.data ++ ws) := by
  have hrelocation : Ahead rel (c.advance 1).x (b.relocation :: (b.data ++ ws)) := h.tail hsize
  have hdata := hrelocation.tail hsize
  rw [RELCursor.advance_advance] at hdata
  refine ⟨?_, hdata⟩
  rw [loadBlock, fetchREL_of_ahead h]
  change (fetchREL rel (c.advance 1) >>= _) = _
  rw [fetchREL_of_ahead hrelocation, RELCursor.advance_advance]
  change callHandler rel b.header (c.advance 2) = _
  rw [callHandler, b.toNat_lhu_header, hhandler, b.rhu_header]

/-- The types of kept blocks have handlers that load them. -/
lemma RELBlock.Kept.exists_handles {b : RELBlock} (h : b.Kept) :
    ∃ handler, blockTypeHandler b.blockType = some handler ∧ Handles b handler := by
  have hle := b.wellFormed.type_le
  obtain ⟨hhiseg, hend⟩ := h
  rcases (by omega : b.blockType = 0 ∨ b.blockType = 1 ∨ b.blockType = 2 ∨ b.blockType = 4 ∨
    b.blockType = 5 ∨ b.blockType = 6 ∨ b.blockType = 7) with h | h | h | h | h | h | h
  · exact ⟨_, by rw [h]; rfl, handles_ignored h⟩
  · exact ⟨_, by rw [h]; rfl, handles_code h⟩
  · exact ⟨_, by rw [h]; rfl, handles_symbols h⟩
  · exact ⟨_, by rw [h]; rfl, handles_entry h⟩
  · exact ⟨_, by rw [h]; rfl, handles_end h (hend h)⟩
  · exact ⟨_, by rw [h]; rfl, handles_name h⟩
  · exact ⟨_, by rw [h]; rfl, handles_start h⟩

/-- **A kept block** is loaded: the cursor moves to the next block, and the tables change as they
should. -/
lemma loadBlock_of_kept (hsize : rel.length < 2 ^ 32) {b : RELBlock} {ws : List W36}
    (h : Ahead rel c.x (b.words ++ ws)) (hb : b.Kept) :
    loadBlock rel c = .ok ⟨(c.advance b.words.length).x, b.effect c.tables⟩ := by
  obtain ⟨handler, hhandler, hhandles⟩ := hb.exists_handles
  obtain ⟨hload, hdata⟩ := loadBlock_of_ahead hsize h hhandler
  have hadd := congrArg RELCursor.x (c.advance_advance 2 b.data.length)
  rw [hload, hhandles hsize hdata, hadd, Nat.add_comm]
  rfl

/-- Different numbers of words lead to different places. -/
lemma x_advance_ne {m n : ℕ} (hm : m < 2 ^ 32) (hn : n < 2 ^ 32) (h : m ≠ n) :
    (c.advance m).x ≠ (c.advance n).x := by
  intro heq
  have hnat := congrArg BitVec.toNat (add_left_cancel heq)
  rw [BitVec.toNat_ofNat, BitVec.toNat_ofNat, Nat.mod_eq_of_lt hm, Nat.mod_eq_of_lt hn] at hnat
  exact h hnat

/-- **A block that is not kept** leaves the cursor elsewhere. -/
lemma x_ne_of_not_kept (hsize : rel.length < 2 ^ 32) {b : RELBlock} {ws : List W36}
    (h : Ahead rel c.x (b.words ++ ws)) (hb : ¬ b.Kept) {c' : RELCursor}
    (hload : loadBlock rel c = .ok c') : c'.x ≠ (c.advance b.words.length).x := by
  have hcount := b.wellFormed.count_lt
  have hlength : b.words.length = b.data.length + 2 := rfl
  rw [RELBlock.Kept, not_and_or, not_not, Classical.not_imp] at hb
  rcases hb with hhiseg | ⟨hend, hdata⟩
  · obtain ⟨heq, -⟩ := loadBlock_of_ahead hsize h
      (show blockTypeHandler b.blockType = some hisegBlock by rw [hhiseg]; rfl)
    rw [heq, hisegBlock, b.toNat_sc] at hload
    have hx : c'.x = (c.advance (2 + (b.data.length + 1))).x :=
      (x_of_skipREL hload).trans (congrArg RELCursor.x (c.advance_advance 2 _))
    rw [hx, hlength]
    exact x_advance_ne (by omega) (by omega) (by omega)
  · obtain ⟨heq, -⟩ := loadBlock_of_ahead hsize h
      (show blockTypeHandler b.blockType = some endBlock by rw [hend]; rfl)
    rw [heq, endBlock] at hload
    cases hload
    have hpos : 0 < b.data.length := List.length_pos_of_ne_nil hdata
    rw [hlength]
    exact x_advance_ne (by omega) (by omega) (by omega)

end KM10
