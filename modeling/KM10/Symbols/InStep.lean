import KM10.Symbols.Handlers
import Mathlib

/-!
Whether the loader of REL files stays in step with their blocks.

* `loadRounds_of_kept`, `loadBlocks_of_kept`: the rounds of the loop on a file of kept blocks;
* `lastValue`, `Defines`: the last value of a symbol, and tables that have them;
* `defines_effects`, `isSome_nameValues`: so they do when the blocks have been loaded;
* `staysInStep_iff`: the files whose blocks are all loaded.
-/

namespace KM10

variable {rel : List W36} {c : RELCursor}

/-! ### Files -/

open RELBlock (file)

/-- What the blocks of a file do to the tables. -/
def effects (bs : List RELBlock) (t : SymbolTables) : SymbolTables :=
  bs.foldl (fun t b => b.effect t) t

/-- A number of rounds of the loop. -/
def loadRounds (rel : List W36) (c : RELCursor) : ℕ → Except LoadStop RELCursor
  | 0 => .ok c
  | k + 1 => do
      let c ← loadRounds rel c k
      loadBlock rel c

@[simp] lemma file_cons (b : RELBlock) (bs : List RELBlock) :
    file (b :: bs) = b.words ++ file bs := rfl

lemma file_append (bs bs' : List RELBlock) : file (bs ++ bs') = file bs ++ file bs' :=
  List.flatMap_append

/-- A cursor behind the first blocks has the others in front of it. -/
lemma ahead_of_toNat {bs : List RELBlock} {k : ℕ}
    (hx : c.x.toNat = (file (bs.take k)).length) : Ahead (file bs) c.x (file (bs.drop k)) := by
  have hfile : file bs = file (bs.take k) ++ file (bs.drop k) := by
    rw [← file_append, List.take_append_drop]
  constructor
  · rw [hx, hfile, List.length_append]
    exact Nat.le_add_right _ _
  · rw [hx, hfile, List.drop_left]

/-- The blocks up to one of them. -/
lemma take_succ_eq {bs : List RELBlock} {k : ℕ} (hk : k < bs.length) :
    bs.take (k + 1) = bs.take k ++ [bs[k]] ∧ bs.drop k = bs[k] :: bs.drop (k + 1) :=
  ⟨List.take_succ_eq_append_getElem hk, List.drop_eq_getElem_cons hk⟩

lemma length_file_take_succ {bs : List RELBlock} {k : ℕ} (hk : k < bs.length) :
    (file (bs.take (k + 1))).length = (file (bs.take k)).length + bs[k].words.length := by
  rw [(take_succ_eq hk).1, file_append, List.length_append, file_cons, List.length_append]
  rfl

/-- **The rounds** of a file of kept blocks are at one block after another. -/
lemma loadRounds_of_kept {bs : List RELBlock} (hsize : (file bs).length < 2 ^ 32)
    (hbs : ∀ b ∈ bs, b.Kept) (t : SymbolTables) {k : ℕ} (hk : k ≤ bs.length) :
    ∃ c, loadRounds (file bs) ⟨0, t⟩ k = .ok c ∧ c.x.toNat = (file (bs.take k)).length ∧
      c.tables = effects (bs.take k) t := by
  induction k with
  | zero => exact ⟨_, rfl, rfl, rfl⟩
  | succ k ih =>
      obtain ⟨c, hc, hx, htables⟩ := ih (Nat.le_of_succ_le hk)
      have hahead := ahead_of_toNat hx
      rw [(take_succ_eq hk).2, file_cons] at hahead
      have hload := loadBlock_of_kept hsize hahead (hbs _ (List.getElem_mem hk))
      refine ⟨⟨(c.advance bs[k].words.length).x, bs[k].effect c.tables⟩, ?_, ?_, ?_⟩
      · rw [loadRounds, hc]
        exact hload
      · rw [length_file_take_succ hk, ← hx]
        exact (hahead.advance hsize).1
      · rw [(take_succ_eq hk).1, effects, List.foldl_append]
        exact congrArg bs[k].effect htables

/-- The loop ends behind the last block. -/
lemma loadBlocks_of_kept (hsize : rel.length < 2 ^ 32) {bs : List RELBlock}
    (hbs : ∀ b ∈ bs, b.Kept) (h : Ahead rel c.x (file bs))
    (hend : c.x.toNat + (file bs).length = rel.length) :
    ∃ x, loadBlocks rel bs.length c = .ok ⟨x, effects bs c.tables⟩ := by
  induction bs generalizing c with
  | nil =>
      refine ⟨c.x, if_neg ?_⟩
      rw [not_lt]
      exact hend.ge
  | cons b bs ih =>
      rw [List.forall_mem_cons] at hbs
      rw [file_cons] at h hend
      have hlt : c.x.toNat < rel.length := by
        rw [List.length_append] at hend
        have hpos : 0 < b.words.length := Nat.succ_pos _
        omega
      obtain ⟨hx, hrest⟩ := h.advance hsize
      rw [List.length_append] at hend
      obtain ⟨x, hx'⟩ := ih (c := ⟨(c.advance b.words.length).x, b.effect c.tables⟩) hbs.2 hrest
        (by rw [hx]; omega)
      refine ⟨x, ?_⟩
      rw [List.length_cons, loadBlocks, if_pos hlt, loadBlock_of_kept hsize h hbs.1]
      exact hx'

/-! ### Last values -/

/-- The last value of a symbol in a list of definitions. -/
def lastValue (defs : List (Radix50Word × W36)) (name : String) : Option W36 :=
  (defs.filter fun p => p.1.name = name).getLast?.map Prod.snd

/-- Definitions that are appended come last. -/
lemma lastValue_concat (defs : List (Radix50Word × W36)) (p : Radix50Word × W36)
    (name : String) :
    lastValue (defs ++ [p]) name =
      if p.1.name = name then some p.2 else lastValue defs name := by
  rw [lastValue, List.filter_append]
  split
  case isTrue h => rw [List.filter_cons_of_pos (by simp [h]), List.filter_nil, List.getLast?_concat,
    Option.map_some]
  case isFalse h => rw [List.filter_cons_of_neg (by simp [h]), List.filter_nil, List.append_nil,
    lastValue]

/-- The definitions of the flavors that go into a table. -/
def ofFlavors (flavors : List ℕ) (defs : List (Radix50Word × W36)) : List (Radix50Word × W36) :=
  defs.filter fun p => p.1.flavor ∈ flavors

/-- A table of the debugger and the flavors that go into it. -/
structure TableOf (flavors : List ℕ) (table : SymbolTables → Std.TreeMap String W36) :
    Prop where
  define_of_mem : ∀ t {sym : Radix50Word} {value : W36}, sym.flavor ∈ flavors →
    table (t.define sym value) = (table t).insert sym.name value
  define_of_not_mem : ∀ t {sym : Radix50Word} {value : W36}, sym.flavor ∉ flavors →
    table (t.define sym value) = table t
  touch : ∀ t symbol {name : String} {value : W36}, (table t)[name]? = some value →
    (table (t.touchGlobal symbol))[name]? = some value

/-- The table has the last value of every symbol that is defined in it. -/
def Defines (table : Std.TreeMap String W36) (defs : List (Radix50Word × W36)) : Prop :=
  ∀ name value, lastValue defs name = some value → table[name]? = some value

lemma tableOf_globalSymbols : TableOf [0o4] SymbolTables.globalSymbols := by
  refine ⟨fun t sym value h => ?_, fun t sym value h => ?_, fun t symbol name value h => ?_⟩
  · rw [List.mem_singleton] at h
    rw [SymbolTables.define, if_pos h]
  · rw [List.mem_singleton] at h
    rw [SymbolTables.define, if_neg h]
    split
    · rfl
    · split <;> rfl
  · rw [SymbolTables.touchGlobal, Std.TreeMap.getElem?_insertIfNew]
    split
    case isTrue hnew =>
      -- a symbol that is new has no value yet
      rw [← Std.LawfulEqCmp.eq_of_compare hnew.1] at h
      rw [Std.TreeMap.getElem?_eq_none hnew.2] at h
      cases h
    case isFalse => exact h

lemma tableOf_localSymbols : TableOf [0o10, 0o14] SymbolTables.localSymbols := by
  refine ⟨fun t sym value h => ?_, fun t sym value h => ?_, fun t symbol name value h => h⟩
  · rw [List.mem_pair] at h
    rw [SymbolTables.define, if_neg (by omega), if_pos h]
  · rw [List.mem_pair] at h
    rw [SymbolTables.define]
    split
    · rfl
    · split <;> rfl

section TableOf

variable {flavors : List ℕ} {table : SymbolTables → Std.TreeMap String W36}

/-- One more definition. -/
lemma TableOf.defines_define (h : TableOf flavors table) {t : SymbolTables}
    {defs : List (Radix50Word × W36)} (ht : Defines (table t) (ofFlavors flavors defs))
    (p : Radix50Word × W36) :
    Defines (table (t.define p.1 p.2)) (ofFlavors flavors (defs ++ [p])) := by
  intro name value hlast
  rw [ofFlavors, List.filter_append] at hlast
  by_cases hmem : p.1.flavor ∈ flavors
  · rw [List.filter_cons_of_pos (by simp [hmem]), List.filter_nil, lastValue_concat] at hlast
    rw [h.define_of_mem t hmem, Std.TreeMap.getElem?_insert]
    split at hlast
    case isTrue hname => rw [if_pos (Std.LawfulEqCmp.compare_eq_iff_eq.mpr hname), hlast]
    case isFalse hname =>
      rw [if_neg fun heq => hname (Std.LawfulEqCmp.eq_of_compare heq)]
      exact ht name value hlast
  · rw [List.filter_cons_of_neg (by simp [hmem]), List.filter_nil, List.append_nil] at hlast
    rw [h.define_of_not_mem t hmem]
    exact ht name value hlast

/-- The definitions of a symbol block. -/
lemma TableOf.defines_defineAll (h : TableOf flavors table) {t : SymbolTables}
    {defs : List (Radix50Word × W36)} (ht : Defines (table t) (ofFlavors flavors defs))
    (defs' : List (Radix50Word × W36)) :
    Defines (table (t.defineAll defs')) (ofFlavors flavors (defs ++ defs')) := by
  induction defs' generalizing t defs with
  | nil =>
      rw [List.append_nil]
      exact ht
  | cons p defs' ih =>
      rw [List.append_cons]
      exact ih (h.defines_define ht p)

/-- A block. -/
lemma TableOf.defines_effect (h : TableOf flavors table) {t : SymbolTables}
    {defs : List (Radix50Word × W36)} (ht : Defines (table t) (ofFlavors flavors defs))
    (b : RELBlock) :
    Defines (table (b.effect t)) (ofFlavors flavors (defs ++ b.definitions)) := by
  rw [RELBlock.effect]
  split
  case isTrue hcode =>
    have hnone : b.definitions = [] := if_neg (by omega)
    rw [hnone, List.append_nil]
    cases b.data with
    | nil => exact ht
    | cons symOrAddr vs =>
        rw [RELBlock.codeEffect]
        split
        · exact fun name value hlast => h.touch t _ (ht name value hlast)
        · exact ht
  case isFalse => exact h.defines_defineAll ht b.definitions

/-- **The definitions of a file** are in the table when its blocks have been loaded. -/
lemma TableOf.defines_effects (h : TableOf flavors table) {t : SymbolTables}
    {defs : List (Radix50Word × W36)} (ht : Defines (table t) (ofFlavors flavors defs))
    (bs : List RELBlock) :
    Defines (table (effects bs t))
      (ofFlavors flavors (defs ++ bs.flatMap RELBlock.definitions)) := by
  induction bs generalizing t defs with
  | nil =>
      rw [List.flatMap_nil, List.append_nil]
      exact ht
  | cons b bs ih =>
      rw [List.flatMap_cons, ← List.append_assoc]
      exact ih (h.defines_effect ht b)

end TableOf

/-! ### Symbols by value -/

/-- Naming values keeps the tables and the values that are named already, and names its own. -/
lemma foldl_nameValue (ps : List (String × W36)) (t : SymbolTables) :
    (ps.foldl SymbolTables.nameValue t).globalSymbols = t.globalSymbols ∧
      (ps.foldl SymbolTables.nameValue t).localSymbols = t.localSymbols ∧
      ∀ value, ((∃ p ∈ ps, p.2 = value) ∨ (t.valueToSymbol value).isSome) →
        ((ps.foldl SymbolTables.nameValue t).valueToSymbol value).isSome := by
  induction ps generalizing t with
  | nil => exact ⟨rfl, rfl, fun value h => h.resolve_left (by simp)⟩
  | cons p ps ih =>
      obtain ⟨hglobal, hlocal, hvalue⟩ := ih (t.nameValue p)
      refine ⟨hglobal, hlocal, fun value h => hvalue value ?_⟩
      by_cases heq : p.2 = value
      · refine .inr ?_
        rw [SymbolTables.nameValue, heq]
        exact congrArg Option.isSome (Function.update_self value (some p.1) t.valueToSymbol)
      · rcases h with ⟨q, hq, rfl⟩ | h
        · rcases List.mem_cons.mp hq with rfl | hq
          · exact absurd rfl heq
          · exact .inl ⟨q, hq, rfl⟩
        · refine .inr ?_
          rw [SymbolTables.nameValue]
          exact (congrArg Option.isSome
            (Function.update_of_ne (Ne.symm heq) (some p.1) t.valueToSymbol)).trans h

/-- **Every value** in one of the two tables is named. -/
lemma isSome_nameValues (t : SymbolTables) {name : String} {value : W36}
    (h : t.globalSymbols[name]? = some value ∨ t.localSymbols[name]? = some value) :
    (t.nameValues.valueToSymbol value).isSome := by
  refine (foldl_nameValue _ _).2.2 value ?_
  rcases h with h | h
  · refine .inr ((foldl_nameValue _ _).2.2 value (.inl ⟨(name, value), ?_, rfl⟩))
    exact Std.TreeMap.mem_toList_iff_getElem?_eq_some.mpr h
  · exact .inl ⟨(name, value), Std.TreeMap.mem_toList_iff_getElem?_eq_some.mpr h, rfl⟩

lemma tables_nameValues (t : SymbolTables) :
    t.nameValues.globalSymbols = t.globalSymbols ∧ t.nameValues.localSymbols = t.localSymbols := by
  obtain ⟨hglobal, hlocal, -⟩ := foldl_nameValue t.globalSymbols.toList t
  obtain ⟨hglobal', hlocal', -⟩ :=
    foldl_nameValue t.localSymbols.toList (t.globalSymbols.toList.foldl SymbolTables.nameValue t)
  exact ⟨hglobal'.trans hglobal, hlocal'.trans hlocal⟩

/-! ### Staying in step -/

/-- The symbols that the blocks of a file define. -/
def definitions (bs : List RELBlock) : List (Radix50Word × W36) := bs.flatMap RELBlock.definitions

/-- The tables have every global and local symbol of the file with its last value, and that value
is named. -/
structure HasSymbols (bs : List RELBlock) (t : SymbolTables) : Prop where
  globals : Defines t.globalSymbols (ofFlavors [0o4] (definitions bs))
  locals : Defines t.localSymbols (ofFlavors [0o10, 0o14] (definitions bs))
  values : ∀ name value, lastValue (ofFlavors [0o4] (definitions bs)) name = some value ∨
    lastValue (ofFlavors [0o10, 0o14] (definitions bs)) name = some value →
      (t.valueToSymbol value).isSome

/-- The loader stays in step with the blocks of a file: after `k` rounds its cursor is behind the
first `k` blocks, after as many rounds as there are blocks it ends without having read past the
end, and then its tables have the symbols. -/
structure StaysInStep (bs : List RELBlock) (t : SymbolTables) : Prop where
  cursors : ∀ k ≤ bs.length, ∃ c, loadRounds (file bs) ⟨0, t⟩ k = .ok c ∧
    c.x.toNat = (file (bs.take k)).length
  result : ∃ t', loadREL (file bs) bs.length t = .ok t' ∧ HasSymbols bs t'

/-- The tables after a file. -/
lemma hasSymbols_nameValues (bs : List RELBlock) (t : SymbolTables) :
    HasSymbols bs (effects bs t).nameValues := by
  have hnil {flavors : List ℕ} {table : Std.TreeMap String W36} :
      Defines table (ofFlavors flavors []) := fun name value h => by
    rw [ofFlavors, List.filter_nil, lastValue, List.filter_nil] at h
    cases h
  have hglobals := tableOf_globalSymbols.defines_effects (t := t) hnil bs
  have hlocals := tableOf_localSymbols.defines_effects (t := t) hnil bs
  rw [List.nil_append] at hglobals hlocals
  obtain ⟨hglobal, hlocal⟩ := tables_nameValues (effects bs t)
  constructor
  · rw [hglobal]
    exact hglobals
  · rw [hlocal]
    exact hlocals
  · exact fun name value h =>
      isSome_nameValues _ (h.imp (hglobals name value) (hlocals name value))

/-- Files of kept blocks. -/
lemma staysInStep_of_kept {bs : List RELBlock} (hsize : (file bs).length < 2 ^ 32)
    (hbs : ∀ b ∈ bs, b.Kept) (t : SymbolTables) : StaysInStep bs t := by
  constructor
  · intro k hk
    obtain ⟨c, hc, hx, -⟩ := loadRounds_of_kept hsize hbs t hk
    exact ⟨c, hc, hx⟩
  · obtain ⟨x, hx⟩ := loadBlocks_of_kept (c := ⟨0, t⟩) hsize hbs
      (ahead_of_toNat (k := 0) rfl) (Nat.zero_add _)
    refine ⟨(effects bs t).nameValues, ?_, hasSymbols_nameValues bs t⟩
    rw [loadREL, hx]

/-- **REL files**: the loader stays in step with the blocks of a file exactly when the cursor can
count its words, it has no HISEG block, and no block at the end of a program has words. -/
theorem staysInStep_iff (bs : List RELBlock) (t : SymbolTables) :
    StaysInStep bs t ↔ (file bs).length < 2 ^ 32 ∧ ∀ b ∈ bs, b.Kept := by
  refine ⟨fun h => ?_, fun ⟨hsize, hbs⟩ => staysInStep_of_kept hsize hbs t⟩
  have hsize : (file bs).length < 2 ^ 32 := by
    obtain ⟨c, -, hx⟩ := h.cursors bs.length le_rfl
    rw [List.take_length] at hx
    rw [← hx]
    exact c.x.isLt
  refine ⟨hsize, fun b hb => ?_⟩
  obtain ⟨k, hk, rfl⟩ := List.getElem_of_mem hb
  obtain ⟨c, hc, hx⟩ := h.cursors k hk.le
  obtain ⟨c', hc', hx'⟩ := h.cursors (k + 1) hk
  have hahead := ahead_of_toNat hx
  rw [(take_succ_eq hk).2, file_cons] at hahead
  -- the next round loads the block, and the cursor is behind it
  have hload : loadBlock (file bs) c = .ok c' := by
    rw [loadRounds, hc] at hc'
    exact hc'
  by_contra hnot
  refine x_ne_of_not_kept hsize hahead hnot hload (BitVec.eq_of_toNat_eq ?_)
  rw [hx', length_file_take_succ hk, ← hx]
  exact (hahead.advance hsize).1.symm

/-- The tables before any file. -/
def SymbolTables.empty : SymbolTables := ⟨∅, ∅, ∅, fun _ => none⟩

lemma wellFormed_hiseg : RELBlock.WellFormed 3 [0o400000, 0] := by
  constructor <;> decide

lemma wellFormed_globalA : RELBlock.WellFormed 2 [0o40000000013, 5] := by
  constructor <;> decide

/-- A HISEG block of two words. -/
def RELBlock.hiseg : RELBlock := ⟨3, 0, [0o400000, 0], wellFormed_hiseg⟩

/-- A symbol block that defines the global symbol A as 5. -/
def RELBlock.globalA : RELBlock := ⟨2, 0, [0o40000000013, 5], wellFormed_globalA⟩

/-- **Out of step**: after a HISEG block the loader takes the header of the next block for a word
of the first one, and it reads past the end. -/
theorem not_staysInStep_hiseg :
    loadREL (file [.hiseg, .globalA]) 3 .empty = .error .pastEnd ∧
      ¬ StaysInStep [.hiseg, .globalA] .empty := by
  refine ⟨rfl, fun h => ?_⟩
  obtain ⟨c, hc, hx⟩ := h.cursors 1 (by decide)
  have hround : loadRounds (file [.hiseg, .globalA]) ⟨0, .empty⟩ 1 = .ok ⟨5, .empty⟩ := rfl
  rw [hround] at hc
  cases hc
  exact absurd hx (by decide)

end KM10
