import KM10.Library.StateExcept
import KM10.Symbols.InStep
import KM10.Text.Words
import Mathlib.Data.Nat.Find

/-!
Words as the debugger prints them (`Debugger::symbolicForm`), with the symbols of a listing file.

* `SymbolTables.symbolicForm`: the nearest symbol below with an offset, or the number;
* `Backed`: every named value is that of a symbol, as a file leaves them (`backed_nameValues`);
* `symbolicForm_denotes`: what is printed stands for the word, by the tables of the debugger or as
  it reads numbers, and no nearer symbol has been passed over.
-/

namespace KM10

open Numerals

namespace SymbolTables

/-- A symbol with an offset. -/
def offsetForm (name : String) (delta : ℕ) : List Char :=
  if delta = 0 then name.toList else name.toList ++ '+' :: numeral 8 1 delta

/-- The number, as both halves unless the left one is zero. -/
def octalForm (w : W36) : List Char := if w.lhu ≠ 0 then w.fmt36 else w.fmt18

/-- The greatest named value that is at most `n`, which is the entry in front of `upper_bound`; zero
if there is none. -/
def entryBelow (t : SymbolTables) (n : ℕ) : ℕ :=
  Nat.findGreatest (fun v => (t.valueToSymbol (W36.ofNat v)).isSome) n

/-- `symbolicForm`. -/
def symbolicForm (t : SymbolTables) (w : W36) : List Char :=
  let v := t.entryBelow w.toNat
  match t.valueToSymbol (W36.ofNat v) with
  | some name =>
      let delta := w.toNat - v
      if delta < 0o1000 then offsetForm name delta else octalForm w
  | none => octalForm w

/-! ### Named values -/

/-- A symbol of the tables has the value. -/
def Defined (t : SymbolTables) (name : String) (v : W36) : Prop :=
  t.globalSymbols[name]? = some v ∨ t.localSymbols[name]? = some v

/-- Every named value is that of a symbol with its name. -/
def Backed (t : SymbolTables) : Prop :=
  ∀ v name, t.valueToSymbol v = some name → t.Defined name v

/-- What a value is named after a row of stores. -/
lemma named_of_foldl {ps : List (String × W36)} {t : SymbolTables} {v : W36} {name : String}
    (h : (ps.foldl nameValue t).valueToSymbol v = some name) :
    (name, v) ∈ ps ∨ t.valueToSymbol v = some name := by
  induction ps generalizing t with
  | nil => exact .inr h
  | cons p ps ih =>
      rcases ih h with hmem | h
      · exact .inl (List.mem_cons_of_mem p hmem)
      · by_cases hv : v = p.2
        · rw [nameValue, hv] at h
          have hname : p.1 = name := Option.some.inj
            ((Function.update_self p.2 (some p.1) t.valueToSymbol).symm.trans h)
          refine .inl ?_
          rw [← hname, hv]
          exact List.mem_cons_self
        · rw [nameValue] at h
          exact .inr ((Function.update_of_ne hv (some p.1) t.valueToSymbol).symm.trans h)

/-- **The loops at the end** name values of symbols only. -/
lemma backed_nameValues {t : SymbolTables} (h : ∀ v, t.valueToSymbol v = none) :
    t.nameValues.Backed := by
  intro v name hname
  obtain ⟨hglobal, hlocal⟩ := tables_nameValues t
  rw [Defined, hglobal, hlocal]
  rw [nameValues] at hname
  rcases named_of_foldl hname with hmem | hname
  · exact .inr (Std.TreeMap.mem_toList_iff_getElem?_eq_some.mp hmem)
  · rcases named_of_foldl hname with hmem | hname
    · exact .inl (Std.TreeMap.mem_toList_iff_getElem?_eq_some.mp hmem)
    · rw [h v] at hname
      cases hname

/-! ### Blocks -/

/-- The named values are the same. -/
def SameNames (t t' : SymbolTables) : Prop := t'.valueToSymbol = t.valueToSymbol

lemma sameNames_define (t : SymbolTables) (sym : Radix50Word) (value : W36) :
    SameNames t (t.define sym value) := by
  rw [define]
  split
  · rfl
  · split
    · rfl
    · split <;> rfl

end SymbolTables

open SymbolTables StateExcept

section Blocks

variable {rel : List W36} {c c' : RELCursor}

lemma tables_fetchREL {w : W36} (h : fetchREL rel c = .ok (w, c')) : c'.tables = c.tables := by
  rw [fetchREL] at h
  split at h
  · cases h
    rfl
  · cases h

lemma tables_skipREL {n : ℕ} (h : skipREL rel n c = .ok c') : c'.tables = c.tables := by
  induction n generalizing c with
  | zero =>
      cases h
      rfl
  | succ n ih =>
      obtain ⟨⟨_, c₁⟩, hfetch, h⟩ := ok_of_bind h
      exact (ih h).trans (tables_fetchREL hfetch)

lemma tables_codeWords {sc relX : BitVec 32} {rounds : ℕ}
    (h : codeWords rel sc relX rounds c = .ok c') : c'.tables = c.tables := by
  induction rounds generalizing c with
  | zero =>
      cases h
      rfl
  | succ rounds ih =>
      rw [codeWords] at h
      split at h
      case isTrue =>
        obtain ⟨⟨_, c₁⟩, hfetch, h⟩ := ok_of_bind h
        exact (ih h).trans (tables_fetchREL hfetch)
      case isFalse =>
        cases h
        rfl

lemma sameNames_symbolPairs {sc relX : BitVec 32} {rounds : ℕ}
    (h : symbolPairs rel sc relX rounds c = .ok c') : SameNames c.tables c'.tables := by
  induction rounds generalizing c with
  | zero =>
      cases h
      rfl
  | succ rounds ih =>
      rw [symbolPairs] at h
      split at h
      case isTrue =>
        obtain ⟨⟨sym, c₁⟩, hfetch, h⟩ := ok_of_bind h
        obtain ⟨⟨value, c₂⟩, hfetch', h⟩ := ok_of_bind h
        have hdefine := ih h
        rw [SameNames, tables_fetchREL hfetch', tables_fetchREL hfetch] at hdefine
        exact hdefine.trans (sameNames_define _ _ _)
      case isFalse =>
        cases h
        rfl

/-- **No handler** names values. -/
lemma sameNames_handler {blockType : ℕ} {handler : BlockHandler} {sc relX : BitVec 32}
    (hhandler : blockTypeHandler blockType = some handler)
    (h : handler rel sc relX c = .ok c') : SameNames c.tables c'.tables := by
  have htables (heq : c'.tables = c.tables) : SameNames c.tables c'.tables := by
    rw [SameNames, heq]
  unfold blockTypeHandler at hhandler
  split at hhandler
  case h_1 =>
    cases hhandler
    cases h
    rfl
  case h_2 =>
    cases hhandler
    obtain ⟨⟨symOrAddr, c₁⟩, hfetch, h⟩ := ok_of_bind h
    simp only at h
    split at h
    case isTrue =>
      obtain ⟨⟨_, c₂⟩, hfetch', h⟩ := ok_of_bind h
      rw [SameNames, tables_codeWords h, tables_fetchREL hfetch', touchGlobal,
        tables_fetchREL hfetch]
    case isFalse =>
      have hcode := tables_codeWords h
      have hfirst := tables_fetchREL hfetch
      exact htables (hcode.trans hfirst)
  case h_3 =>
    cases hhandler
    exact sameNames_symbolPairs h
  case h_4 =>
    cases hhandler
    exact htables (tables_skipREL h)
  case h_5 =>
    cases hhandler
    exact htables (tables_skipREL h)
  case h_6 =>
    cases hhandler
    cases h
    rfl
  case h_7 =>
    cases hhandler
    exact htables (tables_skipREL h)
  case h_8 =>
    cases hhandler
    obtain ⟨⟨_, c₁⟩, hfetch, h⟩ := ok_of_bind h
    simp only at h
    split at h
    case isTrue =>
      obtain ⟨⟨_, c₂⟩, hfetch', h⟩ := ok_of_bind h
      cases h
      exact htables ((tables_fetchREL hfetch').trans (tables_fetchREL hfetch))
    case isFalse =>
      cases h
      exact htables (tables_fetchREL hfetch)
  case h_9 => cases hhandler

/-- Nor does the loop. -/
lemma sameNames_loadBlocks {rounds : ℕ} (h : loadBlocks rel rounds c = .ok c') :
    SameNames c.tables c'.tables := by
  induction rounds generalizing c with
  | zero =>
      rw [loadBlocks] at h
      split at h
      · cases h
      · cases h
        rfl
  | succ rounds ih =>
      rw [loadBlocks] at h
      split at h
      case isTrue =>
        obtain ⟨c₃, hblock, h⟩ := ok_of_bind h
        obtain ⟨⟨header, c₁⟩, hfetch, hblock⟩ := ok_of_bind hblock
        obtain ⟨⟨_, c₂⟩, hfetch', hblock⟩ := ok_of_bind hblock
        have hnames : SameNames c₂.tables c₃.tables := by
          simp only [callHandler] at hblock
          split at hblock
          case h_1 handler hhandler => exact sameNames_handler hhandler hblock
          case h_2 => cases hblock
        rw [SameNames, tables_fetchREL hfetch', tables_fetchREL hfetch] at hnames
        exact (ih h).trans hnames
      case isFalse =>
        cases h
        rfl

end Blocks

/-! ### What is printed -/

/-- No symbol has a value from `v` on that is at most `w`. -/
def SymbolTables.NoneFrom (t : SymbolTables) (v : ℕ) (w : W36) : Prop :=
  ∀ name u, t.Defined name u → v ≤ u.toNat → w.toNat < u.toNat

/-- A number is read as the word. -/
lemma ofString_octalForm (w : W36) : W36.ofString (octalForm w) = .ok w := by
  rw [octalForm]
  split
  case isTrue =>
    have h := (@W36.ofString_halves 6 w.lhu w.rhu _ noNumeral_nil).1
    rwa [List.append_nil, W36.halves_eta] at h
  case isFalse hl =>
    have hw : w.rhu.toNat = w.toNat := by
      rw [← W36.halves_eta w, not_not.mp hl, W36.toNat_halves, W36.rhu_halves]
      exact (Nat.zero_add _).symm
    have h := (W36.ofString_numeral 6 w.isLt noNumeral_nil rfl).1
    rw [List.append_nil, W36.ofNat, BitVec.ofNat_toNat, BitVec.setWidth_eq] at h
    rw [W36.fmt18, hw, h]

/-- No symbol has a value between the entry and the word. -/
lemma noneFrom_entryBelow {t : SymbolTables}
    (hnamed : ∀ name v, t.Defined name v → (t.valueToSymbol v).isSome) (w : W36) :
    t.NoneFrom (t.entryBelow w.toNat + 1) w := by
  intro name u hu hv
  by_contra hle
  refine Nat.findGreatest_is_greatest (Nat.lt_of_succ_le hv) (not_lt.mp hle) ?_
  rw [W36.ofNat, BitVec.ofNat_toNat, BitVec.setWidth_eq]
  exact hnamed name u hu

/-- **What is printed stands for the word.**  After a listing file that has been read to its end
into fresh tables, the debugger prints a word as a symbol with an offset below 01000, whose value
and offset make the word, and no symbol has a value in between; or no symbol is so near below it,
and the number that is printed is read as the word. -/
theorem symbolicForm_denotes {rel : List W36} {rounds : ℕ} {t : SymbolTables} {c : RELCursor}
    (hfresh : ∀ v, t.valueToSymbol v = none) (h : loadBlocks rel rounds ⟨0, t⟩ = .ok c) :
    ∃ t', loadREL rel rounds t = .ok t' ∧ ∀ w : W36,
      (∃ name v delta, t'.Defined name v ∧ v.toNat + delta = w.toNat ∧ delta < 0o1000 ∧
        t'.NoneFrom (v.toNat + 1) w ∧ t'.symbolicForm w = offsetForm name delta) ∨
      t'.NoneFrom (w.toNat + 1 - 0o1000) w ∧ W36.ofString (t'.symbolicForm w) = .ok w := by
  have hbacked := backed_nameValues (t := c.tables) fun v =>
    (congrFun (sameNames_loadBlocks h) v).trans (hfresh v)
  have hnamed (name : String) (v : W36) (hv : c.tables.nameValues.Defined name v) :
      (c.tables.nameValues.valueToSymbol v).isSome := by
    obtain ⟨hglobal, hlocal⟩ := tables_nameValues c.tables
    rw [Defined, hglobal, hlocal] at hv
    exact isSome_nameValues c.tables hv
  refine ⟨c.tables.nameValues, by rw [loadREL, h], fun w => ?_⟩
  have hnone := noneFrom_entryBelow hnamed w
  obtain ⟨v, hv⟩ : ∃ v, c.tables.nameValues.entryBelow w.toNat = v := ⟨_, rfl⟩
  have hle : v ≤ w.toNat := hv ▸ Nat.findGreatest_le w.toNat
  rw [hv] at hnone
  rw [symbolicForm, hv]
  cases hname : c.tables.nameValues.valueToSymbol (W36.ofNat v) with
  | some name =>
      have hvalue : (W36.ofNat v).toNat = v := by
        rw [W36.ofNat, BitVec.toNat_ofNat, Nat.mod_eq_of_lt (hle.trans_lt w.isLt)]
      by_cases hnear : w.toNat - v < 0o1000
      · refine .inl ⟨name, W36.ofNat v, w.toNat - v, hbacked _ _ hname, ?_, hnear, ?_, ?_⟩
        · rw [hvalue, Nat.add_sub_cancel' hle]
        · rwa [hvalue]
        · exact if_pos hnear
      · refine .inr ⟨fun name' u hu hfrom => hnone name' u hu (by omega), ?_⟩
        rw [← ofString_octalForm w]
        exact congrArg W36.ofString (if_neg hnear)
  | none =>
      refine .inr ⟨fun name' u hu hfrom => ?_, ofString_octalForm w⟩
      by_contra hbelow
      have hspec := Nat.findGreatest_spec
        (P := fun v => (c.tables.nameValues.valueToSymbol (W36.ofNat v)).isSome)
        (not_lt.mp hbelow) (by
          rw [W36.ofNat, BitVec.ofNat_toNat, BitVec.setWidth_eq]
          exact hnamed name' u hu)
      change (c.tables.nameValues.valueToSymbol
        (W36.ofNat (c.tables.nameValues.entryBelow w.toNat))).isSome = true at hspec
      rw [hv, hname] at hspec
      cases hspec

/-- A block that defines the global symbol A as 01000. -/
def oneSymbol : List W36 := [0o000002000002, 0, 0o040000000013, 0o1000]

/-- The word 01002, after a file with that block. -/
theorem symbolicForm_denotes_oneSymbol :
    ∃ t', loadREL oneSymbol 1 .empty = .ok t' ∧ ∀ w : W36,
      (∃ name v delta, t'.Defined name v ∧ v.toNat + delta = w.toNat ∧ delta < 0o1000 ∧
        t'.NoneFrom (v.toNat + 1) w ∧ t'.symbolicForm w = offsetForm name delta) ∨
      t'.NoneFrom (w.toNat + 1 - 0o1000) w ∧ W36.ofString (t'.symbolicForm w) = .ok w :=
  @symbolicForm_denotes oneSymbol 1 .empty
    ⟨4, SymbolTables.empty.define (.ofWord 0o040000000013) 0o1000⟩ (fun _ => rfl) rfl

end KM10
