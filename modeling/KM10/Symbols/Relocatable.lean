import KM10.Machine.Word
import Mathlib.Algebra.Group.Basic

/-!
The loader of REL files (`Debugger::loadREL`), which defines symbols for the debugger.

The vector of words is a sequence of blocks.  A loop reads the header and the relocation word of
a block and calls the handler of its type, which moves the same cursor.

* `Radix50Word`: a symbol with its flavor;
* `SymbolTables`, `RELCursor`: the tables of the debugger, and the cursor with them;
* `blockTypeHandler`: the handlers of the types 0 to 7; what they print, and the load address
  that is only printed, is left out;
* `loadBlock`, `loadBlocks`, `loadREL`: a round of the loop, the loop, and the tables afterwards.
-/

namespace KM10

/-! ### Symbols -/

/-- A symbol in base 40 with four bits of format. -/
structure Radix50Word where
  rad50 : BitVec 32
  format : BitVec 4
deriving DecidableEq

namespace Radix50Word

/-- `Radix50Word(W36 w)`. -/
def ofWord (w : W36) : Radix50Word := ⟨w.setWidth 32, (w >>> 32).setWidth 4⟩

/-- The octal version of bits 0 to 3. -/
def flavor (sym : Radix50Word) : ℕ := sym.format.toNat <<< 2

/-- `RADIX50`. -/
def radix50 : List Char := " 0123456789ABCDEFGHIJKLMNOPQRSTUVWXYZ$.%".toList

/-- The loop of `toString`, which puts characters in front of `s`. -/
def digits : ℕ → ℕ → List Char → List Char
  | 0, _, s => s
  | k + 1, v, s => if v = 0 then s else digits k (v / 40) (radix50.getD (v % 40) ' ' :: s)

/-- `toString`. -/
def name (sym : Radix50Word) : String := String.ofList (digits 8 sym.rad50.toNat [])

end Radix50Word

/-- The symbol tables of the debugger. -/
structure SymbolTables where
  globalSymbols : Std.TreeMap String W36
  localSymbols : Std.TreeMap String W36
  localInvisibleSymbols : Std.TreeMap String W36
  valueToSymbol : W36 → Option String

namespace SymbolTables

/-- The `switch` of the symbol handler. -/
def define (t : SymbolTables) (sym : Radix50Word) (value : W36) : SymbolTables :=
  if sym.flavor = 0o4 then
    { t with globalSymbols := t.globalSymbols.insert sym.name value }
  else if sym.flavor = 0o10 ∨ sym.flavor = 0o14 then
    { t with localSymbols := t.localSymbols.insert sym.name value }
  else if sym.flavor = 0o50 then
    { t with localInvisibleSymbols := t.localInvisibleSymbols.insert sym.name value }
  else t

/-- The access `globalSymbols[symbol]`, which puts a symbol without a value into the table. -/
def touchGlobal (t : SymbolTables) (symbol : String) : SymbolTables :=
  { t with globalSymbols := t.globalSymbols.insertIfNew symbol 0 }

/-- The store `valueToSymbol[pair.second] = pair.first`. -/
def nameValue (t : SymbolTables) (pair : String × W36) : SymbolTables :=
  { t with valueToSymbol := Function.update t.valueToSymbol pair.2 (some pair.1) }

/-- The two loops that build `valueToSymbol`. -/
def nameValues (t : SymbolTables) : SymbolTables :=
  t.localSymbols.toList.foldl nameValue (t.globalSymbols.toList.foldl nameValue t)

end SymbolTables

/-- Why the loop stops before the end of the vector: it has read past the end, it has met a block
type without a handler, or it is still going on after a number of rounds. -/
inductive LoadStop where
  | pastEnd
  | notDefined (tables : SymbolTables)
  | unfinished

/-! ### Handlers -/

/-- The cursor `x` into the vector, and the tables. -/
structure RELCursor where
  x : BitVec 32
  tables : SymbolTables

/-- A handler reads the vector, for a block of `sc` words that start at `relX`. -/
abbrev BlockHandler :=
  List W36 → BitVec 32 → BitVec 32 → RELCursor → Except LoadStop RELCursor

/-- `rel[x++]`. -/
def fetchREL (rel : List W36) (c : RELCursor) : Except LoadStop (W36 × RELCursor) :=
  match rel[c.x.toNat]? with
  | some w => .ok (w, { c with x := c.x + 1 })
  | none => .error .pastEnd

/-- A number of words, of which nothing is kept. -/
def skipREL (rel : List W36) : ℕ → RELCursor → Except LoadStop RELCursor
  | 0, c => .ok c
  | n + 1, c => do
      let (_, c) ← fetchREL rel c
      skipREL rel n c

/-- The loop of the code handler.  Each round brings `x` nearer to the end of the block, so that
as many rounds as it has words are enough. -/
def codeWords (rel : List W36) (sc relX : BitVec 32) : ℕ → RELCursor → Except LoadStop RELCursor
  | 0, c => .ok c
  | rounds + 1, c =>
      if c.x - relX < sc then do
        let (_, c) ← fetchREL rel c
        codeWords rel sc relX rounds c
      else .ok c

/-- The loop of the symbol handler. -/
def symbolPairs (rel : List W36) (sc relX : BitVec 32) :
    ℕ → RELCursor → Except LoadStop RELCursor
  | 0, c => .ok c
  | rounds + 1, c =>
      if c.x - relX < sc then do
        let (sym, c) ← fetchREL rel c
        let (value, c) ← fetchREL rel c
        symbolPairs rel sc relX rounds
          { c with tables := c.tables.define (.ofWord sym) value }
      else .ok c

/-- 000: ignored. -/
def ignoredBlock : BlockHandler := fun _ sc _ c => .ok { c with x := c.x + sc }

/-- 001: code.  The address word is followed by an offset, which is read only if the address
word is a symbol. -/
def codeBlock : BlockHandler := fun rel sc relX c => do
  let (symOrAddr, c) ← fetchREL rel c
  if symOrAddr >>> 32 = 0o14 then
    let (_, c) ← fetchREL rel
      { c with tables := c.tables.touchGlobal (Radix50Word.ofWord symOrAddr).name }
    codeWords rel sc relX sc.toNat c
  else codeWords rel sc relX sc.toNat { c with x := c.x + 1 }

/-- 002: symbols. -/
def symbolBlock : BlockHandler := fun rel sc relX c => symbolPairs rel sc relX sc.toNat c

/-- 003: HISEG.  The loop runs from 0 to `sc`. -/
def hisegBlock : BlockHandler := fun rel sc _ c => skipREL rel (sc.toNat + 1) c

/-- 004: entry symbols. -/
def entryBlock : BlockHandler := fun rel sc _ c => skipREL rel sc.toNat c

/-- 005: end of program. -/
def endBlock : BlockHandler := fun _ _ _ c => .ok c

/-- 006: program name. -/
def nameBlock : BlockHandler := fun rel _ _ c => skipREL rel 2 c

/-- 007: start. -/
def startBlock : BlockHandler := fun rel sc _ c => do
  let (_, c) ← fetchREL rel c
  if 2 ≤ sc then
    let (_, c) ← fetchREL rel c
    return c
  else return c

/-- `blockTypeHandler`. -/
def blockTypeHandler : ℕ → Option BlockHandler
  | 0 => some ignoredBlock
  | 1 => some codeBlock
  | 2 => some symbolBlock
  | 3 => some hisegBlock
  | 4 => some entryBlock
  | 5 => some endBlock
  | 6 => some nameBlock
  | 7 => some startBlock
  | _ => none

/-! ### The loop -/

/-- The call of the handler for a header, with the cursor behind the relocation word. -/
def callHandler (rel : List W36) (header : W36) (c : RELCursor) : Except LoadStop RELCursor :=
  match blockTypeHandler header.lhu.toNat with
  | some handler => handler rel (header.rhu.setWidth 32) c.x c
  | none => .error (.notDefined c.tables)

/-- A round of the loop: the header, the relocation word, and the handler. -/
def loadBlock (rel : List W36) (c : RELCursor) : Except LoadStop RELCursor := do
  let (header, c) ← fetchREL rel c
  let (_, c) ← fetchREL rel c
  callHandler rel header c

/-- The loop, for a number of rounds at most. -/
def loadBlocks (rel : List W36) : ℕ → RELCursor → Except LoadStop RELCursor
  | 0, c => if c.x.toNat < rel.length then .error .unfinished else .ok c
  | rounds + 1, c =>
      if c.x.toNat < rel.length then do
        let c ← loadBlock rel c
        loadBlocks rel rounds c
      else .ok c

/-- `loadREL` on the words of the file, for a number of rounds at most.  It returns early at a
block type without a handler. -/
def loadREL (rel : List W36) (rounds : ℕ) (t : SymbolTables) : Except LoadStop SymbolTables :=
  match loadBlocks rel rounds ⟨0, t⟩ with
  | .ok c => .ok c.tables.nameValues
  | .error (.notDefined t) => .ok t
  | .error stop => .error stop

end KM10
