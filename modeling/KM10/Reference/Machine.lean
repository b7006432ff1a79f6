import KM10.Groups.Boolean
import KM10.Groups.Counts
import KM10.Groups.Half
import KM10.Groups.Moves
import KM10.Groups.Tests
import Mathlib.Logic.Function.Basic

/-!
A reference machine for programs of section 0.

It has nothing but words and a PC: no flags, no devices, no sections and no debugger.  What an
instruction does is read off the fields of its opcode, and what a call saves beside its return
address is left open.

* `Reference`: the words, of which the first 020 are the accumulators, and the PC;
* `Reference.Address`: the effective address of a word;
* `Operation`, `Operation.ofWord`: the instructions, and the words that are decoded as one;
* `Reference.execute`: what an instruction does;
* `Reference.Step`: one step of the machine.
-/

namespace KM10

open StateExcept

/-- The reference machine. -/
structure Reference where
  word : BitVec 18 → W36
  pc : BitVec 18

/-! ### The instructions -/

/-- The instructions of the reference machine, with the fields of their opcodes. -/
inductive Operation where
  | move (kind mode : ℕ)
  | exch
  | arith (subtract : Bool) (mode : ℕ)
  | aobj (negative : Bool)
  | jrst
  | pushj
  | push
  | pop
  | popj
  | jsr
  | jsp
  | jsa
  | jra
  | count (family digit : ℕ)
  | boolean (function mode : ℕ)
  | half (half effect opposite mode : ℕ)
  | test (modification memory rule other : ℕ)
deriving DecidableEq

/-- The instructions that have an opcode to themselves. -/
def Operation.single : List (ℕ × Operation) :=
  [(0o250, .exch), (0o252, .aobj false), (0o253, .aobj true), (0o260, .pushj), (0o261, .push),
    (0o262, .pop), (0o263, .popj), (0o264, .jsr), (0o265, .jsp), (0o266, .jsa), (0o267, .jra)]

/-- The instruction of a word.  JRST is one only in its plain form. -/
def Operation.ofWord (w : W36) : Option Operation :=
  let op := w.op.toNat
  if op / 0o20 = 0o10 then some (.move (op / 4 % 4) (op % 4))
  else if op / 0o10 = 0o27 then some (.arith (op / 4 % 2 = 1) (op % 4))
  else if op / 0o100 = 3 then some (.count (op / 0o10 % 8) (op % 8))
  else if op / 0o100 = 4 then some (.boolean (op / 4 % 16) (op % 4))
  else if op / 0o100 = 5 then
    some (.half (op / 0o40 % 2) (op / 0o10 % 4) (op / 4 % 2) (op % 4))
  else if op / 0o100 = 6 then
    some (.test (op / 0o20 % 4) (op / 0o10 % 2) (op / 2 % 4) (op % 2))
  else if op = 0o254 then (if w.ac = 0 then some .jrst else none)
  else Operation.single.lookup op

namespace Reference

variable (m : Reference)

/-! ### Words -/

/-- An accumulator. -/
def ac (n : BitVec 4) : W36 := m.word (n.setWidth 18)

/-- The machine with a word at an address. -/
def put (v : W36) (a : BitVec 18) : Reference := { m with word := Function.update m.word a v }

/-- The machine with a word in an accumulator. -/
def putAC (v : W36) (n : BitVec 4) : Reference := m.put v (n.setWidth 18)

/-- The machine with a word stored at a destination, with the AC field and the address of the
instruction. -/
def store (n : BitVec 4) (e : BitVec 18) (v : W36) : Dest → Reference
  | .ac => m.putAC v n
  | .mem => m.put v e
  | .both => (m.putAC v n).put v e
  | .self => if n = 0 then m.put v e else (m.put v e).putAC v n

/-- The machine with the PC further on. -/
def advance (n : BitVec 18) : Reference := { m with pc := m.pc + n }

/-- The machine with another PC. -/
def jump (a : BitVec 18) : Reference := { m with pc := a }

/-! ### Addresses -/

/-- The address that the fields of a word name, with the right half of the index register. -/
def linkAddress (w : W36) : BitVec 18 := if w.x ≠ 0 then w.y + (m.ac w.x).rhu else w.y

/-- The word at that address. -/
def nextLink (w : W36) : W36 := m.word (m.linkAddress w)

/-- The effective address of a word: that of the first word without I on the way from it. -/
def Address (w : W36) (e : BitVec 18) : Prop :=
  ∃ last, Chase.Ends m.nextLink (fun w => !w.i) w last ∧ m.linkAddress last = e

/-! ### Operands -/

section Operands

variable (n : BitVec 4) (e : BitVec 18)

/-- The source of the modes of a move: memory, immediate, accumulator, memory. -/
def modeSource (mode : ℕ) : W36 :=
  if mode = 1 then .halves 0 e else if mode = 2 then m.ac n else m.word e

/-- The word that the modes of a half-word instruction write over. -/
def modeTarget (mode : ℕ) : W36 := if mode < 2 then m.ac n else m.word e

/-- The second operand in the modes of the arithmetic and boolean instructions. -/
def operand (mode : ℕ) : W36 := if mode = 1 then .halves 0 e else m.word e

/-- The mask of a test. -/
def mask (memory other : ℕ) : W36 :=
  match memory, other with
  | 0, 0 => .halves 0 e
  | 0, _ => .halves e 0
  | _, 0 => m.word e
  | _, _ => .halves (m.word e).rhu (m.word e).lhu

/-- The numbers that a comparison or a count compares. -/
def comparands (family : ℕ) : ℤ × ℤ :=
  match family with
  | 0 => ((m.ac n).toInt, (W36.halves 0 e).toInt)
  | 1 => ((m.ac n).toInt, (m.word e).toInt)
  | 2 => ((m.ac n).toInt, 0)
  | 3 => ((m.word e).toInt, 0)
  | 4 => ((m.ac n + 1).toInt, 0)
  | 5 => ((m.word e + 1).toInt, 0)
  | 6 => ((m.ac n - 1).toInt, 0)
  | _ => ((m.word e - 1).toInt, 0)

/-- The machine with the words that a comparison or a count stores. -/
def counted (family : ℕ) : Reference :=
  match family with
  | 3 => if n = 0 then m else m.putAC (m.word e) n
  | 4 => m.putAC (m.ac n + 1) n
  | 5 => m.store n e (m.word e + 1) .self
  | 6 => m.putAC (m.ac n - 1) n
  | 7 => m.store n e (m.word e - 1) .self
  | _ => m

end Operands

/-! ### Stacks -/

/-- An accumulator with one added to both halves. -/
def stepped (n : BitVec 4) : W36 := .halves ((m.ac n).lhu + 1) ((m.ac n).rhu + 1)

/-- A word is pushed, unless the count runs out. -/
def pushed (n : BitVec 4) (v : W36) : Reference :=
  (if (m.stepped n).lhu = 0 then m else m.put v (m.stepped n).rhu).putAC (m.stepped n) n

/-- The last word of a stack. -/
def top (n : BitVec 4) : W36 := m.word (m.ac n).rhu

/-- The last word is taken off. -/
def popped (n : BitVec 4) : Reference :=
  m.putAC (.halves ((m.ac n).lhu - 1) ((m.ac n).rhu - 1)) n

/-! ### Steps -/

/-- What an instruction does, with its AC field and its effective address, and with `left` for
what a call saves beside the return address. -/
def execute (n : BitVec 4) (e left : BitVec 18) : Operation → Reference
  | .move kind mode =>
      (m.store n e (moved kind (m.modeSource n e mode)) (.ofMode mode)).advance 1
  | .exch => ((m.putAC (m.word e) n).put (m.ac n) e).advance 1
  | .arith subtract mode =>
      let v := if subtract then m.ac n - m.operand e mode else m.ac n + m.operand e mode
      (m.store n e v (.ofBooleanMode mode)).advance 1
  | .aobj negative =>
      let t := m.putAC (m.stepped n) n
      if (m.stepped n).msb = negative then t.jump e else t.advance 1
  | .jrst => m.jump e
  | .pushj => (m.pushed n (.halves left (m.pc + 1))).jump e
  | .push => (m.pushed n (m.word e)).advance 1
  | .pop => ((m.popped n).put (m.top n) e).advance 1
  | .popj => (m.popped n).jump (m.top n).rhu
  | .jsr => (m.put (.halves left (m.pc + 1)) e).jump (e + 1)
  | .jsp => (m.putAC (.halves left (m.pc + 1)) n).jump e
  | .jsa => ((m.put (m.ac n) e).putAC (.halves e (m.pc + 1)) n).jump (e + 1)
  | .jra => (m.putAC (m.word (m.ac n).lhu) n).jump e
  | .count family digit =>
      let t := m.counted n e family
      if relation digit (m.comparands n e family).1 (m.comparands n e family).2 then
        (if jumpsIn family then t.jump e else t.advance 2)
      else t.advance 1
  | .boolean function mode =>
      (m.store n e (TruthTable.minterms function (m.ac n) (m.operand e mode))
        (.ofBooleanMode mode)).advance 1
  | .half half effect opposite mode =>
      (m.store n e (halfWord half effect opposite (m.modeSource n e mode)
        (m.modeTarget n e mode)) (.ofMode mode)).advance 1
  | .test modification memory rule other =>
      let mask := m.mask e memory other
      (m.putAC (testedWord modification (m.ac n) mask) n).advance
        (if testSkips rule (m.ac n) mask then 2 else 1)

/-- The word that the machine executes next. -/
def instruction : W36 := m.word m.pc

/-- One step, labelled with the instruction: it is executed with its effective address. -/
def Step (w : W36) (t : Reference) : Prop :=
  w = m.instruction ∧ ∃ o e left, Operation.ofWord w = some o ∧ m.Address w e ∧
    t = m.execute w.ac e left o

end Reference

end KM10
