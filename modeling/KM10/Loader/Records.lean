import KM10.Loader.A10
import Mathlib.Data.Set.Insert
import Mathlib.Order.Bounds.Basic

/-!
ASCIIZED files and what they mean (the comment `PDP-10 ASCIIZED FILE FORMAT` of `km10.cpp`).

* `Record`: the records of a file, with the 18-bit addresses of the machine;
* `Record.apply`, `lastTransfer`: what a record does to the memory, and the start address;
* `IsField`, `IsLine`, `IsFile`: the texts of fields, records and files;
* `Loads`: the machine after a file and the returned bounds are those of its records.
-/

namespace KM10

/-! ### Records -/

/-- The number of words that a zero record clears; the count 0 stands for 64K. -/
def zeroWords (count : BitVec 16) : ℕ := if count = 0 then 64 * 1024 else count.toNat

/-- A record of a file.  The words of a record are in the memory, and the count of a data record
is in one byte. -/
inductive Record where
  | comment
  | zero (address : BitVec 18) (count : BitVec 16)
      (fits : address.toNat + zeroWords count ≤ 2 ^ 18)
  | data (address : BitVec 18) (words : List W36) (nonempty : words ≠ [])
      (fits : address.toNat + words.length ≤ 2 ^ 18) (wc : 3 * words.length < 2 ^ 8)
  | transfer (address : BitVec 18)

namespace Record

/-- The load address. -/
def address : Record → Option (BitVec 18)
  | comment => none
  | zero address _ _ => some address
  | data address _ _ _ _ => some address
  | transfer address => some address

/-- The words that are loaded from the load address on. -/
def words : Record → List W36
  | zero _ count _ => List.replicate (zeroWords count) 0
  | data _ words _ _ _ => words
  | _ => []

/-- The record loads the word at `a`. -/
def Writes (r : Record) (a : ℕ) : Prop :=
  ∃ address ∈ r.address, address.toNat ≤ a ∧ a < address.toNat + r.words.length

end Record

/-- The memory with these words from `address` on. -/
def overlay (memP : BitVec 18 → W36) (address : ℕ) (words : List W36) : BitVec 18 → W36 :=
  fun a => if address ≤ a.toNat then words[a.toNat - address]?.getD (memP a) else memP a

/-- What a record does to the memory. -/
def Record.apply (memP : BitVec 18 → W36) (r : Record) : BitVec 18 → W36 :=
  match r.address with
  | none => memP
  | some address => overlay memP address.toNat r.words

/-- The addresses of the words that are loaded. -/
def written (records : List Record) : Set ℕ := {a | ∃ r ∈ records, r.Writes a}

/-- The address of the last transfer record, if there is one. -/
def lastTransfer (records : List Record) : Option (BitVec 18) :=
  (records.filterMap fun
    | .transfer address => some address
    | _ => none).getLast?

/-! ### Texts -/

/-- The number that the characters of a field are the digits of. -/
def fieldValue (chars : InStream) : ℕ := chars.foldl (fun v ch => 64 * v + ch.toNat % 64) 0

/-- The characters are those of a field with this value. -/
structure IsField (chars : InStream) (v : BitVec 16) : Prop where
  separators : ∀ ch ∈ chars, ¬ IsSeparator ch
  value : fieldValue chars = v.toNat

/-- The word count, with the high bits of the address as its high byte. -/
def countField (address : BitVec 18) (wc : ℕ) : BitVec 16 :=
  BitVec.ofNat 16 (2 ^ 8 * (address.toNat / 2 ^ 16) + wc)

/-- The fields of data words: bits 20-35, 4-19 and 0-3 of each. -/
inductive IsData : List W36 → InStream → Prop where
  | nil : IsData [] []
  | cons {w : W36} {words : List W36} {low middle high text : InStream}
      (hlow : IsField low (w.extractLsb' 0 16)) (hmiddle : IsField middle (w.extractLsb' 16 16))
      (hhigh : IsField high ((w.extractLsb' 32 4).setWidth 16)) (rest : IsData words text) :
      IsData (w :: words)
        (low ++ ascii ',' :: (middle ++ ascii ',' :: (high ++ ascii ',' :: text)))

/-- The line of a record.  Its last fields and the checksum are any text. -/
inductive IsLine : Record → InStream → Prop where
  | comment {text : InStream} (htext : ascii '\n' ∉ text) :
      IsLine .comment (ascii ';' :: (text ++ [ascii '\n']))
  | zero {address : BitVec 18} {count : BitVec 16} {fits} {n : ℕ} {wc adr cnt rest : InStream}
      (hn : 1 ≤ n ∧ n ≤ 4) (hwc : IsField wc (countField address n))
      (hadr : IsField adr (address.setWidth 16)) (hcnt : IsField cnt count)
      (hrest : ascii '\n' ∉ rest) :
      IsLine (.zero address count fits)
        (ascii 'Z' :: ascii ' ' :: (wc ++ ascii ',' :: (adr ++ ascii ',' :: (cnt ++ ascii ',' ::
          (rest ++ [ascii '\n'])))))
  | data {address : BitVec 18} {words : List W36} {nonempty fits hbyte}
      {wc adr text cksum : InStream} (hwc : IsField wc (countField address (3 * words.length)))
      (hadr : IsField adr (address.setWidth 16)) (hdata : IsData words text)
      (hcksum : ascii '\n' ∉ cksum) :
      IsLine (.data address words nonempty fits hbyte)
        (ascii 'T' :: ascii ' ' :: (wc ++ ascii ',' :: (adr ++ ascii ',' :: (text ++
          (cksum ++ [ascii '\n'])))))
  | transfer {address : BitVec 18} {wc adr cksum : InStream}
      (hwc : IsField wc (countField address 0)) (hadr : IsField adr (address.setWidth 16))
      (hcksum : ascii '\n' ∉ cksum) :
      IsLine (.transfer address)
        (ascii 'T' :: ascii ' ' :: (wc ++ ascii ',' :: (adr ++ ascii ',' ::
          (cksum ++ [ascii '\n']))))

/-- A file is the lines of its records; it ends with them or with a NUL. -/
inductive IsFile : List Record → InStream → Prop where
  | eof : IsFile [] []
  | nul (rest : InStream) : IsFile [] (0 :: rest)
  | cons {r : Record} {line text : InStream} {records : List Record} (hline : IsLine r line)
      (rest : IsFile records text) : IsFile (r :: records) (line ++ text)

/-! ### The meaning of a file -/

/-- The machine and the bounds are those after the records, in order. -/
structure Loads (records : List Record) (s : Cpu) (result : (ℕ × ℕ) × Cpu) : Prop where
  memP : result.2.memP = records.foldl Record.apply s.memP
  /-- No other word is touched, -/
  untouched : ∀ a : BitVec 18, a.toNat ∉ written records → result.2.memP a = s.memP a
  pc : result.2.pc = ((lastTransfer records).map (W36.halves 0)).getD s.pc
  /-- and nothing else of the machine. -/
  others : result.2 = { s with memP := result.2.memP, pc := result.2.pc }
  /-- The lowest address written, or the bound it starts from if there is none. -/
  lowest : IsLeast (insert 0o777777 (written records)) result.1.1
  /-- The highest address written, likewise. -/
  highest : IsGreatest (insert 0 (written records)) result.1.2

end KM10
