import KM10.Machine.Cpu

/-!
The loader of ASCIIZED files (`getWord` and `loadA10` of `km10.cpp`).

A file is the list of the bytes that are left to read; reading past its end gives `EOF`.

* `getWord`: the next field as a 16-bit number, six bits a character;
* `loadRecord`: what the loop does with a record;
* `loadRecords`: the loop, which ends because every round reads a character;
* `Cpu.loadA10`: the machine after a file, and the addresses that are returned.
-/

namespace KM10

/-- A file, as the bytes that are left to read. -/
abbrev InStream := List (BitVec 8)

/-- A character of the source as a byte. -/
def ascii (c : Char) : BitVec 8 := BitVec.ofNat 8 c.toNat

/-- `EOF` as a `char`, which the byte 0377 is too. -/
def eof : BitVec 8 := 0o377

/-! ### Reading -/

/-- `inS.get()`. -/
def getChar : InStream → BitVec 8 × InStream
  | [] => (eof, [])
  | ch :: inS => (ch, inS)

/-- `inS.ignore` up to the next newline. -/
def ignoreLine : InStream → InStream
  | [] => []
  | ch :: inS => if ch = ascii '\n' then inS else ignoreLine inS

/-- The character ends a field. -/
def IsSeparator (ch : BitVec 8) : Prop := ch = eof ∨ ch = ascii ',' ∨ ch = ascii '\n'

instance (ch : BitVec 8) : Decidable (IsSeparator ch) :=
  inferInstanceAs (Decidable (_ ∨ _ ∨ _))

/-- The loop of `getWord`, from the value `v` on. -/
def getWordFrom (v : BitVec 32) : InStream → BitVec 16 × InStream
  | [] => (v.setWidth 16, [])
  | ch :: inS =>
      if IsSeparator ch then (v.setWidth 16, inS)
      else getWordFrom (v <<< 6 ||| (ch &&& 0o77).setWidth 32) inS

/-- `getWord`. -/
def getWord (inS : InStream) : BitVec 16 × InStream := getWordFrom 0 inS

/-! ### Storing -/

/-- What the loader changes: the machine and its bounds. -/
structure Loading where
  cpu : Cpu
  lowestAddr : ℕ
  highestAddr : ℕ

namespace Loading

/-- The bounds and the word `memP[a]`. -/
def put (l : Loading) (a : ℕ) (w : W36) : Loading where
  cpu := l.cpu.setMem w (BitVec.ofNat 18 a)
  lowestAddr := if a < l.lowestAddr then a else l.lowestAddr
  highestAddr := if l.highestAddr < a then a else l.highestAddr

/-- The loop of a Z record over the words from `addr` on. -/
def zero (l : Loading) (addr : ℕ) : ℕ → Loading
  | 0 => l
  | count + 1 => (l.put addr 0).zero (addr + 1) count

/-- The loop of a T record: three fields make a word. -/
def store (l : Loading) (addr : ℕ) (inS : InStream) : ℕ → Loading × InStream
  | 0 => (l, inS)
  | count + 1 =>
      let (w0, inS) := getWord inS
      let (w1, inS) := getWord inS
      let (w2, inS) := getWord inS
      (l.put addr (w2.setWidth 4 ++ w1 ++ w0)).store (addr + 1) inS count

/-- The transfer address as PC. -/
def transfer (l : Loading) (addr : BitVec 16) : Loading :=
  { l with cpu := { l.cpu with pc := W36.halves 0 (addr.setWidth 18) } }

end Loading

/-! ### Records -/

/-- The `switch` on the type of a record. -/
def loadFields (l : Loading) (recType : BitVec 8) (wc addr : BitVec 16) (inS : InStream) :
    Loading × InStream :=
  if recType = ascii 'Z' then
    let (zeroCount, inS) := getWord inS
    let zeroCount := if zeroCount = 0 then 64 * 1024 else zeroCount.toNat
    (l.zero addr.toNat zeroCount, ignoreLine inS)
  else if recType = ascii 'T' then
    let l := if wc = 0 then l.transfer addr else l
    let (l, inS) := l.store addr.toNat inS (wc.toNat / 3)
    (l, ignoreLine inS)
  else (l, inS)

/-- One round of the loop for a record that is no comment, after its type. -/
def loadRecord (l : Loading) (recType : BitVec 8) (inS : InStream) : Loading × InStream :=
  let (_, inS) := getChar inS
  let (wc, inS) := getWord inS
  let (addr, inS) := getWord inS
  -- the bits are put back where they come from, as bits 14 and 15 of the address
  loadFields l recType (wc &&& ~~~0xC000) (addr ||| (wc &&& 0xC000)) inS

lemma length_getChar_le (inS : InStream) : (getChar inS).2.length ≤ inS.length := by
  cases inS with
  | nil => exact le_rfl
  | cons ch inS => exact Nat.le_succ _

lemma length_ignoreLine_le (inS : InStream) : (ignoreLine inS).length ≤ inS.length := by
  induction inS with
  | nil => exact le_rfl
  | cons ch inS ih =>
      rw [ignoreLine]
      split
      · exact Nat.le_succ _
      · exact ih.trans (Nat.le_succ _)

lemma length_getWordFrom_le (v : BitVec 32) (inS : InStream) :
    (getWordFrom v inS).2.length ≤ inS.length := by
  induction inS generalizing v with
  | nil => exact le_rfl
  | cons ch inS ih =>
      rw [getWordFrom]
      split
      · exact Nat.le_succ _
      · exact (ih _).trans (Nat.le_succ _)

lemma length_getWord_le (inS : InStream) : (getWord inS).2.length ≤ inS.length :=
  length_getWordFrom_le 0 inS

lemma Loading.length_store_le (l : Loading) (addr : ℕ) (inS : InStream) (count : ℕ) :
    (l.store addr inS count).2.length ≤ inS.length := by
  induction count generalizing l addr inS with
  | zero => exact le_rfl
  | succ count ih =>
      exact (ih _ _ _).trans ((length_getWord_le _).trans ((length_getWord_le _).trans
        (length_getWord_le _)))

lemma length_loadFields_le (l : Loading) (recType : BitVec 8) (wc addr : BitVec 16)
    (inS : InStream) : (loadFields l recType wc addr inS).2.length ≤ inS.length := by
  rw [loadFields]
  split
  · exact (length_ignoreLine_le _).trans (length_getWord_le _)
  · split
    · exact (length_ignoreLine_le _).trans (Loading.length_store_le _ _ _ _)
    · exact le_rfl

/-- A record leaves no more than it has found. -/
lemma length_loadRecord_le (l : Loading) (recType : BitVec 8) (inS : InStream) :
    (loadRecord l recType inS).2.length ≤ inS.length :=
  (length_loadFields_le _ _ _ _ _).trans ((length_getWord_le _).trans
    ((length_getWord_le _).trans (length_getChar_le _)))

/-- The loop of `loadA10`. -/
def loadRecords (l : Loading) : InStream → Loading
  | [] => l
  | recType :: inS =>
      if recType = eof ∨ recType = 0 then l
      else if recType = ascii ';' then loadRecords l (ignoreLine inS)
      else loadRecords (loadRecord l recType inS).1 (loadRecord l recType inS).2
termination_by inS => inS.length
decreasing_by
  · exact Nat.lt_succ_of_le (length_ignoreLine_le _)
  · exact Nat.lt_succ_of_le (length_loadRecord_le _ _ _)

/-- `loadA10` on a file with these bytes: the lowest and the highest address, and the machine. -/
def Cpu.loadA10 (s : Cpu) (inS : InStream) : (ℕ × ℕ) × Cpu :=
  let l := loadRecords ⟨s, 0o777777, 0⟩ inS
  ((l.lowestAddr, l.highestAddr), l.cpu)

end KM10
