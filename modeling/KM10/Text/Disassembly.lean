import KM10.Effects.UUOs
import KM10.Instr.Disasm
import KM10.Text.Symbolic

/-!
The disassembler (`W36::disasm` of `word.cpp`).

* `opcodeNames`: the mnemonics of the opcodes below 0700, section by section;
* `W36.mnemonicField`, `W36.disasmOperand`, `W36.disasm`: the mnemonic with the field in front of
  the comma, the operand, and the line;
* `tagged`: every mnemonic belongs to one opcode, or to one operation of the I/O instructions;
* `W36.tag`: what the mnemonic of a word stands for, an opcode or an I/O operation;
* `disasm_inj`: lines are the same exactly for words that look the same, and an opcode that is
  printed as a UUO is executed as one.
-/

namespace KM10

open Numerals

/-! ### Mnemonics -/

/-- Full word movement. -/
def fullWordMovement : List (ℕ × String) :=
  [(0o250, "EXCH"), (0o200, "MOVE"), (0o201, "MOVEI"), (0o202, "MOVEM"), (0o203, "MOVES"),
    (0o210, "MOVN"), (0o211, "MOVNI"), (0o212, "MOVNM"), (0o213, "MOVNS"), (0o415, "XMOVEI"),
    (0o120, "DMOVE"), (0o121, "DMOVEN"), (0o124, "DMOVEM"), (0o125, "DMOVNM"), (0o251, "BLT"),
    (0o204, "MOVS"), (0o205, "MOVSI"), (0o206, "MOVSM"), (0o207, "MOVSS"), (0o214, "MOVM"),
    (0o215, "MOVMI"), (0o216, "MOVMM"), (0o217, "MOVMS"), (0o052, "PMOVE"), (0o053, "PMOVEM")]

/-- Fixed point arithmetic. -/
def fixedPoint : List (ℕ × String) :=
  [(0o270, "ADD"), (0o271, "ADDI"), (0o272, "ADDM"), (0o273, "ADDB"), (0o274, "SUB"),
    (0o275, "SUBI"), (0o276, "SUBM"), (0o277, "SUBB"), (0o220, "IMUL"), (0o221, "IMULI"),
    (0o222, "IMULM"), (0o223, "IMULB"), (0o224, "MUL"), (0o225, "MULI"), (0o226, "MULM"),
    (0o227, "MULB"), (0o230, "IDIV"), (0o231, "IDIVI"), (0o232, "IDIVM"), (0o233, "IDIVB"),
    (0o234, "DIV"), (0o235, "DIVI"), (0o236, "DIVM"), (0o237, "DIVB"), (0o114, "DADD"),
    (0o115, "DSUB"), (0o116, "DMUL"), (0o117, "DDIV")]

/-- Floating point arithmetic. -/
def floatingPoint : List (ℕ × String) :=
  [(0o140, "FAD"), (0o141, "FADL"), (0o142, "FADM"), (0o143, "FADB"), (0o144, "FADR"),
    (0o145, "FADRI"), (0o146, "FADRM"), (0o147, "FADRB"), (0o150, "FSB"), (0o151, "FSBL"),
    (0o152, "FSBM"), (0o153, "FSBB"), (0o154, "FSBR"), (0o155, "FSBRI"), (0o156, "FSBRM"),
    (0o157, "FSBRB"), (0o160, "FMP"), (0o161, "FMPL"), (0o162, "FMPM"), (0o163, "FMPB"),
    (0o164, "FMPR"), (0o165, "FMPRI"), (0o166, "FMPRM"), (0o167, "FMPRB"), (0o170, "FDV"),
    (0o171, "FDVL"), (0o172, "FDVM"), (0o173, "FDVB"), (0o174, "FDVR"), (0o175, "FDVRI"),
    (0o176, "FDVRM"), (0o177, "FDVRB"), (0o110, "DFAD"), (0o111, "DFSB"), (0o112, "DFMP"),
    (0o113, "DFDV"), (0o132, "FSC"), (0o127, "FLTR"), (0o122, "FIX"), (0o126, "FIXR"),
    (0o130, "UFA"), (0o131, "DFN")]

/-- Boolean. -/
def boolean : List (ℕ × String) :=
  [(0o400, "SETZ"), (0o401, "SETZI"), (0o402, "SETZM"), (0o403, "SETZB"), (0o474, "SETO"),
    (0o475, "SETOI"), (0o476, "SETOM"), (0o477, "SETOB"), (0o424, "SETA"), (0o425, "SETAI"),
    (0o426, "SETAM"), (0o427, "SETAB"), (0o450, "SETCA"), (0o451, "SETCAI"), (0o452, "SETCAM"),
    (0o453, "SETCAB"), (0o414, "SETM"), (0o416, "SETMM"), (0o417, "SETMB"), (0o460, "SETCM"),
    (0o461, "SETCMI"), (0o462, "SETCMM"), (0o463, "SETCMB"), (0o404, "AND"), (0o405, "ANDI"),
    (0o406, "ANDM"), (0o407, "ANDB"), (0o410, "ANDCA"), (0o411, "ANDCAI"), (0o412, "ANDCAM"),
    (0o413, "ANDCAB"), (0o420, "ANDCM"), (0o421, "ANDCMI"), (0o422, "ANDCMM"), (0o423, "ANDCMB"),
    (0o440, "ANDCB"), (0o441, "ANDCBI"), (0o442, "ANDCBM"), (0o443, "ANDCBB"), (0o434, "IOR"),
    (0o435, "IORI"), (0o436, "IORM"), (0o437, "IORB"), (0o454, "ORCA"), (0o455, "ORCAI"),
    (0o456, "ORCAM"), (0o457, "ORCAB"), (0o464, "ORCM"), (0o465, "ORCMI"), (0o466, "ORCMM"),
    (0o467, "ORCMB"), (0o470, "ORCB"), (0o471, "ORCBI"), (0o472, "ORCBM"), (0o473, "ORCBB"),
    (0o430, "XOR"), (0o431, "XORI"), (0o432, "XORM"), (0o433, "XORB"), (0o444, "EQV"),
    (0o445, "EQVI"), (0o446, "EQVM"), (0o447, "EQVB")]

/-- Shift and rotate. -/
def shiftRotate : List (ℕ × String) :=
  [(0o240, "ASH"), (0o241, "ROT"), (0o242, "LSH"), (0o244, "ASHC"), (0o245, "ROTC"),
    (0o246, "LSHC")]

/-- Arithmetic testing. -/
def arithmeticTesting : List (ℕ × String) :=
  [(0o252, "AOBJP"), (0o253, "AOBJN"), (0o300, "CAI"), (0o301, "CAIL"), (0o302, "CAIE"),
    (0o303, "CAILE"), (0o304, "CAIA"), (0o305, "CAIGE"), (0o306, "CAIN"), (0o307, "CAIG"),
    (0o310, "CAM"), (0o311, "CAML"), (0o312, "CAME"), (0o313, "CAMLE"), (0o314, "CAMA"),
    (0o315, "CAMGE"), (0o316, "CAMN"), (0o317, "CAMG"), (0o320, "JUMP"), (0o321, "JUMPL"),
    (0o322, "JUMPE"), (0o323, "JUMPLE"), (0o324, "JUMPA"), (0o325, "JUMPGE"), (0o326, "JUMPN"),
    (0o327, "JUMPG"), (0o330, "SKIP"), (0o331, "SKIPL"), (0o332, "SKIPE"), (0o333, "SKIPLE"),
    (0o334, "SKIPA"), (0o335, "SKIPGE"), (0o336, "SKIPN"), (0o337, "SKIPG"), (0o340, "AOJ"),
    (0o341, "AOJL"), (0o342, "AOJE"), (0o343, "AOJLE"), (0o344, "AOJA"), (0o345, "AOJGE"),
    (0o346, "AOJN"), (0o347, "AOJG"), (0o360, "SOJ"), (0o361, "SOJL"), (0o362, "SOJE"),
    (0o363, "SOJLE"), (0o364, "SOJA"), (0o365, "SOJGE"), (0o366, "SOJN"), (0o367, "SOJG"),
    (0o350, "AOS"), (0o351, "AOSL"), (0o352, "AOSE"), (0o353, "AOSLE"), (0o354, "AOSA"),
    (0o355, "AOSGE"), (0o356, "AOSN"), (0o357, "AOSG"), (0o370, "SOS"), (0o371, "SOSL"),
    (0o372, "SOSE"), (0o373, "SOSLE"), (0o374, "SOSA"), (0o375, "SOSGE"), (0o376, "SOSN"),
    (0o377, "SOSG")]

/-- Logical testing and modification. -/
def logicalTesting : List (ℕ × String) :=
  [(0o600, "TRN"), (0o601, "TLN"), (0o602, "TRNE"), (0o603, "TLNE"), (0o604, "TRNA"),
    (0o605, "TLNA"), (0o606, "TRNN"), (0o607, "TLNN"), (0o620, "TRZ"), (0o621, "TLZ"),
    (0o622, "TRZE"), (0o623, "TLZE"), (0o624, "TRZA"), (0o625, "TLZA"), (0o626, "TRZN"),
    (0o627, "TLZN"), (0o640, "TRC"), (0o641, "TLC"), (0o642, "TRCE"), (0o643, "TLCE"),
    (0o644, "TRCA"), (0o645, "TLCA"), (0o646, "TRCN"), (0o647, "TLCN"), (0o660, "TRO"),
    (0o661, "TLO"), (0o662, "TROE"), (0o663, "TLOE"), (0o664, "TROA"), (0o665, "TLOA"),
    (0o666, "TRON"), (0o667, "TLON"), (0o610, "TDN"), (0o611, "TSN"), (0o612, "TDNE"),
    (0o613, "TSNE"), (0o614, "TDNA"), (0o615, "TSNA"), (0o616, "TDNN"), (0o617, "TSNN"),
    (0o630, "TDZ"), (0o631, "TSZ"), (0o632, "TDZE"), (0o633, "TSZE"), (0o634, "TDZA"),
    (0o635, "TSZA"), (0o636, "TDZN"), (0o637, "TSZN"), (0o650, "TDC"), (0o651, "TSC"),
    (0o652, "TDCE"), (0o653, "TSCE"), (0o654, "TDCA"), (0o655, "TSCA"), (0o656, "TDCN"),
    (0o657, "TSCN"), (0o670, "TDO"), (0o671, "TSO"), (0o672, "TDOE"), (0o673, "TSOE"),
    (0o674, "TDOA"), (0o675, "TSOA"), (0o676, "TDON"), (0o677, "TSON")]

/-- Half word data transmission. -/
def halfWordData : List (ℕ × String) :=
  [(0o500, "HLL"), (0o501, "XHLLI"), (0o502, "HLLM"), (0o503, "HLLS"), (0o510, "HLLZ"),
    (0o511, "HLLZI"), (0o512, "HLLZM"), (0o513, "HLLZS"), (0o530, "HLLE"), (0o531, "HLLEI"),
    (0o532, "HLLEM"), (0o533, "HLLES"), (0o520, "HLLO"), (0o521, "HLLOI"), (0o522, "HLLOM"),
    (0o523, "HLLOS"), (0o544, "HLR"), (0o545, "HLRI"), (0o546, "HLRM"), (0o547, "HLRS"),
    (0o554, "HLRZ"), (0o555, "HLRZI"), (0o556, "HLRZM"), (0o557, "HLRZS"), (0o564, "HLRO"),
    (0o565, "HLROI"), (0o566, "HLROM"), (0o567, "HLROS"), (0o574, "HLRE"), (0o575, "HLREI"),
    (0o576, "HLREM"), (0o577, "HLRES"), (0o540, "HRR"), (0o541, "HRRI"), (0o542, "HRRM"),
    (0o543, "HRRS"), (0o550, "HRRZ"), (0o551, "HRRZI"), (0o552, "HRRZM"), (0o553, "HRRZS"),
    (0o560, "HRRO"), (0o561, "HRROI"), (0o562, "HRROM"), (0o563, "HRROS"), (0o570, "HRRE"),
    (0o571, "HRREI"), (0o572, "HRREM"), (0o573, "HRRES"), (0o504, "HRL"), (0o505, "HRLI"),
    (0o506, "HRLM"), (0o507, "HRLS"), (0o514, "HRLZ"), (0o515, "HRLZI"), (0o516, "HRLZM"),
    (0o517, "HRLZS"), (0o524, "HRLO"), (0o525, "HRLOI"), (0o526, "HRLOM"), (0o527, "HRLOS"),
    (0o534, "HRLE"), (0o535, "HRLEI"), (0o536, "HRLEM"), (0o537, "HRLES")]

/-- Program control. -/
def programControl : List (ℕ × String) :=
  [(0o256, "XCT"), (0o243, "JFFO"), (0o255, "JFCL"), (0o254, "JRST"), (0o264, "JSR"),
    (0o265, "JSP"), (0o266, "JSA"), (0o267, "JRA"), (0o257, "MAP")]

/-- Stack. -/
def stackOps : List (ℕ × String) :=
  [(0o261, "PUSH"), (0o262, "POP"), (0o260, "PUSHJ"), (0o263, "POPJ"), (0o105, "ADJSP")]

/-- Byte manipulation. -/
def byteOps : List (ℕ × String) :=
  [(0o133, "IBP"), (0o135, "LDB"), (0o137, "DPB"), (0o134, "ILDB"), (0o136, "IDPB")]

/-- UUOs. -/
def uuoNames : List (ℕ × String) :=
  (List.range' 0o001 0o37).map (fun op => (op, "LUUO")) ++ [(0o104, "JSYS")]

/-- The mnemonics of the last `switch`. -/
def opcodeNames : List (ℕ × String) :=
  fullWordMovement ++ fixedPoint ++ floatingPoint ++ boolean ++ shiftRotate ++ arithmeticTesting ++
    logicalTesting ++ halfWordData ++ programControl ++ stackOps ++ byteOps ++ uuoNames ++
    [(0o123, "EXTEND")]

/-- The mnemonic of an opcode. -/
def opcodeName (op : ℕ) : String :=
  match opcodeNames.find? fun entry => entry.1 = op with
  | some entry => entry.2
  | none => "MUUO"

/-- The JRST family. -/
def jrstName (ac : BitVec 4) : String :=
  match ac.toNat with
  | 0o00 => "JRST"
  | 0o01 => "PORTAL"
  | 0o02 => "JRSTF"
  | 0o04 => "HALT"
  | 0o05 => "XJRSTF"
  | 0o06 => "XJEN"
  | 0o07 => "XPCW"
  | 0o10 => "RESTOR"
  | 0o12 => "JEN"
  | 0o14 => "SFM"
  | _ => "JRST"

/-- The field in front of the comma. -/
def DisasmField.text : DisasmField → List Char
  | .name .apr => ['A', 'P', 'R']
  | .name .pi => ['P', 'I']
  | .name .pag => ['P', 'A', 'G']
  | .name .cca => ['C', 'C', 'A']
  | .name .tim => ['T', 'I', 'M']
  | .name .mtr => ['M', 'T', 'R']
  | .name _ => []
  | .number ioDev => numeral 8 1 ioDev.toNat
  | .ac n => (numeral 8 1 n.toNat).leftpad 2 ' '

namespace W36

/-- The mnemonic, and the field in front of the comma. -/
def mnemonicField (w : W36) : String × DisasmField :=
  if w.op = 0o133 ∧ w.ac ≠ 0 then ("ADJBP", .ac w.ac)
  else if w.op = 0o254 then (jrstName w.ac, .ac w.ac)
  else if w.ioSeven = 7 then w.disasmIO
  else (opcodeName w.op.toNat, .ac w.ac)

/-- The operand: with the symbols of a debugger, or with the number. -/
def disasmOperand (w : W36) (debuggerP : Option SymbolTables) : List Char :=
  let y := match debuggerP with
    | some t => t.symbolicForm (ofNat w.y.toNat)
    | none => numeral 8 1 w.y.toNat
  (if w.i then ['@'] else []) ++
    if w.x = 0 then y.rightpad 6 ' ' else y ++ '(' :: numeral 8 1 w.x.toNat ++ [')']

/-- `disasm`. -/
def disasm (w : W36) (debuggerP : Option SymbolTables) : List Char :=
  w.mnemonicField.1.toList ++ '\t' :: (w.mnemonicField.2.text ++
    ',' :: (w.disasmOperand debuggerP).rightpad 13 ' ')

end W36

/-! ### Mnemonics are distinct -/

/-- The mnemonics of words that have one of their own, with their opcodes. -/
def ownNames : List (ℕ × String) :=
  [(0o700, "APRID"), (0o700, "WRFIL"), (0o700, "RDERA"), (0o700, "SBDIAG"), (0o701, "CLRPT"),
    (0o701, "SWPIA"), (0o701, "SWPVA"), (0o701, "SWPUA"), (0o701, "SWPIO"), (0o701, "SWPVO"),
    (0o701, "SWPUO"), (0o702, "RDPERF"), (0o702, "RDTIME"), (0o702, "WRPAE"), (0o702, "RDMACT"),
    (0o702, "RDEACT"), (0o702, "WRTIME")]

/-- The mnemonics of the JRST family other than its own. -/
def jrstNames : List (ℕ × String) :=
  [(0o254, "PORTAL"), (0o254, "JRSTF"), (0o254, "HALT"), (0o254, "XJRSTF"), (0o254, "XJEN"),
    (0o254, "XPCW"), (0o254, "RESTOR"), (0o254, "JEN"), (0o254, "SFM")]

/-- The mnemonics of the I/O operations, numbered behind the opcodes. -/
def ioNames : List (ℕ × String) :=
  [(0o1000, "BLKI"), (0o1001, "DATAI"), (0o1002, "BLKO"), (0o1003, "DATAO"), (0o1004, "CONO"),
    (0o1005, "CONI"), (0o1006, "CONSZ"), (0o1007, "CONSO")]

/-- All mnemonics, each with its opcode; LUUO and MUUO stand for many. -/
def tagged : List (ℕ × String) :=
  opcodeNames.filter (fun entry => entry.2 ≠ "LUUO") ++
    [(1, "LUUO"), (0, "MUUO"), (0o133, "ADJBP")] ++ jrstNames ++ ownNames ++ ioNames

/-- A number for a name, which happens to be different for all of them. -/
def nameCode (name : String) : ℕ := name.toList.foldl (fun n c => (256 * n + c.toNat) % 9799) 0

set_option maxRecDepth 4000 in
/-- **No mnemonic** occurs twice. -/
lemma nodup_tagged : (tagged.map Prod.snd).Nodup := by
  have hcodes : ((tagged.map Prod.snd).map nameCode).Nodup :=
    (nodup_of_distinctFrom _ 0 (by decide +kernel)).1
  exact hcodes.of_map

/-- A mnemonic has one tag. -/
lemma tag_inj {m n : ℕ} {name : String} (hm : (m, name) ∈ tagged) (hn : (n, name) ∈ tagged) :
    m = n :=
  (Prod.mk.inj (List.inj_on_of_nodup_map nodup_tagged hm hn rfl)).1

set_option maxRecDepth 4000 in
/-- No mnemonic has a tabulator. -/
lemma tab_notMem_tagged : ∀ entry ∈ tagged, '\t' ∉ entry.2.toList := by
  have h : (tagged.all fun entry => !entry.2.toList.any (· == '\t')) = true := by decide +kernel
  intro entry hentry htab
  have hnone := List.all_eq_true.mp h entry hentry
  rw [Bool.not_eq_true', List.any_eq_false] at hnone
  exact hnone _ htab (beq_self_eq_true _)

/-! ### The mnemonic of a word -/

namespace W36

/-- The word is printed with the operation and the device of an I/O instruction. -/
def PrintsDevice (w : W36) : Prop := w.ioSeven = 7 ∧ w.ownMnemonic = none

instance (w : W36) : Decidable w.PrintsDevice := inferInstanceAs (Decidable (_ ∧ _))

/-- What the mnemonic stands for: an operation of the I/O instructions, or an opcode, of the LUUOs
the first, and zero for a MUUO. -/
def tag (w : W36) : ℕ :=
  if w.PrintsDevice then 0o1000 + w.ioOp.toNat
  else if w.mnemonicField.1 = "LUUO" then 1
  else if w.mnemonicField.1 = "MUUO" then 0
  else w.op.toNat

lemma toNat_op (w : W36) : w.op.toNat = w.toNat / 2 ^ 27 := by
  have hw := w.isLt
  rw [op, BitVec.extractLsb'_toNat, Nat.shiftRight_eq_div_pow]
  omega

/-- An I/O instruction has an opcode from 0700 on. -/
lemma ioSeven_iff {w : W36} : w.ioSeven = 7 ↔ 0o700 ≤ w.op.toNat := by
  have hw := w.isLt
  have hseven : w.ioSeven.toNat = w.toNat / 2 ^ 33 % 2 ^ 3 := by
    rw [ioSeven, BitVec.extractLsb'_toNat, Nat.shiftRight_eq_div_pow]
  have h7 : (7 : BitVec 3).toNat = 7 := rfl
  rw [← BitVec.toNat_inj, hseven, h7, toNat_op]
  omega

/-- A mnemonic of its own goes with the opcode. -/
lemma ownMnemonic_mem {w : W36} {name : String} (h : w.ownMnemonic = some name) :
    (w.op.toNat, name) ∈ ownNames := by
  have hop : w.op.toNat = (w.ioAll.toNat <<< 2) / 2 ^ 6 := by
    have hw := w.isLt
    rw [toNat_op, ioAll, BitVec.extractLsb'_toNat, Nat.shiftRight_eq_div_pow, Nat.shiftLeft_eq]
    omega
  rw [hop]
  rw [ownMnemonic] at h
  split at h
  case h_18 => cases h
  all_goals
    rename_i hall
    cases h
    rw [hall]
    simp [ownNames]

/-- The tag of a word that is printed with its opcode. -/
lemma tag_of_mem {w : W36} (hdevice : ¬ w.PrintsDevice)
    (h : w.mnemonicField.1 ≠ "LUUO" → w.mnemonicField.1 ≠ "MUUO" →
      (w.op.toNat, w.mnemonicField.1) ∈ tagged) : (w.tag, w.mnemonicField.1) ∈ tagged := by
  have hL : (1, "LUUO") ∈ tagged := by simp [tagged]
  have hM : (0, "MUUO") ∈ tagged := by simp [tagged]
  rw [tag, if_neg hdevice]
  split
  case isTrue hname => exact hname ▸ hL
  case isFalse hLUUO =>
    split
    case isTrue hname => exact hname ▸ hM
    case isFalse hMUUO => exact h hLUUO hMUUO

/-- **The mnemonic of a word**, one case for each branch of the disassembler. -/
lemma mem_tagged (w : W36) : (w.tag, w.mnemonicField.1) ∈ tagged := by
  by_cases hADJBP : w.op = 0o133 ∧ w.ac ≠ 0
  · have hop : w.op.toNat = 0o133 := by rw [hADJBP.1]; rfl
    have hname : w.mnemonicField.1 = "ADJBP" := by rw [mnemonicField, if_pos hADJBP]
    refine tag_of_mem (fun h => ?_) fun _ _ => ?_
    · have := ioSeven_iff.mp h.1
      omega
    · rw [hop, hname]
      simp [tagged]
  · by_cases hJRST : w.op = 0o254
    · have hop : w.op.toNat = 0o254 := by rw [hJRST]; rfl
      have hname : w.mnemonicField.1 = jrstName w.ac := by
        rw [mnemonicField, if_neg hADJBP, if_pos hJRST]
      refine tag_of_mem (fun h => ?_) fun _ _ => ?_
      · have := ioSeven_iff.mp h.1
        omega
      · have hown : (0o254, "JRST") ∈ tagged := by
          simp [tagged, opcodeNames, programControl]
        rw [hop, hname, jrstName]
        split <;> first | exact hown | simp [tagged, jrstNames]
    · by_cases hseven : w.ioSeven = 7
      · have hfield : w.mnemonicField = w.disasmIO := by
          rw [mnemonicField, if_neg hADJBP, if_neg hJRST, if_pos hseven]
        cases hown : w.ownMnemonic with
        | some name =>
            have hname : w.mnemonicField.1 = name := by rw [hfield, disasmIO, hown]
            have hmem := ownMnemonic_mem hown
            refine tag_of_mem (fun h => ?_) fun _ _ => ?_
            · rw [h.2] at hown
              cases hown
            · rw [hname]
              simp only [tagged, List.mem_append, hmem, or_true, true_or]
        | none =>
            have hname : w.mnemonicField.1 = (IOOp.ofBits w.ioOp).mnemonic := by
              rw [hfield, disasmIO, hown]
            have hmem : (0o1000 + w.ioOp.toNat, (IOOp.ofBits w.ioOp).mnemonic) ∈ ioNames := by
              have hlt := w.ioOp.isLt
              rw [IOOp.ofBits]
              generalize w.ioOp.toNat = n at *
              interval_cases n <;> simp [IOOp.mnemonic, ioNames]
            rw [tag, if_pos ⟨hseven, hown⟩, hname]
            simp only [tagged, List.mem_append, hmem, or_true]
      · have hdevice : ¬ w.PrintsDevice := fun h => hseven h.1
        have hname : w.mnemonicField.1 = opcodeName w.op.toNat := by
          rw [mnemonicField, if_neg hADJBP, if_neg hJRST, if_neg hseven]
        refine tag_of_mem hdevice fun hLUUO hMUUO => ?_
        rw [hname] at hLUUO hMUUO ⊢
        rw [opcodeName] at hLUUO hMUUO ⊢
        split at hMUUO
        case h_1 entry hentry =>
          have hop : entry.1 = w.op.toNat := by simpa using List.find?_some hentry
          rw [hentry] at hLUUO
          have hmem : (w.op.toNat, entry.2) ∈ opcodeNames :=
            hop ▸ List.mem_of_find?_eq_some hentry
          have hfilter : (w.op.toNat, entry.2) ∈
              opcodeNames.filter (fun entry => entry.2 ≠ "LUUO") :=
            List.mem_filter.mpr ⟨hmem, decide_eq_true hLUUO⟩
          simp only [tagged, List.mem_append, hfilter, true_or]
        case h_2 => exact absurd rfl hMUUO

end W36

/-! ### The rest of the line -/

/-- Padding adds blanks only. -/
lemma filter_rightpad (s : List Char) (n : ℕ) :
    (s.rightpad n ' ').filter (· ≠ ' ') = s.filter (· ≠ ' ') := by
  rw [List.rightpad, List.filter_append, List.filter_replicate]
  simp

lemma filter_leftpad (s : List Char) (n : ℕ) :
    (s.leftpad n ' ').filter (· ≠ ' ') = s.filter (· ≠ ' ') := by
  rw [List.leftpad, List.filter_append, List.filter_replicate]
  simp

/-- A text without blanks. -/
lemma filter_of_blank_notMem {s : List Char} (hs : ' ' ∉ s) : s.filter (· ≠ ' ') = s :=
  List.filter_eq_self.mpr fun _ hc => decide_eq_true fun h => hs (h ▸ hc)

/-- A number has digits only. -/
lemma notMem_numeral {c : Char} (hc : IsNumeral 8 c = false) {width n : ℕ} :
    c ∉ numeral 8 width n := fun h =>
  Bool.false_ne_true
    (hc.symm.trans (isNumeral_of_mem_numeral (by decide) (by decide) c h))

/-- The names of the devices that are printed. -/
def deviceNames : List (List Char) :=
  [['A', 'P', 'R'], ['P', 'I'], ['P', 'A', 'G'], ['C', 'C', 'A'], ['T', 'I', 'M'], ['M', 'T', 'R']]

/-- A device is printed by its name or its number. -/
lemma text_ofIODev (d : BitVec 7) :
    (d.toNat < 6 ∧ (DisasmField.ofIODev d).text = deviceNames.getD d.toNat []) ∨
      (DisasmField.ofIODev d).text = numeral 8 1 d.toNat := by
  rw [DisasmField.ofIODev]
  split
  case h_7 => exact .inr rfl
  all_goals
    rename_i hd
    rw [hd]
    exact .inl ⟨by decide, rfl⟩

/-- **Different devices** are printed differently. -/
lemma text_ofIODev_injective {d d' : BitVec 7}
    (h : (DisasmField.ofIODev d).text = (DisasmField.ofIODev d').text) : d = d' := by
  have hletters : ∀ n < 6, (deviceNames.getD n []).all (IsNumeral 8) = false := by decide
  have hdistinct : ∀ m < 6, ∀ n < 6, deviceNames.getD m [] = deviceNames.getD n [] → m = n := by
    decide
  have hnumber {m n : ℕ} (hm : m < 6) : deviceNames.getD m [] ≠ numeral 8 1 n := fun heq => by
    refine Bool.false_ne_true ((hletters m hm).symm.trans ?_)
    rw [heq]
    exact List.all_eq_true.mpr (isNumeral_of_mem_numeral (by decide) (by decide))
  apply BitVec.eq_of_toNat_eq
  rcases text_ofIODev d with ⟨hd, htext⟩ | htext <;>
    rcases text_ofIODev d' with ⟨hd', htext'⟩ | htext'
  · exact hdistinct _ hd _ hd' (by rw [← htext, h, htext'])
  · exact absurd (by rw [← htext, h, htext']) (hnumber hd)
  · exact absurd (by rw [← htext', ← h, htext]) (hnumber hd')
  · exact @numeral_injective 8 (by decide) (by decide) 1 _ _ (by rw [← htext, h, htext'])

/-- The AC field is printed as itself. -/
lemma text_ac_injective {n n' : BitVec 4}
    (h : (DisasmField.ac n).text = (DisasmField.ac n').text) : n = n' := by
  apply BitVec.eq_of_toNat_eq
  refine @numeral_injective 8 (by decide) (by decide) 1 _ _ ?_
  have hfilter := congrArg (List.filter (· ≠ ' ')) h
  rwa [DisasmField.text, DisasmField.text, filter_leftpad, filter_leftpad,
    filter_of_blank_notMem (notMem_numeral (by decide)),
    filter_of_blank_notMem (notMem_numeral (by decide))] at hfilter

/-- No field has a comma. -/
lemma comma_notMem_text (f : DisasmField) : ',' ∉ f.text := by
  cases f with
  | name dev => cases dev <;> decide
  | number d => exact notMem_numeral (by decide)
  | ac n =>
      rw [DisasmField.text, List.leftpad, List.mem_append, not_or]
      refine ⟨fun h => ?_, notMem_numeral (by decide)⟩
      exact absurd (List.eq_of_mem_replicate h) (by decide)

namespace W36

/-- The index register behind the number. -/
def indexText (w : W36) : List Char :=
  if w.x = 0 then [] else '(' :: (numeral 8 1 w.x.toNat ++ [')'])

/-- The operand without blanks. -/
def operandText (w : W36) : List Char :=
  (if w.i then ['@'] else []) ++ (numeral 8 1 w.y.toNat ++ w.indexText)

lemma filter_disasmOperand (w : W36) :
    ((w.disasmOperand none).rightpad 13 ' ').filter (· ≠ ' ') = w.operandText := by
  have hdigits {n : ℕ} : ' ' ∉ numeral 8 1 n := notMem_numeral (by decide)
  have hat : (if w.i then ['@'] else []).filter (· ≠ ' ') = if w.i then ['@'] else [] := by
    split <;> decide
  rw [filter_rightpad, disasmOperand, List.filter_append, hat, operandText, indexText]
  refine congrArg _ ?_
  split
  case isTrue => rw [filter_rightpad, filter_of_blank_notMem hdigits, List.append_nil]
  case isFalse => exact (filter_of_blank_notMem (by simp [hdigits])).trans (by simp)

lemma noNumeral_indexText (w : W36) : NoNumeral w.indexText := by
  intro c hc
  rw [indexText] at hc
  split at hc
  · cases hc
  · rw [← Option.some.inj hc]
    decide

lemma indexText_inj {w w' : W36} (h : w.indexText = w'.indexText) : w.x = w'.x := by
  rw [indexText, indexText] at h
  split at h <;> split at h
  case isTrue.isTrue hx hx' => rw [hx, hx']
  case isTrue.isFalse => cases h
  case isFalse.isTrue => cases h
  case isFalse.isFalse =>
    have hdigits := List.append_cancel_right (List.cons.inj h).2
    exact BitVec.eq_of_toNat_eq (@numeral_injective 8 (by decide) (by decide) 1 _ _ hdigits)

/-- **The operand** shows the fields of the address. -/
lemma operandText_inj {w w' : W36} (h : w.operandText = w'.operandText) :
    w.i = w'.i ∧ w.x = w'.x ∧ w.y = w'.y := by
  have hat (w : W36) : '@' ∉ numeral 8 1 w.y.toNat ++ w.indexText := by
    have hdigits {n : ℕ} : '@' ∉ numeral 8 1 n := notMem_numeral (by decide)
    rw [indexText]
    split <;> simp [hdigits]
  have htail : w.i = w'.i ∧
      numeral 8 1 w.y.toNat ++ w.indexText = numeral 8 1 w'.y.toNat ++ w'.indexText := by
    change (if w.i then ['@'] else []) ++ (numeral 8 1 w.y.toNat ++ w.indexText) =
      (if w'.i then ['@'] else []) ++ (numeral 8 1 w'.y.toNat ++ w'.indexText) at h
    cases hi : w.i <;> cases hi' : w'.i <;> simp only [hi, hi', if_true, if_false,
      Bool.false_eq_true, List.nil_append, List.cons_append] at h
    · exact ⟨rfl, h⟩
    · exact absurd (h ▸ List.mem_cons_self) (hat w)
    · exact absurd (h ▸ List.mem_cons_self) (hat w')
    · exact ⟨rfl, (List.cons.inj h).2⟩
  have hnumbers := congrArg (List.takeWhile (IsNumeral 8)) htail.2
  rw [takeWhile_digits (isNumeral_of_mem_numeral (by decide) (by decide)) w.noNumeral_indexText,
    takeWhile_digits (isNumeral_of_mem_numeral (by decide) (by decide))
      w'.noNumeral_indexText] at hnumbers
  have hindex := htail.2
  rw [hnumbers] at hindex
  exact ⟨htail.1, indexText_inj (List.append_cancel_left hindex), BitVec.eq_of_toNat_eq
    (@numeral_injective 8 (by decide) (by decide) 1 _ _ hnumbers)⟩

/-- The fields below the opcode. -/
lemma toNat_low (w : W36) : w.toNat % 2 ^ 27 =
    w.ac.toNat * 2 ^ 23 + w.i.toNat * 2 ^ 22 + w.x.toNat * 2 ^ 18 + w.y.toNat := by
  have hi : w.i.toNat = w.toNat / 2 ^ 22 % 2 := by
    rw [W36.i, BitVec.getLsbD, Nat.toNat_testBit]
  simp only [ac, x, y, BitVec.extractLsb'_toNat, Nat.shiftRight_eq_div_pow] at *
  omega

lemma toNat_bool_injective : Function.Injective Bool.toNat := by decide

/-- Words that are the same there. -/
lemma low_eq_iff {w w' : W36} : w.setWidth 27 = w'.setWidth 27 ↔
    w.ac = w'.ac ∧ w.i = w'.i ∧ w.x = w'.x ∧ w.y = w'.y := by
  rw [← BitVec.toNat_inj, BitVec.toNat_setWidth, BitVec.toNat_setWidth, toNat_low, toNat_low]
  have hbit (b : Bool) : b.toNat ≤ 1 := b.toNat_le
  constructor
  · intro h
    have := w.ac.isLt
    have := w'.ac.isLt
    have := w.x.isLt
    have := w'.x.isLt
    have := w.y.isLt
    have := w'.y.isLt
    have := hbit w.i
    have := hbit w'.i
    exact ⟨BitVec.eq_of_toNat_eq (by omega), toNat_bool_injective (by omega),
      BitVec.eq_of_toNat_eq (by omega), BitVec.eq_of_toNat_eq (by omega)⟩
  · rintro ⟨hac, hi, hx, hy⟩
    rw [hac, hi, hx, hy]

/-- Words with the same opcode that are the same there are the same. -/
lemma eq_of_low {w w' : W36} (hop : w.op = w'.op) (hlow : w.setWidth 27 = w'.setWidth 27) :
    w = w' := by
  have hhigh := congrArg BitVec.toNat hop
  have hrest := congrArg BitVec.toNat hlow
  rw [toNat_op, toNat_op] at hhigh
  rw [BitVec.toNat_setWidth, BitVec.toNat_setWidth] at hrest
  exact BitVec.eq_of_toNat_eq (by omega)

/-- I/O instructions with the same operation and device have the same opcode and AC field. -/
lemma op_ac_of_io {w w' : W36} (hseven : w.ioSeven = w'.ioSeven) (hdev : w.ioDev = w'.ioDev)
    (hop : w.ioOp = w'.ioOp) : w.op = w'.op ∧ w.ac = w'.ac := by
  have hw := w.isLt
  have hw' := w'.isLt
  rw [← BitVec.toNat_inj] at hseven hdev hop
  rw [← BitVec.toNat_inj, ← BitVec.toNat_inj]
  simp only [ioSeven, ioDev, ioOp, op, ac, BitVec.extractLsb'_toNat,
    Nat.shiftRight_eq_div_pow] at *
  omega

/-- A word that is printed with its opcode is printed with its AC field. -/
lemma field_of_not_printsDevice {w : W36} (h : ¬ w.PrintsDevice) :
    w.mnemonicField.2 = .ac w.ac := by
  rw [mnemonicField]
  split
  · rfl
  · split
    · rfl
    · split
      case isTrue hseven =>
        unfold disasmIO
        cases hown : w.ownMnemonic with
        | some name => rfl
        | none => exact absurd ⟨hseven, hown⟩ h
      case isFalse => rfl

lemma field_of_printsDevice {w : W36} (h : w.PrintsDevice) :
    w.mnemonicField.2 = .ofIODev w.ioDev := by
  have hop := ioSeven_iff.mp h.1
  rw [mnemonicField, if_neg, if_neg, if_pos h.1, disasmIO, h.2]
  · intro h254
    rw [h254] at hop
    exact absurd hop (by decide)
  · intro h133
    rw [h133.1] at hop
    exact absurd hop (by decide)

/-- What the mnemonic stands for is an operation just for the words that are printed so. -/
lemma tag_of_printsDevice {w : W36} (h : w.PrintsDevice) : w.tag = 0o1000 + w.ioOp.toNat :=
  if_pos h

lemma tag_lt_of_not_printsDevice {w : W36} (h : ¬ w.PrintsDevice) : w.tag < 0o1000 := by
  have hop := w.op.isLt
  rw [tag, if_neg h]
  split
  · decide
  · split
    · decide
    · exact hop

lemma tag_of_own {w : W36} (h : ¬ w.PrintsDevice) (hname : w.mnemonicField.1 ∉ ["LUUO", "MUUO"]) :
    w.tag = w.op.toNat := by
  simp only [List.mem_cons, List.not_mem_nil, or_false, not_or] at hname
  rw [tag, if_neg h, if_neg hname.1, if_neg hname.2]

/-- Words with the same mnemonic mean the same by it. -/
lemma tag_eq_of_mnemonic {w w' : W36} (h : w.mnemonicField.1 = w'.mnemonicField.1) :
    w.tag = w'.tag :=
  tag_inj w.mem_tagged (h ▸ w'.mem_tagged)

/-- **The parts** of a line. -/
lemma parts_of_disasm {w w' : W36} (h : w.disasm none = w'.disasm none) :
    w.mnemonicField.1 = w'.mnemonicField.1 ∧ w.mnemonicField.2.text = w'.mnemonicField.2.text ∧
      w.i = w'.i ∧ w.x = w'.x ∧ w.y = w'.y := by
  have htab (w : W36) : '\t' ∉ w.mnemonicField.1.toList := tab_notMem_tagged _ w.mem_tagged
  obtain ⟨hname, hrest⟩ := append_cons_inj (htab w) (htab w') h
  obtain ⟨hfield, hoperand⟩ := append_cons_inj (comma_notMem_text _) (comma_notMem_text _) hrest
  refine ⟨String.toList_injective hname, hfield, operandText_inj ?_⟩
  rw [← filter_disasmOperand, ← filter_disasmOperand, hoperand]

/-- **Words with the same line** are the same, or UUOs that differ in the opcode. -/
lemma eq_or_of_disasm {w w' : W36} (h : w.disasm none = w'.disasm none) :
    w = w' ∨ w.mnemonicField.1 ∈ ["LUUO", "MUUO"] ∧ w.setWidth 27 = w'.setWidth 27 := by
  obtain ⟨hname, hfield, hi, hx, hy⟩ := parts_of_disasm h
  have htag := tag_eq_of_mnemonic hname
  by_cases hdevice : w.PrintsDevice <;> by_cases hdevice' : w'.PrintsDevice
  · rw [field_of_printsDevice hdevice, field_of_printsDevice hdevice'] at hfield
    rw [tag_of_printsDevice hdevice, tag_of_printsDevice hdevice'] at htag
    have hioOp : w.ioOp = w'.ioOp := BitVec.eq_of_toNat_eq (by omega)
    obtain ⟨hop, hac⟩ := op_ac_of_io (hdevice.1.trans hdevice'.1.symm)
      (text_ofIODev_injective hfield) hioOp
    exact .inl (eq_of_low hop (low_eq_iff.mpr ⟨hac, hi, hx, hy⟩))
  · have := tag_of_printsDevice hdevice
    have := tag_lt_of_not_printsDevice hdevice'
    omega
  · have := tag_of_printsDevice hdevice'
    have := tag_lt_of_not_printsDevice hdevice
    omega
  · rw [field_of_not_printsDevice hdevice, field_of_not_printsDevice hdevice'] at hfield
    have hlow := low_eq_iff.mpr ⟨text_ac_injective hfield, hi, hx, hy⟩
    by_cases hUUO : w.mnemonicField.1 ∈ ["LUUO", "MUUO"]
    · exact .inr ⟨hUUO, hlow⟩
    · rw [tag_of_own hdevice hUUO, tag_of_own hdevice' (hname ▸ hUUO)] at htag
      exact .inl (eq_of_low (BitVec.eq_of_toNat_eq htag) hlow)

/-- An I/O operation is no UUO. -/
lemma not_printsDevice_of_UUO {w : W36} (hUUO : w.mnemonicField.1 ∈ ["LUUO", "MUUO"]) :
    ¬ w.PrintsDevice := by
  intro hdevice
  have htag := tag_of_printsDevice hdevice
  have hmem := w.mem_tagged
  simp only [List.mem_cons, List.not_mem_nil, or_false] at hUUO
  rcases hUUO with hname | hname <;> rw [hname] at hmem
  · have := tag_inj hmem (show (1, "LUUO") ∈ tagged by simp [tagged])
    omega
  · have := tag_inj hmem (show (0, "MUUO") ∈ tagged by simp [tagged])
    omega

/-- The mnemonic of a UUO comes from the last `switch`. -/
lemma opcodeName_of_UUO {w : W36} (hUUO : w.mnemonicField.1 ∈ ["LUUO", "MUUO"]) :
    w.op.toNat < 0o700 ∧ w.mnemonicField.1 = opcodeName w.op.toNat := by
  have hJRST : ∀ ac : BitVec 4, jrstName ac ∉ ["LUUO", "MUUO"] := by decide
  have hown : ∀ entry ∈ ownNames, entry.2 ∉ ["LUUO", "MUUO"] := by decide
  have hseven : w.ioSeven ≠ 7 := by
    intro hseven
    cases hname : w.ownMnemonic with
    | none => exact not_printsDevice_of_UUO hUUO ⟨hseven, hname⟩
    | some name =>
        refine hown _ (ownMnemonic_mem hname) ?_
        have hop := ioSeven_iff.mp hseven
        rwa [mnemonicField, if_neg, if_neg, if_pos hseven, disasmIO, hname] at hUUO
        · intro h254
          rw [h254] at hop
          exact absurd hop (by decide)
        · intro h133
          rw [h133.1] at hop
          exact absurd hop (by decide)
  refine ⟨by_contra fun h => hseven (ioSeven_iff.mpr (Nat.le_of_not_lt h)), ?_⟩
  rw [mnemonicField] at hUUO ⊢
  split at hUUO
  · exact absurd hUUO (show "ADJBP" ∉ ["LUUO", "MUUO"] by decide)
  · split at hUUO
    · exact absurd hUUO (hJRST _)
    · rw [if_neg ‹_›, if_neg ‹_›, if_neg hseven]

/-- LUUO is the name of the LUUOs, and MUUO not the name of a listed opcode. -/
lemma uuo_of_mem_opcodeNames {entry : ℕ × String} (hentry : entry ∈ opcodeNames) :
    (entry.2 = "LUUO" → isLUUO entry.1 = true) ∧ entry.2 ≠ "MUUO" := by
  have hall : opcodeNames.all (fun entry => (isLUUO entry.1 || entry.2 != "LUUO") &&
      entry.2 != "MUUO") = true := by decide +kernel
  simpa [imp_iff_or_not] using List.all_eq_true.mp hall entry hentry

lemma isLUUO_of_opcodeName {op : ℕ} (h : opcodeName op = "LUUO") : isLUUO op = true := by
  rw [opcodeName] at h
  split at h
  case h_1 entry hentry =>
    have hop : entry.1 = op := by simpa using List.find?_some hentry
    exact hop ▸ (uuo_of_mem_opcodeNames (List.mem_of_find?_eq_some hentry)).1 h
  case h_2 => exact absurd h (by decide)

/-- The numbers as the bits of one, by which the kernel compares lists of them. -/
def bits : List ℕ → ℕ
  | [] => 0
  | n :: ns => 2 ^ n ||| bits ns

lemma testBit_bits (ns : List ℕ) (n : ℕ) : (bits ns).testBit n = decide (n ∈ ns) := by
  induction ns with
  | nil => simp [bits]
  | cons m ms ih => simp [bits, ih, Nat.testBit_two_pow, eq_comm]

/-- The opcodes below 0700 that a group installs are listed. -/
lemma mem_opcodeNames_of_installed {op : ℕ} (hop : op < 0o700) (h : isMUUO op = false) :
    op ∈ opcodeNames.map Prod.fst := by
  have hbits : bits (opcodeNames.map Prod.fst) &&& (bits (installs.map Prod.fst) % 2 ^ 0o700) =
      bits (installs.map Prod.fst) % 2 ^ 0o700 := by decide +kernel
  rw [isMUUO, decide_eq_false_iff_not, not_not] at h
  have hbit := congrArg (Nat.testBit · op) hbits
  simp only [Nat.testBit_and, Nat.testBit_mod_two_pow, testBit_bits, decide_eq_true hop,
    decide_eq_true h, Bool.and_true] at hbit
  exact of_decide_eq_true hbit

/-- MUUO is the name of opcodes that no group installs. -/
lemma isMUUO_of_opcodeName {op : ℕ} (hop : op < 0o700) (h : opcodeName op = "MUUO") :
    isMUUO op = true := by
  rw [opcodeName] at h
  split at h
  case h_1 entry hentry =>
    exact absurd h (uuo_of_mem_opcodeNames (List.mem_of_find?_eq_some hentry)).2
  case h_2 hnone =>
    by_contra hinstalled
    obtain ⟨entry, hentry, hfst⟩ :=
      List.mem_map.mp (mem_opcodeNames_of_installed hop (Bool.eq_false_iff.mpr hinstalled))
    exact List.find?_eq_none.mp hnone entry hentry (decide_eq_true hfst)

/-- UUOs with the same mnemonic, AC field and address have the same line. -/
lemma disasm_of_UUO {w w' : W36} (hname : w.mnemonicField.1 = w'.mnemonicField.1)
    (hUUO : w.mnemonicField.1 ∈ ["LUUO", "MUUO"]) (hlow : w.setWidth 27 = w'.setWidth 27) :
    w.disasm none = w'.disasm none := by
  obtain ⟨hac, hi, hx, hy⟩ := low_eq_iff.mp hlow
  have hfield : w.mnemonicField.2 = w'.mnemonicField.2 := by
    rw [field_of_not_printsDevice (not_printsDevice_of_UUO hUUO),
      field_of_not_printsDevice (not_printsDevice_of_UUO (hname ▸ hUUO)), hac]
  rw [disasm, disasm, hname, hfield, disasmOperand, disasmOperand, hi, hx, hy]

end W36

/-- **The line shows the word**, but for the opcodes of the UUOs, all of which it prints as LUUO or
MUUO; and an opcode that is printed as one of them is executed as one. -/
theorem disasm_inj :
    (∀ w w' : W36, w.disasm none = w'.disasm none ↔ w = w' ∨
      w.mnemonicField.1 = w'.mnemonicField.1 ∧ w.mnemonicField.1 ∈ ["LUUO", "MUUO"] ∧
        w.setWidth 27 = w'.setWidth 27) ∧
      ∀ w : W36, (w.mnemonicField.1 = "LUUO" → ops w.op.toNat = doLUUO) ∧
        (w.mnemonicField.1 = "MUUO" → ops w.op.toNat = doMUUO) := by
  refine ⟨fun w w' => ⟨fun h => ?_, ?_⟩, fun w => ⟨fun h => ?_, fun h => ?_⟩⟩
  · exact (W36.eq_or_of_disasm h).imp_right fun hUUO => ⟨(W36.parts_of_disasm h).1, hUUO⟩
  · rintro (rfl | ⟨hname, hUUO, hlow⟩)
    · rfl
    · exact W36.disasm_of_UUO hname hUUO hlow
  · obtain ⟨-, hname⟩ := W36.opcodeName_of_UUO (w := w) (by simp [h])
    exact ops_LUUO (W36.isLUUO_of_opcodeName (hname.symm.trans h))
  · obtain ⟨hop, hname⟩ := W36.opcodeName_of_UUO (w := w) (by simp [h])
    exact ops_of_isMUUO (W36.isMUUO_of_opcodeName hop (hname.symm.trans h))

end KM10
