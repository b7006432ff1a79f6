import KM10.Instr.IO

/-!
The I/O instructions in `W36::disasm` (`word.cpp`).

* `W36.ownMnemonic`: the words that have a mnemonic of their own, which are printed with their AC
  field;
* `DisasmField.ofIODev`: what is printed in front of the comma; the numbers of the devices are those
  of `disasm`, not those under which the devices are registered.
-/

namespace KM10

namespace W36

/-- The field `ioSeven`, which is 7 in an I/O instruction. -/
def ioSeven (w : W36) : BitVec 3 := w.extractLsb' 33 3

/-- The field `ioAll`, which takes in the device and the operation. -/
def ioAll (w : W36) : BitVec 13 := w.extractLsb' 23 13

/-- The mnemonics of the first `switch`. -/
def ownMnemonic (w : W36) : Option String :=
  match w.ioAll.toNat <<< 2 with
  | 0o070000 => some "APRID"
  | 0o070010 => some "WRFIL"
  | 0o070040 => some "RDERA"
  | 0o070050 => some "SBDIAG"
  | 0o070110 => some "CLRPT"
  | 0o070144 => some "SWPIA"
  | 0o070150 => some "SWPVA"
  | 0o070154 => some "SWPUA"
  | 0o070164 => some "SWPIO"
  | 0o070170 => some "SWPVO"
  | 0o070174 => some "SWPUO"
  | 0o070200 => some "RDPERF"
  | 0o070204 => some "RDTIME"
  | 0o070210 => some "WRPAE"
  | 0o070240 => some "RDMACT"
  | 0o070244 => some "RDEACT"
  | 0o070260 => some "WRTIME"
  | _ => none

end W36

/-- The mnemonic of an I/O operation. -/
def IOOp.mnemonic : IOOp → String
  | .BLKI => "BLKI"
  | .DATAI => "DATAI"
  | .BLKO => "BLKO"
  | .DATAO => "DATAO"
  | .CONO => "CONO"
  | .CONI => "CONI"
  | .CONSZ => "CONSZ"
  | .CONSO => "CONSO"

/-- The field in front of the comma: the name of a device, the number of one without a name, or the
AC field. -/
inductive DisasmField where
  | name (dev : DeviceName)
  | number (ioDev : BitVec 7)
  | ac (ac : BitVec 4)
deriving DecidableEq

/-- The names of the second `switch`. -/
def DisasmField.ofIODev (ioDev : BitVec 7) : DisasmField :=
  match ioDev.toNat with
  | 0o00 => .name .apr
  | 0o01 => .name .pi
  | 0o02 => .name .pag
  | 0o03 => .name .cca
  | 0o04 => .name .tim
  | 0o05 => .name .mtr
  | _ => .number ioDev

namespace W36

/-- The mnemonic and the field of an I/O instruction. -/
def disasmIO (w : W36) : String × DisasmField :=
  match w.ownMnemonic with
  | some mnemonic => (mnemonic, .ac w.ac)
  | none => ((IOOp.ofBits w.ioOp).mnemonic, .ofIODev w.ioDev)

/-- `disasm` prints the name of a device for the word. -/
def Prints (w : W36) (dev : DeviceName) : Prop := w.ioSeven = 7 ∧ w.disasmIO.2 = .name dev

end W36

end KM10
