import KM10.Effects.OnDevice
import KM10.Instr.Disasm

/-!
The devices that I/O instructions reach, against the names that `disasm` prints for them.

`disasm` numbers PAG, CCA, TIM and MTR from 2 on; they are registered under other numbers, and
number 3 is that of PAG.

* `Routed`: an I/O instruction touches the device that is printed for it only, and a CONO reaches
  that device;
* `prints_cases`: the words for which a name is printed;
* `routed_iff`: the instructions that are routed so, all but CONO for PAG, CCA and TIM;
* `routed_CONO_CCA`: CONO CCA writes the conditions of the pager.
-/

namespace KM10

open StateExcept

/-- The I/O instruction in `iw` touches the device `D` only, unless it is a CONO APR that resets
the I/O system, and if it is a CONO it reaches `D`. -/
structure Routed (D : DeviceName) (s : Cpu) : Prop where
  others : ∀ {r : IResult} {t : Cpu}, ¬ (IOOp.ofBits s.iw.ioOp).resets D s.ea →
    doIO.run s = .ok (r, t) → KeepsOthers D s t
  reaches : IOOp.ofBits s.iw.ioOp = .CONO → DeviceName.ofIODev s.iw.ioDev = D

/-! ### The printed names -/

lemma toNat_ioAll {w : W36} (h : w.ioSeven = 7) :
    w.ioAll.toNat = 7 * 2 ^ 10 + w.ioDev.toNat * 2 ^ 3 + w.ioOp.toNat := by
  have hseven : w.ioSeven.toNat = 7 := by rw [h]; rfl
  rw [W36.ioSeven, BitVec.extractLsb'_toNat, Nat.shiftRight_eq_div_pow] at hseven
  simp only [W36.ioAll, W36.ioDev, W36.ioOp, BitVec.extractLsb'_toNat, Nat.shiftRight_eq_div_pow]
  omega

/-- Most operations of number 3 have a mnemonic of their own, and so has CONO of number 5. -/
lemma ownMnemonic_ne_none {w : W36} (h : w.ioSeven = 7) :
    (w.ioDev = 3 → IOOp.ofBits w.ioOp ≠ .BLKI → IOOp.ofBits w.ioOp ≠ .CONO →
      w.ownMnemonic ≠ none) ∧
    (w.ioDev = 5 → IOOp.ofBits w.ioOp = .CONO → w.ownMnemonic ≠ none) := by
  have hall := toNat_ioAll h
  rw [W36.ownMnemonic, IOOp.ofBits]
  have hlt := w.ioOp.isLt
  generalize w.ioOp.toNat = n at *
  constructor
  · intro hdev hBLKI hCONO
    rw [hdev] at hall
    rw [hall]
    interval_cases n <;> simp at hBLKI hCONO ⊢
  · intro hdev hCONO
    rw [hdev] at hall
    rw [hall]
    interval_cases n <;> simp at hCONO ⊢

/-- A name is printed for the first six numbers, and for number 3 in BLKI and CONO only. -/
lemma prints_cases {w : W36} {D : DeviceName} (h : w.Prints D) :
    (D = .apr ∧ w.ioDev = 0) ∨ (D = .pi ∧ w.ioDev = 1) ∨ (D = .pag ∧ w.ioDev = 2) ∨
      (D = .cca ∧ w.ioDev = 3 ∧ (IOOp.ofBits w.ioOp = .BLKI ∨ IOOp.ofBits w.ioOp = .CONO)) ∨
      (D = .tim ∧ w.ioDev = 4) ∨
      (D = .mtr ∧ w.ioDev = 5 ∧ IOOp.ofBits w.ioOp ≠ .CONO) := by
  obtain ⟨hseven, hfield⟩ := h
  obtain ⟨hthree, hfive⟩ := ownMnemonic_ne_none hseven
  unfold W36.disasmIO at hfield
  split at hfield
  case h_1 => cases hfield
  case h_2 hown =>
    have hdev (n : ℕ) (h : w.ioDev.toNat = n) : w.ioDev = BitVec.ofNat 7 n := by
      rw [← h, BitVec.ofNat_toNat, BitVec.setWidth_eq]
    change DisasmField.ofIODev w.ioDev = .name D at hfield
    rw [DisasmField.ofIODev] at hfield
    split at hfield <;> cases hfield
    case h_1 h => exact .inl ⟨rfl, hdev _ h⟩
    case h_2 h => exact .inr (.inl ⟨rfl, hdev _ h⟩)
    case h_3 h => exact .inr (.inr (.inl ⟨rfl, hdev _ h⟩))
    case h_4 h =>
      refine .inr (.inr (.inr (.inl ⟨rfl, hdev _ h, ?_⟩)))
      by_contra hne
      rw [not_or] at hne
      exact hthree (hdev _ h) hne.1 hne.2 hown
    case h_5 h => exact .inr (.inr (.inr (.inr (.inl ⟨rfl, hdev _ h⟩))))
    case h_6 h =>
      exact .inr (.inr (.inr (.inr (.inr ⟨rfl, hdev _ h, fun hCONO =>
        hfive (hdev _ h) hCONO hown⟩))))

/-! ### The devices that are reached -/

/-- A change of a device that nothing is printed for keeps all that have a name. -/
lemma KeepsOthers.of_noDevice {D : DeviceName} {s t : Cpu} (h : KeepsOthers .noDevice s t) :
    KeepsOthers D s t where
  apr _ := by
    have hapr : t.apr = s.apr := h.apr (by decide)
    rw [hapr]
    exact (ite_self _).symm
  pi _ := h.pi (by decide)
  pag _ := h.pag (by decide)
  cca _ := h.cca (by decide)
  tim _ := h.tim (by decide)
  mtr _ := h.mtr (by decide)

/-- The BLKI of the pager changes no device. -/
lemma frames_BLKI_pag (D : DeviceName) (ea : W36) :
    Frames (OnDevice D) <| handleIO .pag .BLKI ea := by
  have hdatai : Holds (plainLogic (OnDevice D)) (doDATAI .pag) := by
    rw [doDATAI, sweepFirst, if_neg (by decide)]
    infer_instance
  refine Holds.frames _ ?_
  unfold handleIO
  rw [doBLKI, if_neg (by decide)]
  infer_instance

/-- The CONO words that do not reach the device that is printed. -/
def Misrouted (D : DeviceName) (w : W36) : Prop :=
  IOOp.ofBits w.ioOp = .CONO ∧ (D = .pag ∨ D = .cca ∨ D = .tim)

/-- **I/O instructions** for which a name is printed touch that device only, and a CONO reaches it,
exactly if they are not CONO for PAG, CCA or TIM. -/
theorem routed_iff {D : DeviceName} {s : Cpu} (h : s.iw.Prints D) :
    Routed D s ↔ ¬ Misrouted D s.iw := by
  constructor
  · rintro ⟨-, hreaches⟩ ⟨hCONO, hD⟩
    have hdev := hreaches hCONO
    rcases prints_cases h with ⟨rfl, hn⟩ | ⟨rfl, hn⟩ | ⟨rfl, hn⟩ | ⟨rfl, hn, -⟩ | ⟨rfl, hn⟩ |
      ⟨rfl, hn, -⟩
    all_goals
      rw [hn] at hdev
      revert hD hdev
      decide
  · intro hrouted
    have hon {dev : DeviceName} (hdev : DeviceName.ofIODev s.iw.ioDev = dev)
        (hpag : dev ≠ .pag) {r : IResult} {t : Cpu}
        (hreset : ¬ (IOOp.ofBits s.iw.ioOp).resets dev s.ea) (hrun : doIO.run s = .ok (r, t)) :
        KeepsOthers dev s t := by
      rw [run_doIO_eq, hdev] at hrun
      exact ((handleIO_frames (fun hload => hpag hload.1) hreset).out hrun).toKeepsOthers
    have hnone (hdev : DeviceName.ofIODev s.iw.ioDev = .noDevice) {r : IResult} {t : Cpu}
        (hrun : doIO.run s = .ok (r, t)) : KeepsOthers D s t :=
      (hon hdev (by decide) (fun hreset => absurd hreset.1 (by decide)) hrun).of_noDevice
    rcases prints_cases h with ⟨rfl, hn⟩ | ⟨rfl, hn⟩ | ⟨rfl, hn⟩ | ⟨rfl, hn, hop⟩ | ⟨rfl, hn⟩ |
      ⟨rfl, hn, hop⟩
    · have hdev : DeviceName.ofIODev s.iw.ioDev = .apr := by rw [hn]; rfl
      exact ⟨fun hreset hrun => hon hdev (by decide) hreset hrun, fun _ => hdev⟩
    · have hdev : DeviceName.ofIODev s.iw.ioDev = .pi := by rw [hn]; rfl
      exact ⟨fun hreset hrun => hon hdev (by decide) hreset hrun, fun _ => hdev⟩
    · have hdev : DeviceName.ofIODev s.iw.ioDev = .noDevice := by rw [hn]; rfl
      exact ⟨fun _ hrun => hnone hdev hrun, fun hCONO => absurd ⟨hCONO, .inl rfl⟩ hrouted⟩
    · -- number 3 reaches the pager, and only its BLKI is left
      have hdev : DeviceName.ofIODev s.iw.ioDev = .pag := by rw [hn]; rfl
      have hBLKI := hop.resolve_right fun hCONO => hrouted ⟨hCONO, .inr (.inl rfl)⟩
      refine ⟨fun {r t} _ hrun => ?_, fun hCONO => absurd ⟨hCONO, .inr (.inl rfl)⟩ hrouted⟩
      rw [run_doIO_eq, hdev, hBLKI] at hrun
      exact ((frames_BLKI_pag .cca s.ea).out hrun).toKeepsOthers
    · have hdev : DeviceName.ofIODev s.iw.ioDev = .noDevice := by rw [hn]; rfl
      exact ⟨fun _ hrun => hnone hdev hrun, fun hCONO => absurd ⟨hCONO, .inr (.inr rfl)⟩ hrouted⟩
    · have hdev : DeviceName.ofIODev s.iw.ioDev = .noDevice := by rw [hn]; rfl
      exact ⟨fun _ hrun => hnone hdev hrun, fun hCONO => absurd hCONO hop⟩

/-- CONI APR,0, which is routed to the APR. -/
def Cpu.atCONI : Cpu := { Cpu.initial with iw := W36.assemble 0o700 0o05 false 0 0 }

theorem routed_iff_CONI : Routed .apr Cpu.atCONI :=
  (routed_iff ⟨by decide, by decide⟩).mpr fun h => absurd h.1 (by decide)

/-- CONO CCA,1. -/
def Cpu.atCONO : Cpu := { Cpu.initial with iw := W36.assemble 0o701 0o14 false 0 0, ea := 1 }

/-- **CONO CCA** writes the conditions of the pager. -/
theorem routed_CONO_CCA :
    Cpu.atCONO.iw.Prints .cca ∧
      doIO.run Cpu.atCONO = .ok (.iNoSuchDevice,
        { Cpu.atCONO with pag := { Cpu.atCONO.pag with pagState := 1 } }) ∧
      ¬ Routed .cca Cpu.atCONO := by
  have hreaches : DeviceName.ofIODev Cpu.atCONO.iw.ioDev ≠ .cca := by decide
  exact ⟨⟨by decide, by decide⟩, rfl, fun h => hreaches (h.reaches (by decide))⟩

end KM10
