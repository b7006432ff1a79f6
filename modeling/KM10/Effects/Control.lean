import KM10.Effects.Frames
import KM10.Effects.UUOs

/-!
The UUOs have the property of every logic that knows the stores into the fetch address, the PC
and its offset.

* `Control`: the elementary operations of the UUOs;
* `ops_holds_all`: with them, the handler of every opcode has the property.
-/

namespace KM10

/-- The operations with which a UUO replaces the fetch address and the PC are elementary too. -/
class Control (L : Logic) : Prop where
  setFetchPC : ∀ v, L.Φ (setFetchPC v)
  setPc : ∀ v, L.Φ (setPc v)
  setPcOffset : ∀ n, L.Φ (setPcOffset n)
  enterInterrupt : L.Φ (setInInterrupt true)
  clearFlags : L.Φ (modifyFlags fun _ => .none)

namespace Holds

variable (L : Logic) [h : Control L]

instance setFetchPC (v : W36) : Holds L (KM10.setFetchPC v) := ⟨h.setFetchPC v⟩
instance setPc (v : W36) : Holds L (KM10.setPc v) := ⟨h.setPc v⟩
instance setPcOffset (n : ℕ) : Holds L (KM10.setPcOffset n) := ⟨h.setPcOffset n⟩
instance enterInterrupt : Holds L (setInInterrupt true) := ⟨h.enterInterrupt⟩
instance clearFlags : Holds L (KM10.modifyFlags fun _ => .none) := ⟨h.clearFlags⟩

instance doJSYS : Holds L KM10.doJSYS := by rw [KM10.doJSYS]; infer_instance

set_option synthInstance.maxSize 1000 in
set_option synthInstance.maxHeartbeats 60000 in
instance doMUUO : Holds L KM10.doMUUO := by rw [KM10.doMUUO]; infer_instance

set_option synthInstance.maxSize 1000 in
set_option synthInstance.maxHeartbeats 60000 in
instance doLUUO : Holds L KM10.doLUUO := by rw [KM10.doLUUO]; infer_instance

end Holds

variable (L : Logic) [Control L]

/-- The UUOs. -/
lemma ops_holds_of_isUUO {op : ℕ} (hop : isUUO op = true) : Holds L (ops op) := by
  rcases ops_of_isUUO hop with h | h | h
  all_goals
    rw [h]
    infer_instance

/-- **Every handler**, in a logic in which everything is elementary. -/
theorem ops_holds_all [Fact L.full] [Fact L.stops] (hspan : 4 ≤ L.span) (hleaves : L.leaves)
    (op : ℕ) : Holds L (ops op) := by
  cases hUUO : isUUO op with
  | true => exact ops_holds_of_isUUO L hUUO
  | false => exact ops_holds L hUUO ((acSpan_le op).trans hspan) fun _ => hleaves

end KM10
