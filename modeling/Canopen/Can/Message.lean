import Canopen.Bytes
import Canopen.Can.Id

set_option autoImplicit false

namespace Canopen.Can

/-- The bytes past `dlc` are padding. A `dlc` above eight means eight. -/
structure Message where
  id : Id
  data : Payload
  dlc : UInt8
  rtr : Bool
  deriving DecidableEq, Repr

namespace Message

def ofBytes? (id : Id) (bytes : List UInt8) : Option Message :=
  if bytes.length ≤ 8 then
    some { id, data := padTo 8 bytes, dlc := UInt8.ofNat bytes.length, rtr := false }
  else none

def remote (id : Id) : Message :=
  { id, data := padTo 8 [], dlc := 0, rtr := true }

instance : Inhabited Message := ⟨{ id := .std 0, data := padTo 8 [], dlc := 0, rtr := false }⟩

def bytes (m : Message) : List UInt8 := m.data.toList.take m.dlc.toNat

def text (m : Message) : String :=
  let remoteMark := if m.rtr then " RTR" else ""
  s!"CAN Frame: ID={m.id} DLC={m.dlc}" ++ remoteMark ++ s!" DATA=[{spacedHex m.bytes}]"

instance : ToString Message := ⟨text⟩

theorem bytes_length_le (m : Message) : m.bytes.length ≤ 8 := by
  rw [bytes, List.length_take, Vector.length_toList]
  exact Nat.min_le_right _ _

end Message

end Canopen.Can
