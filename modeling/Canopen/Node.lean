import Canopen.Can.Id

set_option autoImplicit false

namespace Canopen

/-- A node that can be the target of a transfer: 1 to 127, for 0 is the broadcast. -/
structure NodeId where
  value : UInt8
  pos : 0 < value.toNat
  lt : value.toNat < 128
  deriving DecidableEq, Repr

namespace NodeId

def ofByte? (value : UInt8) : Option NodeId :=
  if h : 0 < value.toNat ∧ value.toNat < 128 then some ⟨value, h.1, h.2⟩ else none

def rejection (value : UInt8) : String := s!"Invalid node ID {value}"

instance : ToString NodeId := ⟨fun n => toString n.value⟩

def requestId (n : NodeId) : Can.Id := .std (0x600 + n.value.toUInt16)

def responseId (n : NodeId) : Can.Id := .std (0x580 + n.value.toUInt16)

theorem ofByte?_value (n : NodeId) : ofByte? n.value = some n := by
  simp [ofByte?, n.pos, n.lt]

theorem value_of_ofByte? {value : UInt8} {n : NodeId} (h : ofByte? value = some n) :
    n.value = value := by
  unfold ofByte? at h
  split at h <;> cases h
  rfl

theorem ofByte?_eq_none_iff (value : UInt8) :
    ofByte? value = none ↔ value.toNat = 0 ∨ 128 ≤ value.toNat := by
  simp only [ofByte?]
  split <;> simp_all <;> omega

end NodeId

end Canopen
