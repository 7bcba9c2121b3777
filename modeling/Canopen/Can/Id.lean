import Canopen.Text.Hex

set_option autoImplicit false

namespace Canopen.Can

/-- Eleven bits when standard, twenty-nine when extended; wider values are kept as they are. -/
inductive Id where
  | std (value : UInt16)
  | extended (value : UInt32)
  deriving DecidableEq, Repr

namespace Id

def raw : Id → UInt32
  | .std v => v.toUInt32
  | .extended v => v

def isExtended : Id → Bool
  | .std _ => false
  | .extended _ => true

def text : Id → String
  | .std v => upperHex 3 v.toNat
  | .extended v => upperHex 8 v.toNat

instance : ToString Id := ⟨text⟩

end Id

end Canopen.Can
