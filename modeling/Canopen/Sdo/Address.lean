import Canopen.Bytes
import Canopen.Text.Hex

set_option autoImplicit false

namespace Canopen.Sdo

structure Address where
  index : UInt16
  sub : UInt8
  deriving DecidableEq, Repr

namespace Address

def text (a : Address) : String := s!"0x{upperHex 4 a.index.toNat}sub{a.sub}"

instance : ToString Address := ⟨text⟩

/-- An address stands behind the command, the index with its low byte first. -/
def ofPayload (p : Payload) : Address := ⟨halfWord (p.get 1) (p.get 2), p.get 3⟩

end Address

def addressed (command : UInt8) (a : Address) (rest : Vector UInt8 4) : Payload :=
  #v[command, byteAt a.index.toNat 0, byteAt a.index.toNat 1, a.sub,
    rest.get 0, rest.get 1, rest.get 2, rest.get 3]

def segmented (command : UInt8) (d : Vector UInt8 7) : Payload :=
  #v[command, d.get 0, d.get 1, d.get 2, d.get 3, d.get 4, d.get 5, d.get 6]

def lastFour (p : Payload) : Vector UInt8 4 := #v[p.get 4, p.get 5, p.get 6, p.get 7]

def lastSeven (p : Payload) : Vector UInt8 7 :=
  #v[p.get 1, p.get 2, p.get 3, p.get 4, p.get 5, p.get 6, p.get 7]

def lastWord (p : Payload) : UInt32 := word (p.get 4) (p.get 5) (p.get 6) (p.get 7)

def firstHalf (p : Payload) : UInt16 := halfWord (p.get 1) (p.get 2)

theorem Address.ofPayload_addressed (command : UInt8) (a : Address) (rest : Vector UInt8 4) :
    Address.ofPayload (addressed command a rest) = a :=
  congrArg (Address.mk · a.sub) (halfWord_byteAt a.index)

end Canopen.Sdo
