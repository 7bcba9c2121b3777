import Canopen.Sdo.Address
import Canopen.Sdo.Command

set_option autoImplicit false

namespace Canopen.Sdo

/-- The unused bytes of the last segment are told by the frame that ends the transfer. -/
structure BlockSegment where
  last : Bool
  /-- Counted from one within the block, at most 127. -/
  seqno : UInt8
  data : Vector UInt8 7
  deriving DecidableEq, Repr

namespace BlockSegment

def toBytes (s : BlockSegment) : Payload :=
  segmented (Command.bit s.last 7 ||| (s.seqno &&& 0x7f)) s.data

def ofPayload (p : Payload) : BlockSegment :=
  { last := Command.flag (p.get 0) 7, seqno := p.get 0 &&& 0x7f, data := lastSeven p }

def parse (bytes : List UInt8) : Except ParseError BlockSegment :=
  match Payload.ofList? bytes with
  | some p => .ok (ofPayload p)
  | none => .error (.malformedLength (UInt8.ofNat bytes.length))

end BlockSegment

def segmentSize : Nat := 7

def segmentBytes (object : List UInt8) (i : Nat) : List UInt8 :=
  (object.drop (i * segmentSize)).take segmentSize

/-- The number of segments of an object. An empty one still takes one segment. -/
def segmentCount (object : List UInt8) : Nat :=
  max 1 ((object.length + (segmentSize - 1)) / segmentSize)

theorem segmentBytes_length_le (object : List UInt8) (i : Nat) :
    (segmentBytes object i).length ≤ 7 := by
  rw [segmentBytes, List.length_take]
  exact Nat.min_le_left _ _

theorem segmentCount_pos (object : List UInt8) : 0 < segmentCount object :=
  Nat.lt_of_lt_of_le Nat.one_pos (Nat.le_max_left _ _)

end Canopen.Sdo
