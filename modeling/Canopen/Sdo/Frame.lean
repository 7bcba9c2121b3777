import Canopen.Can.Interface
import Canopen.Node
import Canopen.Sdo.BlockSegment
import Canopen.Sdo.Request
import Canopen.Sdo.Response

/-!
SDO frames: an arbitration ID split into a function code and a node, and a payload with its
kind. A frame is taken from a message and put into one without any state.

A segment of a block can only be told by who knows that a block is under way, so there is a
second way to read a message.
-/

set_option autoImplicit false

namespace Canopen.Sdo

open Can (Message)

def Party.functionCode : Party → UInt8
  | .client => 0xC
  | .server => 0xB

def Party.ofFunctionCode? : UInt8 → Option Party
  | 0xC => some .client
  | 0xB => some .server
  | _ => none

/-- The bytes of the payload that mean nothing for its kind are zero. -/
structure Frame where
  rtr : Bool
  functionCode : UInt8
  transferType : TransferType
  node : NodeId
  payload : Payload
  dataLength : UInt8
  deriving DecidableEq, Repr

namespace Frame

/-- Clears the padding, so that frames compare equal whatever the sender put there. -/
def build (sender : Party) (node : NodeId) (t : TransferType) (payload : Payload) : Frame :=
  let length := t.dataLength sender (payload.get 0)
  { rtr := false
    functionCode := sender.functionCode
    transferType := t
    node
    payload := Payload.clearFrom payload (t.meaningful length)
    dataLength := length }

def ofPayload (sender : Party) (node : NodeId) (payload : Payload) : Except ParseError Frame :=
  match TransferType.ofCommand? sender (payload.get 0) with
  | some t => .ok (build sender node t payload)
  | none => .error (.unknownCommandSpecifier (payload.get 0))

def ofRequest (node : NodeId) (r : Request) : Frame :=
  build .client node r.transferType r.toBytes

def ofResponse (node : NodeId) (r : Response) : Frame :=
  build .server node r.transferType r.toBytes

def ofBlockSegment (sender : Party) (node : NodeId) (s : BlockSegment) : Frame :=
  build sender node .blockSegment s.toBytes

def sender (f : Frame) : Party :=
  if f.functionCode = Party.client.functionCode then .client else .server

def id (f : Frame) : Can.Id :=
  .std (f.functionCode.toUInt16 <<< 7 ||| f.node.value.toUInt16)

def command (f : Frame) : UInt8 := f.payload.get 0

/-- The data bytes that the command announces, unless they reach past the payload. -/
def data? (f : Frame) : Option (List UInt8) :=
  let start := f.transferType.headerLength
  if start + f.dataLength.toNat ≤ 8 then
    some ((f.payload.toList.drop start).take f.dataLength.toNat)
  else none

def text (f : Frame) : String :=
  let rtr := if f.rtr then 1 else 0
  let function := lowerHex 2 f.functionCode.toNat
  let node := lowerHex 2 f.node.value.toNat
  s!"CANopen Frame: RTR={rtr} FC=0x{function} ID=0x{node} [len={f.dataLength}] "
    ++ spacedHex f.payload.toList

instance : ToString Frame := ⟨text⟩

/-- The message that carries a frame always has eight bytes. -/
def encode (f : Frame) : Message :=
  { id := f.id, data := f.payload, dlc := 8, rtr := f.rtr }

/-- The sender and the node that a message names. A wrong length is reported first. -/
def route (m : Message) : Except ParseError (Party × NodeId) :=
  if m.dlc = 8 then
    match m.id with
    | .extended id => .error (.extendedId id)
    | .std id =>
      let functionCode := (id >>> 7 &&& 0xF).toUInt8
      let node := (id &&& 0x7F).toUInt8
      match Party.ofFunctionCode? functionCode, NodeId.ofByte? node with
      | none, _ => .error (.notSdo functionCode)
      | some _, none => .error (.invalidNodeId node)
      | some sender, some node => .ok (sender, node)
  else .error (.malformedLength m.dlc)

def decode (m : Message) : Except ParseError Frame := do
  let (sender, node) ← route m
  let f ← ofPayload sender node m.data
  return { f with rtr := m.rtr }

def decodeBlockSegment (m : Message) : Except ParseError Frame := do
  let (sender, node) ← route m
  return { build sender node .blockSegment m.data with rtr := m.rtr }

inductive ReadError where
  | read (cause : Can.TransportError)
  | parse (cause : ParseError)
  deriving DecidableEq, Repr

def ReadError.message : ReadError → String
  | .read e => "Failed to read CAN frame: " ++ e.message
  | .parse e => "Could not parse CAN frame to CANopen frame: " ++ e.message

def read {σ : Type} (interface : Can.Interface σ) (w : σ) : Except ReadError (Option Frame) × σ :=
  let (received, w) := interface.receive w
  (match received with
    | .error e => .error (.read e)
    | .ok none => .ok none
    | .ok (some m) =>
      match decode m with
      | .ok f => .ok (some f)
      | .error e => .error (.parse e), w)

end Frame

def Request.ofMessage (m : Message) : Except ParseError Request := do
  Request.ofPayload (← Frame.decode m).payload

def Response.ofMessage (m : Message) : Except ParseError Response := do
  Response.ofPayload (← Frame.decode m).payload

def BlockSegment.ofMessage (m : Message) : Except ParseError BlockSegment := do
  return BlockSegment.ofPayload (← Frame.decodeBlockSegment m).payload

def Request.message (r : Request) (node : NodeId) : Message := (Frame.ofRequest node r).encode

def Response.message (r : Response) (node : NodeId) : Message :=
  (Frame.ofResponse node r).encode

def BlockSegment.message (s : BlockSegment) (sender : Party) (node : NodeId) : Message :=
  (Frame.ofBlockSegment sender node s).encode

end Canopen.Sdo
