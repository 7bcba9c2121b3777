import Canopen.Proofs.CanonicalFrames
import Canopen.Proofs.Guarded

set_option autoImplicit false

namespace Canopen

open Can (Message)
open Guarded

namespace Sdo

def TransferType.guardedDataLength (t : TransferType) (sender : Party) (command : UInt8) :
    Guarded UInt8 :=
  match t, sender with
  | expedited, _ =>
    if Command.flag command 0 then byteDifference 4 (Command.unusedOfFour command) else return 4
  | segmentDownload, .client | segmentUpload, .server =>
    byteDifference 7 (Command.unusedOfSeven command)
  | t, sender => return t.dataLength sender command

theorem TransferType.guardedDataLength_eq (t : TransferType) (sender : Party) (command : UInt8) :
    t.guardedDataLength sender command = .ok (t.dataLength sender command) := by
  have hfour : (Command.unusedOfFour command).toNat ≤ 4 :=
    Nat.le_succ_of_le (toNat_and_le _ 3)
  have hseven : (Command.unusedOfSeven command).toNat ≤ 7 := toNat_and_le _ 7
  cases t with
  | expedited =>
    simp only [guardedDataLength, dataLength]
    split
    · exact byteDifference_eq hfour
    · rfl
  | segmentDownload | segmentUpload =>
    cases sender
    all_goals first | exact byteDifference_eq hseven | rfl
  | _ => rfl

theorem TransferType.meaningful_le (t : TransferType) (sender : Party) (command : UInt8) :
    t.meaningful (t.dataLength sender command) ≤ 8 := by
  have hle := t.headerLength_add_dataLength_le sender command
  cases t with
  | abort | blockDownload | blockUpload | blockSegment => exact Nat.le_refl 8
  | _ => exact hle

def Frame.guardedBuild (sender : Party) (node : NodeId) (t : TransferType) (payload : Payload) :
    Guarded Frame := do
  let length ← t.guardedDataLength sender (payload.get 0)
  let _ ← slice payload.toList (t.meaningful length) 8
  return {
    rtr := false
    functionCode := sender.functionCode
    transferType := t
    node
    payload := Payload.clearFrom payload (t.meaningful length)
    dataLength := length }

theorem Frame.guardedBuild_eq (sender : Party) (node : NodeId) (t : TransferType)
    (payload : Payload) :
    guardedBuild sender node t payload = .ok (build sender node t payload) := by
  rw [guardedBuild, t.guardedDataLength_eq, bind_ok,
    slice_eq (t.meaningful_le sender _) (Nat.le_of_eq payload.length_toList.symm)]
  rfl

def Frame.guardedDecode (m : Message) : Guarded (Except ParseError Frame) :=
  match route m with
  | .error e => return .error e
  | .ok (sender, node) =>
    match TransferType.ofCommand? sender (m.data.get 0) with
    | some t => do return .ok { ← guardedBuild sender node t m.data with rtr := m.rtr }
    | none => return .error (.unknownCommandSpecifier (m.data.get 0))

theorem Frame.guardedDecode_eq (m : Message) : guardedDecode m = .ok (decode m) := by
  unfold guardedDecode
  cases hroute : route m with
  | error e =>
    rw [decode, hroute]
    rfl
  | ok sent =>
    obtain ⟨sender, node⟩ := sent
    rw [decode_of_route hroute]
    dsimp only
    cases TransferType.ofCommand? sender (m.data.get 0) with
    | some t =>
      dsimp only
      rw [guardedBuild_eq]
      rfl
    | none => rfl

def Frame.guardedDecodeBlockSegment (m : Message) : Guarded (Except ParseError Frame) :=
  match route m with
  | .error e => return .error e
  | .ok (sender, node) => do
    return .ok { ← guardedBuild sender node .blockSegment m.data with rtr := m.rtr }

theorem Frame.guardedDecodeBlockSegment_eq (m : Message) :
    guardedDecodeBlockSegment m = .ok (decodeBlockSegment m) := by
  unfold guardedDecodeBlockSegment
  cases hroute : route m with
  | error e =>
    rw [decodeBlockSegment, hroute]
    rfl
  | ok sent =>
    obtain ⟨sender, node⟩ := sent
    rw [decodeBlockSegment_of_route hroute]
    dsimp only
    rw [guardedBuild_eq]
    rfl

def Request.guardedOfMessage (m : Message) : Guarded (Except ParseError Request) := do
  return (← Frame.guardedDecode m) >>= fun f => ofPayload f.payload

theorem Request.guardedOfMessage_eq (m : Message) : guardedOfMessage m = .ok (ofMessage m) := by
  rw [guardedOfMessage, Frame.guardedDecode_eq]
  rfl

def BlockSegment.guardedOfMessage (m : Message) : Guarded (Except ParseError BlockSegment) := do
  return (← Frame.guardedDecodeBlockSegment m).map fun f => ofPayload f.payload

theorem BlockSegment.guardedOfMessage_eq (m : Message) :
    guardedOfMessage m = .ok (ofMessage m) := by
  rw [guardedOfMessage, Frame.guardedDecodeBlockSegment_eq, ofMessage]
  cases Frame.decodeBlockSegment m <;> rfl

def Response.guardedMessage (r : Response) (node : NodeId) : Guarded Message := do
  return (← Frame.guardedBuild .server node r.transferType r.toBytes).encode

theorem Response.guardedMessage_eq (r : Response) (node : NodeId) :
    r.guardedMessage node = .ok (r.message node) := by
  rw [guardedMessage, Frame.guardedBuild_eq]
  rfl

def BlockSegment.guardedMessage (s : BlockSegment) (node : NodeId) : Guarded Message := do
  return (← Frame.guardedBuild .server node .blockSegment s.toBytes).encode

theorem BlockSegment.guardedMessage_eq (s : BlockSegment) (node : NodeId) :
    s.guardedMessage node = .ok (s.message .server node) := by
  rw [guardedMessage, Frame.guardedBuild_eq]
  rfl

def Response.guardedExpedited (target : Address) (data : List UInt8) : Guarded Response := do
  assert (data.length ≤ 4)
  let bytes ← copy 4 data.length data
  let unused ← byteDifference 4 (← toByte data.length)
  return .confirmUpload unused true true target bytes

theorem Response.guardedExpedited_eq (target : Address) {data : List UInt8}
    (fits : data.length ≤ 4) : guardedExpedited target data = .ok (expedited target data fits) := by
  have hunused : byteDifference 4 (UInt8.ofNat data.length)
      = .ok (UInt8.ofNat (4 - data.length)) := byteDifference_ofNat_eq (by decide) fits
  rw [guardedExpedited, assert_eq fits, bind_ok, copy_eq fits, bind_ok,
    toByte_eq (Nat.lt_of_le_of_lt fits (by decide)), bind_ok, hunused]
  rfl

def Response.guardedSegment (toggle last : Bool) (data : List UInt8) : Guarded Response := do
  let unused ← toByte (← difference 7 data.length)
  let bytes ← copy 7 data.length data
  return .uploadSegment toggle unused last bytes

theorem Response.guardedSegment_eq (toggle last : Bool) {data : List UInt8}
    (fits : data.length ≤ 7) :
    guardedSegment toggle last data = .ok (segment toggle last data fits) := by
  rw [guardedSegment, difference_eq fits, bind_ok,
    toByte_eq (Nat.lt_of_le_of_lt (Nat.sub_le ..) (by decide)), bind_ok, copy_eq fits]
  rfl

end Sdo

end Canopen
