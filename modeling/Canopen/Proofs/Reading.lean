import Canopen.Proofs.Framing

set_option autoImplicit false

namespace Canopen.Sdo

open Can (Message)

theorem Frame.route_of_responseId {node : NodeId} {m : Message} (hid : m.id = node.responseId)
    (hdlc : m.dlc = 8) : Frame.route m = .ok (.server, node) := by
  obtain ⟨hcode, hnode⟩ := Frame.parts_of_id .server node
  simp only [Frame.route, if_pos hdlc, hid, node.responseId_eq, hcode, hnode,
    Frame.ofFunctionCode?_functionCode, NodeId.ofByte?_value]

theorem Frame.route_of_dlc {m : Message} (hdlc : m.dlc ≠ 8) :
    Frame.route m = .error (.malformedLength m.dlc) := if_neg hdlc

theorem Response.ofMessage_of_dlc {m : Message} (hdlc : m.dlc ≠ 8) :
    Response.ofMessage m = .error (.malformedLength m.dlc) := by
  rw [ofMessage, Frame.decode, Frame.route_of_dlc hdlc]
  rfl

theorem BlockSegment.ofMessage_of_dlc {m : Message} (hdlc : m.dlc ≠ 8) :
    BlockSegment.ofMessage m = .error (.malformedLength m.dlc) := by
  rw [ofMessage, Frame.decodeBlockSegment, Frame.route_of_dlc hdlc]
  rfl

/-- An abort is read whatever it says. -/
theorem Response.ofMessage_abort {node : NodeId} {m : Message} (hid : m.id = node.responseId)
    (hdlc : m.dlc = 8) (hhead : m.data.get 0 = 0x80) :
    Response.ofMessage m = .ok (.abort (Address.ofPayload m.data) (lastWord m.data)) := by
  have hkind : TransferType.ofCommand? .server (m.data.get 0) = some .abort := by
    rw [hhead]
    rfl
  have hframe : Frame.ofPayload .server node m.data
      = .ok (Frame.build .server node .abort m.data) := by
    rw [Frame.ofPayload, hkind]
  have hpayload : (Frame.build .server node .abort m.data).payload = m.data :=
    Payload.clearFrom_eight m.data
  have hread : Response.ofPayload m.data
      = .ok (.abort (Address.ofPayload m.data) (lastWord m.data)) := by
    rw [Response.ofPayload, hhead]
    rfl
  rw [ofMessage, Frame.decode, Frame.route_of_responseId hid hdlc]
  show (Frame.ofPayload .server node m.data >>= _) >>= _ = _
  rw [hframe]
  show Response.ofPayload (Frame.build .server node .abort m.data).payload = _
  rw [hpayload, hread]

theorem BlockSegment.ofMessage_of_responseId {node : NodeId} {m : Message}
    (hid : m.id = node.responseId) (hdlc : m.dlc = 8) :
    BlockSegment.ofMessage m = .ok (.ofPayload m.data) := by
  have hpayload : (Frame.build .server node .blockSegment m.data).payload = m.data :=
    Payload.clearFrom_eight m.data
  rw [ofMessage, Frame.decodeBlockSegment, Frame.route_of_responseId hid hdlc]
  show Except.ok (ofPayload (Frame.build .server node .blockSegment m.data).payload) = _
  rw [hpayload]

end Canopen.Sdo
