import Canopen.Proofs.Framing

set_option autoImplicit false

namespace Canopen.Sdo

open Can (Message)

theorem toNat_and_le (a b : UInt8) : (a &&& b).toNat ≤ b.toNat := by
  rw [UInt8.toNat_and]
  exact Nat.and_le_right

namespace Request

/-- The same request with counts that fit their bits. -/
def trimmed : Request → Request
  | initiateDownload n e s a d => initiateDownload (n &&& 3) e s a d
  | downloadSegment t n c d => downloadSegment t (n &&& 7) c d
  | endBlockDownload n crc => endBlockDownload (n &&& 7) crc
  | r => r

theorem fits_trimmed (r : Request) : r.trimmed.Fits := by
  cases r with
  | initiateDownload n => exact toNat_and_le n 3
  | downloadSegment t n | endBlockDownload n => exact toNat_and_le n 7
  | _ => trivial

theorem toBytes_trimmed (r : Request) : r.trimmed.toBytes = r.toBytes := by
  cases r <;> simp [trimmed, toBytes, UInt8.and_assoc]

theorem transferType_trimmed (r : Request) : r.trimmed.transferType = r.transferType := by
  cases r <;> rfl

theorem ofCommand?_head (r : Request) :
    TransferType.ofCommand? .client (r.toBytes.get 0) = some r.transferType := by
  rw [← r.toBytes_trimmed, ← r.transferType_trimmed]
  exact r.trimmed.ofCommand?_toBytes r.fits_trimmed

end Request

namespace Response

def trimmed : Response → Response
  | confirmUpload n e s a d => confirmUpload (n &&& 3) e s a d
  | uploadSegment t n c d => uploadSegment t (n &&& 7) c d
  | endBlockUpload n crc => endBlockUpload (n &&& 7) crc
  | r => r

theorem fits_trimmed (r : Response) : r.trimmed.Fits := by
  cases r with
  | confirmUpload n => exact toNat_and_le n 3
  | uploadSegment t n | endBlockUpload n => exact toNat_and_le n 7
  | _ => trivial

theorem toBytes_trimmed (r : Response) : r.trimmed.toBytes = r.toBytes := by
  cases r <;> simp [trimmed, toBytes, UInt8.and_assoc]

theorem transferType_trimmed (r : Response) : r.trimmed.transferType = r.transferType := by
  cases r <;> rfl

theorem ofCommand?_head (r : Response) :
    TransferType.ofCommand? .server (r.toBytes.get 0) = some r.transferType := by
  rw [← r.toBytes_trimmed, ← r.transferType_trimmed]
  exact r.trimmed.ofCommand?_toBytes r.fits_trimmed

end Response

namespace TransferType

abbrev Reading := Party → UInt8 → Option TransferType

def withinBlock : Reading := fun _ _ => some .blockSegment

theorem headerLength_add_dataLength_le (t : TransferType) (sender : Party) (command : UInt8) :
    t.headerLength + (t.dataLength sender command).toNat ≤ 8 := by
  have hfour : (4 - Command.unusedOfFour command).toNat ≤ 4 := by
    have hle : (Command.unusedOfFour command).toNat ≤ 3 := toNat_and_le _ 3
    rw [toNat_sub_count (Nat.le_succ_of_le hle)]
    exact Nat.sub_le _ _
  have hseven : (7 - Command.unusedOfSeven command).toNat ≤ 7 := by
    have hle : (Command.unusedOfSeven command).toNat ≤ 7 := toNat_and_le _ 7
    rw [toNat_sub_count hle]
    exact Nat.sub_le _ _
  cases t with
  | expedited =>
    show 4 + (if Command.flag command 0 then 4 - Command.unusedOfFour command else 4).toNat ≤ 8
    split
    · exact Nat.add_le_add_left hfour 4
    · decide
  | initiateDownload | initiateUpload =>
    have hsize : 4 + (if Command.flag command 0 then 4 else 0 : UInt8).toNat ≤ 8 := by
      split <;> decide
    cases sender
    all_goals first | exact hsize | exact Nat.le_add_right 4 4
  | segmentDownload | segmentUpload =>
    cases sender
    all_goals first | exact Nat.add_le_add_left hseven 1 | exact Nat.le_add_right 1 7
  | abort | blockDownload | blockUpload | blockSegment => exact Nat.le_refl 8

end TransferType

namespace Frame

open TransferType (Reading withinBlock)

/-- Every field is what the sender and the command say, and the rest of the payload is empty. -/
structure Canonical (kind? : Reading) (f : Frame) : Prop where
  functionCode : f.functionCode = 0xB ∨ f.functionCode = 0xC
  transferType : kind? f.sender f.command = some f.transferType
  dataLength : f.dataLength = f.transferType.dataLength f.sender f.command
  padding : ∀ (i : Nat) (h : i < 8), f.transferType.meaningful f.dataLength ≤ i → f.payload[i] = 0

theorem functionCode_cases (sender : Party) :
    sender.functionCode = 0xB ∨ sender.functionCode = 0xC := by
  cases sender
  · exact .inr rfl
  · exact .inl rfl

theorem sender_of_functionCode {f : Frame} {sender : Party}
    (h : f.functionCode = sender.functionCode) : f.sender = sender := by
  rw [Frame.sender, h]
  cases sender <;> rfl

variable {kind? : Reading} {f : Frame} {m : Message}

theorem canonical_build {sender : Party} {node : NodeId} {t : TransferType} {p : Payload}
    (h : kind? sender (p.get 0) = some t) (rtr : Bool) :
    Canonical kind? { build sender node t p with rtr } := by
  have hhead := build_payload_head sender node t p
  have hsender : Frame.sender { build sender node t p with rtr } = sender :=
    sender_of_functionCode rfl
  refine ⟨functionCode_cases sender, ?_, ?_, fun i hi hlen => ?_⟩
  · rw [hsender, command, hhead]
    exact h
  · rw [hsender, command, hhead]
    rfl
  · exact (Payload.getElem_clearFrom p _ i hi).trans (if_neg (Nat.not_lt.mpr hlen))

theorem Canonical.functionCode_sender (h : f.Canonical kind?) :
    f.functionCode = f.sender.functionCode := by
  rcases h.functionCode with hcode | hcode <;> rw [sender, hcode] <;> rfl

theorem Canonical.eq_build (h : f.Canonical kind?) :
    { build f.sender f.node f.transferType f.payload with rtr := f.rtr } = f := by
  have hlength : f.transferType.dataLength f.sender (f.payload.get 0) = f.dataLength :=
    h.dataLength.symm
  have hclear : f.payload.clearFrom (f.transferType.meaningful f.dataLength) = f.payload :=
    Payload.clearFrom_eq_self h.padding
  rw [build, hlength]
  dsimp only
  rw [hclear, ← h.functionCode_sender]

theorem decode_of_route {sender : Party} {node : NodeId} (h : route m = .ok (sender, node)) :
    decode m = match TransferType.ofCommand? sender (m.data.get 0) with
      | some t => .ok { build sender node t m.data with rtr := m.rtr }
      | none => .error (.unknownCommandSpecifier (m.data.get 0)) := by
  unfold decode
  rw [h]
  show ofPayload sender node m.data >>= _ = _
  unfold ofPayload
  cases TransferType.ofCommand? sender (m.data.get 0) <;> rfl

theorem decodeBlockSegment_of_route {sender : Party} {node : NodeId}
    (h : route m = .ok (sender, node)) :
    decodeBlockSegment m = .ok { build sender node .blockSegment m.data with rtr := m.rtr } := by
  unfold decodeBlockSegment
  rw [h]
  rfl

theorem eq_build_of_decode (h : decode m = .ok f) :
    ∃ sender node t, TransferType.ofCommand? sender (m.data.get 0) = some t ∧
      f = { build sender node t m.data with rtr := m.rtr } := by
  cases hroute : route m with
  | error e =>
    rw [decode, hroute] at h
    cases h
  | ok sent =>
    rw [decode_of_route hroute] at h
    split at h
    · rename_i t ht
      cases h
      exact ⟨_, _, t, ht, rfl⟩
    · cases h

theorem canonical_of_decode (h : decode m = .ok f) : f.Canonical TransferType.ofCommand? := by
  obtain ⟨sender, node, t, ht, rfl⟩ := eq_build_of_decode h
  exact canonical_build ht m.rtr

theorem canonical_of_decodeBlockSegment (h : decodeBlockSegment m = .ok f) :
    f.Canonical withinBlock := by
  cases hroute : route m with
  | error e =>
    rw [decodeBlockSegment, hroute] at h
    cases h
  | ok sent =>
    rw [decodeBlockSegment_of_route hroute] at h
    cases h
    exact canonical_build rfl m.rtr

theorem Canonical.decode_encode (h : f.Canonical TransferType.ofCommand?) :
    decode f.encode = .ok f := by
  have hkind : TransferType.ofCommand? f.sender (f.encode.data.get 0) = some f.transferType :=
    h.transferType
  rw [decode_of_route (route_encode f f.sender h.functionCode_sender), hkind]
  exact congrArg Except.ok h.eq_build

theorem Canonical.decodeBlockSegment_encode (h : f.Canonical withinBlock) :
    decodeBlockSegment f.encode = .ok f := by
  have hkind : TransferType.blockSegment = f.transferType := Option.some.inj h.transferType
  rw [decodeBlockSegment_of_route (route_encode f f.sender h.functionCode_sender), hkind]
  exact congrArg Except.ok h.eq_build

theorem Canonical.data (h : f.Canonical kind?) :
    ∃ bytes, f.data? = some bytes ∧ bytes.length = f.dataLength.toNat := by
  have hle : f.transferType.headerLength + f.dataLength.toNat ≤ 8 := by
    rw [h.dataLength]
    exact f.transferType.headerLength_add_dataLength_le f.sender f.command
  refine ⟨_, if_pos hle, ?_⟩
  rw [List.length_take, List.length_drop, Vector.length_toList]
  omega

/-- The frames that a message gives back as they were are those that are read from some message,
and can be told by their fields. -/
theorem round_trip_iff_canonical :
    (∀ f : Frame,
      (decode f.encode = .ok f ↔ ∃ m, decode m = .ok f) ∧
      ((∃ m, decode m = .ok f) ↔ f.Canonical TransferType.ofCommand?)) ∧
    (∀ f : Frame,
      (decodeBlockSegment f.encode = .ok f ↔ ∃ m, decodeBlockSegment m = .ok f) ∧
      ((∃ m, decodeBlockSegment m = .ok f) ↔ f.Canonical withinBlock)) ∧
    (∀ sender node payload f, ofPayload sender node payload = .ok f →
      f.Canonical TransferType.ofCommand?) ∧
    (∀ node r, (ofRequest node r).Canonical TransferType.ofCommand?) ∧
    (∀ node r, (ofResponse node r).Canonical TransferType.ofCommand?) ∧
    (∀ sender node s, (ofBlockSegment sender node s).Canonical withinBlock) ∧
    ∀ f : Frame, f.Canonical TransferType.ofCommand? ∨ f.Canonical withinBlock →
      ∃ bytes, f.data? = some bytes ∧ bytes.length = f.dataLength.toNat := by
  refine ⟨fun f => ⟨⟨fun h => ⟨_, h⟩, ?_⟩, ⟨?_, ?_⟩⟩, fun f => ⟨⟨fun h => ⟨_, h⟩, ?_⟩, ⟨?_, ?_⟩⟩,
    ?_, ?_, ?_, ?_, ?_⟩
  · rintro ⟨m, hm⟩
    exact (canonical_of_decode hm).decode_encode
  · rintro ⟨m, hm⟩
    exact canonical_of_decode hm
  · exact fun h => ⟨_, h.decode_encode⟩
  · rintro ⟨m, hm⟩
    exact (canonical_of_decodeBlockSegment hm).decodeBlockSegment_encode
  · rintro ⟨m, hm⟩
    exact canonical_of_decodeBlockSegment hm
  · exact fun h => ⟨_, h.decodeBlockSegment_encode⟩
  · intro sender node payload f h
    unfold ofPayload at h
    split at h
    · rename_i t ht
      cases h
      exact canonical_build ht false
    · cases h
  · exact fun node r => canonical_build r.ofCommand?_head false
  · exact fun node r => canonical_build r.ofCommand?_head false
  · intro sender node s
    have hkind : withinBlock sender (s.toBytes.get 0) = some .blockSegment := rfl
    exact canonical_build hkind false
  · rintro f (h | h)
    · exact h.data
    · exact h.data

theorem round_trip_of_two_bytes :
    let f := ofRequest ⟨5, by decide, by decide⟩ (.expedited ⟨0x2000, 1⟩ [1, 2] (by decide))
    decode f.encode = .ok f ∧ ∃ bytes, f.data? = some bytes ∧ bytes.length = 2 := by
  obtain ⟨hdecode, -, -, hrequest, -, -, hdata⟩ := round_trip_iff_canonical
  let f := ofRequest ⟨5, by decide, by decide⟩ (.expedited ⟨0x2000, 1⟩ [1, 2] (by decide))
  have hf : f.Canonical TransferType.ofCommand? := hrequest _ _
  exact ⟨(hdecode f).1.mpr ((hdecode f).2.mpr hf), hdata f (.inl hf)⟩

end Frame

end Canopen.Sdo
