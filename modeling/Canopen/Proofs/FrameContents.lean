import Canopen.Proofs.Formats

set_option autoImplicit false

namespace Canopen

namespace Payload

variable (p : Payload)

theorem get_clearFrom {n : Nat} {i : Fin 8} (h : i < n) : (p.clearFrom n).get i = p.get i :=
  (p.getElem_clearFrom n i i.isLt).trans (if_pos h)

end Payload

namespace Sdo

section
variable (p : Payload)

theorem Address.ofPayload_clearFrom {n : Nat} (h : 4 ≤ n) :
    ofPayload (p.clearFrom n) = ofPayload p := by
  rw [ofPayload, ofPayload, p.get_clearFrom (Nat.lt_of_lt_of_le (by decide) h),
    p.get_clearFrom (Nat.lt_of_lt_of_le (by decide) h),
    p.get_clearFrom (Nat.lt_of_lt_of_le (by decide) h)]

theorem getElem_lastFour {i : Nat} (h : i < 4) : (lastFour p)[i] = p[4 + i] := by
  match i, h with
  | 0, _ | 1, _ | 2, _ | 3, _ => rfl

theorem getElem_lastSeven {i : Nat} (h : i < 7) : (lastSeven p)[i] = p[1 + i] := by
  match i, h with
  | 0, _ | 1, _ | 2, _ | 3, _ | 4, _ | 5, _ | 6, _ => rfl

theorem getElem_padTo_take {n k i : Nat} (v : Vector UInt8 n) (h : i < n) :
    (padTo n (v.toList.take k))[i] = if i < k then v[i] else 0 := by
  simp [padTo, List.getElem?_take]
  split <;> simp

theorem lastFour_clearFrom (k : Nat) :
    lastFour (p.clearFrom (4 + k)) = padTo 4 ((lastFour p).toList.take k) := by
  apply Vector.ext
  intro i hi
  rw [getElem_lastFour _ hi, p.getElem_clearFrom, getElem_padTo_take _ hi, getElem_lastFour _ hi]
  simp

theorem lastSeven_clearFrom (k : Nat) :
    lastSeven (p.clearFrom (1 + k)) = padTo 7 ((lastSeven p).toList.take k) := by
  apply Vector.ext
  intro i hi
  rw [getElem_lastSeven _ hi, p.getElem_clearFrom, getElem_padTo_take _ hi, getElem_lastSeven _ hi]
  simp

end

namespace TransferType

def announcing : Party → TransferType
  | .client => initiateDownload
  | .server => initiateUpload

theorem meaningful_initiate (sender : Party) (command : UInt8) :
    let t := if Command.flag command 1 then expedited else announcing sender
    t.meaningful (t.dataLength sender command) = 4 + initiateLength
      (Command.unusedOfFour command) (Command.flag command 1) (Command.flag command 0) := by
  have hn : (4 - Command.unusedOfFour command).toNat = 4 - (Command.unusedOfFour command).toNat :=
    toNat_sub_count (Nat.le_trans (toNat_and_le _ 3) (by decide))
  cases sender
  all_goals
    cases he : Command.flag command 1 <;> cases hs : Command.flag command 0 <;>
      simp [announcing, meaningful, headerLength, dataLength, initiateLength, hs, hn]

theorem meaningful_segment (command : UInt8) :
    let used := 1 + (7 - (Command.unusedOfSeven command).toNat)
    segmentDownload.meaningful (segmentDownload.dataLength .client command) = used ∧
      segmentUpload.meaningful (segmentUpload.dataLength .server command) = used := by
  have hn : (7 - Command.unusedOfSeven command).toNat = 7 - (Command.unusedOfSeven command).toNat :=
    toNat_sub_count (toNat_and_le _ 7)
  exact ⟨congrArg (1 + ·) hn, congrArg (1 + ·) hn⟩

end TransferType

/-- Both payloads hold a message of the kind `t`, and in the second one the bytes that the message
says are unused are zero. -/
def Keeps {α : Type} (parse : List UInt8 → Except ParseError α) (transferType : α → TransferType)
    (tidied : α → α) (raw kept : Payload) (t : TransferType) : Prop :=
  ∃ message, parse raw.toList = .ok message ∧ parse kept.toList = .ok (tidied message) ∧
    transferType (tidied message) = t

theorem Keeps.whole {α : Type} {parse : List UInt8 → Except ParseError α}
    {transferType : α → TransferType} {tidied : α → α} {p : Payload} {t : TransferType}
    (h : ∃ message, parse p.toList = .ok message ∧ transferType message = t ∧
      tidied message = message) :
    Keeps parse transferType tidied p (p.clearFrom 8) t := by
  obtain ⟨message, hparse, ht, htidied⟩ := h
  refine ⟨message, hparse, ?_, ?_⟩
  · rw [p.clearFrom_eight, htidied, hparse]
  · rw [htidied, ht]

namespace Request

def tidied : Request → Request
  | initiateDownload n e s a d =>
    initiateDownload n e s a (padTo 4 (d.toList.take (initiateLength n e s)))
  | downloadSegment t n c d => downloadSegment t n c (padTo 7 (d.toList.take (7 - n.toNat)))
  | r => r

theorem parse_toList (p : Payload) : parse p.toList = ofPayload p := by
  rw [parse, p.ofList?_self]

theorem keeps_of_command {p : Payload} {t : TransferType}
    (h : TransferType.ofCommand? .client (p.get 0) = some t) :
    Keeps parse transferType tidied p
      (p.clearFrom (t.meaningful (t.dataLength .client (p.get 0)))) t := by
  obtain ⟨c, hc, rfl⟩ := Option.map_eq_some_iff.mp h
  have hhead : ∀ n, 0 < n → (p.clearFrom n).get 0 = p.get 0 := fun n hn => p.get_clearFrom hn
  cases c with
  | downloadSegment =>
    dsimp only
    rw [(TransferType.meaningful_segment _).1]
    simp only [Keeps, parse_toList, ofPayload, hhead _ (Nat.lt_add_right _ Nat.one_pos), hc,
      lastSeven_clearFrom]
    exact ⟨_, rfl, rfl, rfl⟩
  | initiateDownload =>
    have hmeaningful := TransferType.meaningful_initiate .client (p.get 0)
    simp only [TransferType.announcing] at hmeaningful
    dsimp only
    rw [hmeaningful]
    simp only [Keeps, parse_toList, ofPayload, hhead _ (Nat.lt_add_right _ (Nat.succ_pos 3)), hc,
      lastFour_clearFrom, Address.ofPayload_clearFrom p (Nat.le_add_right 4 _)]
    exact ⟨_, rfl, rfl, rfl⟩
  | initiateUpload =>
    show Keeps parse transferType tidied p (p.clearFrom 4) .initiateUpload
    simp only [Keeps, parse_toList, ofPayload, hhead 4 (by decide), hc,
      Address.ofPayload_clearFrom p (Nat.le_refl 4)]
    exact ⟨_, rfl, rfl, rfl⟩
  | uploadSegment =>
    show Keeps parse transferType tidied p (p.clearFrom 1) .segmentUpload
    simp only [Keeps, parse_toList, ofPayload, hhead 1 (by decide), hc]
    exact ⟨_, rfl, rfl, rfl⟩
  | abort =>
    refine Keeps.whole ?_
    simp only [parse_toList, ofPayload, hc]
    exact ⟨_, rfl, rfl, rfl⟩
  | blockUpload | blockDownload =>
    refine Keeps.whole ?_
    simp only [parse_toList, ofPayload, hc]
    split <;> exact ⟨_, rfl, rfl, rfl⟩

end Request

namespace Response

def tidied : Response → Response
  | confirmUpload n e s a d =>
    confirmUpload n e s a (padTo 4 (d.toList.take (initiateLength n e s)))
  | uploadSegment t n c d => uploadSegment t n c (padTo 7 (d.toList.take (7 - n.toNat)))
  | r => r

theorem parse_toList (p : Payload) : parse p.toList = ofPayload p := by
  rw [parse, p.ofList?_self]

theorem parse_unassigned {p : Payload} (h : unassigned (p.get 0) = true) :
    parse p.toList = .error (.unknownCommandSpecifier (p.get 0)) :=
  (parse_toList p).trans (ofPayload_unknown (Bool.or_eq_true_iff.mpr (.inr h)))

theorem keeps_of_command {p : Payload} {t : TransferType}
    (h : TransferType.ofCommand? .server (p.get 0) = some t)
    (hassigned : unassigned (p.get 0) = false) :
    Keeps parse transferType tidied p
      (p.clearFrom (t.meaningful (t.dataLength .server (p.get 0)))) t := by
  obtain ⟨c, hc, rfl⟩ := Option.map_eq_some_iff.mp h
  have hhead : ∀ n, 0 < n → (p.clearFrom n).get 0 = p.get 0 := fun n hn => p.get_clearFrom hn
  cases c with
  | uploadSegment =>
    dsimp only
    rw [(TransferType.meaningful_segment _).2]
    simp only [Keeps, parse_toList, ofPayload, hhead _ (Nat.lt_add_right _ Nat.one_pos), hc,
      lastSeven_clearFrom]
    exact ⟨_, rfl, rfl, rfl⟩
  | upload =>
    have hmeaningful := TransferType.meaningful_initiate .server (p.get 0)
    simp only [TransferType.announcing] at hmeaningful
    dsimp only
    rw [hmeaningful]
    simp only [Keeps, parse_toList, ofPayload, hhead _ (Nat.lt_add_right _ (Nat.succ_pos 3)), hc,
      lastFour_clearFrom, Address.ofPayload_clearFrom p (Nat.le_add_right 4 _)]
    exact ⟨_, rfl, rfl, rfl⟩
  | download =>
    show Keeps parse transferType tidied p (p.clearFrom 4) .initiateDownload
    simp only [Keeps, parse_toList, ofPayload, hhead 4 (by decide), hc,
      Address.ofPayload_clearFrom p (Nat.le_refl 4)]
    exact ⟨_, rfl, rfl, rfl⟩
  | downloadSegment =>
    show Keeps parse transferType tidied p (p.clearFrom 1) .segmentDownload
    simp only [Keeps, parse_toList, ofPayload, hhead 1 (by decide), hc]
    exact ⟨_, rfl, rfl, rfl⟩
  | abort =>
    refine Keeps.whole ?_
    simp only [parse_toList, ofPayload, hc]
    exact ⟨_, rfl, rfl, rfl⟩
  | blockDownload =>
    refine Keeps.whole ?_
    simp only [parse_toList, ofPayload, hc]
    split
    · exact ⟨_, rfl, rfl, rfl⟩
    · exact ⟨_, rfl, rfl, rfl⟩
    · exact ⟨_, rfl, rfl, rfl⟩
    · rename_i h0 h1 h2
      rw [(unassigned_iff (p.get 0)).mpr ⟨hc, Command.subcommand_last h0 h1 h2⟩] at hassigned
      cases hassigned
  | blockUpload =>
    refine Keeps.whole ?_
    simp only [parse_toList, ofPayload, hc]
    split <;> exact ⟨_, rfl, rfl, rfl⟩

end Response

/-- The frame of a message and the request or response in it agree. Only a response with a command
that does not exist can be framed and not be read, neither from the frame nor from the message. -/
theorem frame_agrees_with_message {m : Can.Message} {f : Frame} (h : Frame.decode m = .ok f) :
    (f.sender = .client → Keeps Request.parse Request.transferType Request.tidied
      m.data f.payload f.transferType) ∧
    (f.sender = .server →
      if Response.unassigned (m.data.get 0) then
        Response.parse m.data.toList = .error (.unknownCommandSpecifier (m.data.get 0)) ∧
          Response.parse f.payload.toList = .error (.unknownCommandSpecifier (m.data.get 0))
      else Keeps Response.parse Response.transferType Response.tidied
        m.data f.payload f.transferType) := by
  obtain ⟨sender, node, t, ht, rfl⟩ := Frame.eq_build_of_decode h
  have hsender : Frame.sender { Frame.build sender node t m.data with rtr := m.rtr } = sender :=
    Frame.sender_of_functionCode rfl
  rw [hsender]
  constructor
  · rintro rfl
    exact Request.keeps_of_command ht
  · rintro rfl
    split
    · rename_i hunassigned
      have hhead := Frame.build_payload_head .server node t m.data
      refine ⟨Response.parse_unassigned hunassigned, ?_⟩
      rw [← hhead]
      exact Response.parse_unassigned (hhead ▸ hunassigned)
    · rename_i hassigned
      exact Response.keeps_of_command ht (Bool.eq_false_iff.mpr hassigned)

theorem frame_agrees_with_message_of_two_bytes :
    let m : Can.Message :=
      { id := .std 0x605, data := #v[0x2B, 0, 0x20, 1, 7, 8, 0xAA, 0xBB], dlc := 8, rtr := false }
    let f : Frame :=
      { rtr := false, functionCode := 0xC, transferType := .expedited
        node := ⟨5, by decide, by decide⟩, payload := #v[0x2B, 0, 0x20, 1, 7, 8, 0, 0]
        dataLength := 2 }
    Frame.decode m = .ok f ∧ f.sender = .client ∧ Keeps Request.parse Request.transferType
      Request.tidied m.data f.payload f.transferType := by
  intro m f
  have h : Frame.decode m = .ok f := by
    have hread : (Frame.decode m).toOption = some f := by decide +kernel
    cases hdecode : Frame.decode m with
    | error e =>
      rw [hdecode] at hread
      cases hread
    | ok g =>
      rw [hdecode] at hread
      exact congrArg Except.ok (Option.some.inj hread)
  exact ⟨h, rfl, (frame_agrees_with_message h).1 rfl⟩

theorem drop_addressed (command : UInt8) (a : Address) (rest : Vector UInt8 4) :
    (addressed command a rest).toList.drop 4 = rest.toList := by
  obtain ⟨⟨l⟩, h⟩ := rest
  match l, h with
  | [_, _, _, _], _ => rfl

theorem drop_segmented (command : UInt8) (d : Vector UInt8 7) :
    (segmented command d).toList.drop 1 = d.toList := by
  obtain ⟨⟨l⟩, h⟩ := d
  match l, h with
  | [_, _, _, _, _, _, _], _ => rfl

namespace Frame

/-- The data of the frame are these, its message gives the frame back, and from the frame the
request or response is read. -/
structure Delivers {α : Type} (parse : List UInt8 → Except ParseError α) (f : Frame) (message : α)
    (data : List UInt8) : Prop where
  data : f.data? = some data
  frame : decode f.encode = .ok f
  message : parse f.payload.toList = .ok message

variable {data : List UInt8}

theorem data?_build {sender : Party} {node : NodeId} {t : TransferType} {p : Payload} {n : Nat}
    (hpayload : (build sender node t p).payload = p)
    (hdrop : p.toList.drop t.headerLength = (padTo n data).toList) (hfits : data.length ≤ n)
    (hlength : (t.dataLength sender (p.get 0)).toNat = data.length) :
    (build sender node t p).data? = some data := by
  have hle := t.headerLength_add_dataLength_le sender (p.get 0)
  have hdata : ((build sender node t p).payload.toList.drop t.headerLength).take
      (t.dataLength sender (p.get 0)).toNat = data := by
    rw [hpayload, hdrop, hlength, take_padTo hfits]
  exact (if_pos hle).trans (congrArg some hdata)

theorem dataLength_expedited {command : UInt8} (sender : Party) (h : data.length ≤ 4)
    (hsized : Command.flag command 0 = true)
    (hn : Command.unusedOfFour command = UInt8.ofNat (4 - data.length)) :
    (TransferType.expedited.dataLength sender command).toNat = data.length := by
  have hcount : (UInt8.ofNat (4 - data.length)).toNat = 4 - data.length :=
    toNat_ofNat_sub _ (by decide)
  have hlength : TransferType.expedited.dataLength sender command
      = 4 - Command.unusedOfFour command := if_pos hsized
  rw [hlength, hn, toNat_sub_count (by rw [hcount]; exact Nat.sub_le 4 _), hcount]
  show 4 - (4 - data.length) = data.length
  omega

theorem dataLength_segment {command : UInt8} (h : data.length ≤ 7)
    (hn : Command.unusedOfSeven command = UInt8.ofNat (7 - data.length)) :
    (7 - Command.unusedOfSeven command).toNat = data.length := by
  have hcount : (UInt8.ofNat (7 - data.length)).toNat = 7 - data.length :=
    toNat_ofNat_sub _ (by decide)
  rw [hn, toNat_sub_count (by rw [hcount]; exact Nat.sub_le 7 _), hcount]
  show 7 - (7 - data.length) = data.length
  omega

theorem data?_expedited {sender : Party} {k : UInt8} (hk : k.toNat < 8) (node : NodeId)
    (a : Address) (h : data.length ≤ 4) (h0 : 1 ≤ data.length) :
    let n := UInt8.ofNat (4 - data.length)
    (build sender node .expedited (addressed
      (k <<< 5 ||| ((n &&& 3) <<< 2 ||| Command.bit true 1 ||| Command.bit true 0)) a
      (padTo 4 data))).data? = some data := by
  obtain ⟨hfits, htidy, -⟩ := Request.regular_expedited a h h0
  obtain ⟨-, hn, -, hs⟩ := Command.bits_initiate hk hfits true true
  refine data?_build ?_ (drop_addressed _ a _) h (dataLength_expedited sender h hs hn)
  cases sender with
  | client => exact payload_build_initiate (.inl ⟨rfl, rfl⟩) node hk hfits true true a htidy
  | server => exact payload_build_initiate (.inr ⟨rfl, rfl⟩) node hk hfits true true a htidy

theorem data?_segment {sender : Party} {t : TransferType}
    (ht : t = .segmentDownload ∧ sender = .client ∨ t = .segmentUpload ∧ sender = .server)
    {k : UInt8} (hk : k.toNat < 8) (node : NodeId) (toggle last : Bool) (h : data.length ≤ 7) :
    let n := UInt8.ofNat (7 - data.length)
    (build sender node t (segmented
      (k <<< 5 ||| (Command.bit toggle 4 ||| (n &&& 7) <<< 1 ||| Command.bit last 0))
      (padTo 7 data))).data? = some data := by
  obtain ⟨hfits, htidy, -⟩ := Request.regular_segment toggle last h
  obtain ⟨-, hn, -⟩ := Command.bits_segment hk hfits toggle last
  have hpayload := payload_build_segment ht node hk hfits toggle last htidy
  rcases ht with ⟨rfl, rfl⟩ | ⟨rfl, rfl⟩
  · exact data?_build hpayload (drop_segmented _ _) h (dataLength_segment h hn)
  · exact data?_build hpayload (drop_segmented _ _) h (dataLength_segment h hn)

end Frame

namespace Request

variable (node : NodeId) {data : List UInt8}

theorem delivers {r : Request} (h : r.Regular)
    (hdata : (Frame.ofRequest node r).data? = some data) :
    (Frame.ofRequest node r).Delivers parse r data where
  data := hdata
  frame := (Frame.canonical_build r.ofCommand?_head false).decode_encode
  message := by
    rw [parse_toList, payload_ofRequest node r h.fits h.tidy, ofPayload_toBytes r h.fits]

theorem expedited_delivers (a : Address) (h : data.length ≤ 4) (h0 : 1 ≤ data.length) :
    (Frame.ofRequest node (expedited a data h)).Delivers parse (expedited a data h) data :=
  delivers node (regular_expedited a h h0)
    (Frame.data?_expedited (ClientCommand.specifier_lt .initiateDownload) node a h h0)

theorem segment_delivers (toggle last : Bool) (h : data.length ≤ 7) :
    (Frame.ofRequest node (segment toggle last data h)).Delivers parse
      (segment toggle last data h) data :=
  delivers node (regular_segment toggle last h)
    (Frame.data?_segment (.inl ⟨rfl, rfl⟩) (ClientCommand.specifier_lt .downloadSegment) node
      toggle last h)

end Request

namespace Response

variable (node : NodeId) {data : List UInt8}

theorem delivers {r : Response} (h : r.Regular)
    (hdata : (Frame.ofResponse node r).data? = some data) :
    (Frame.ofResponse node r).Delivers parse r data where
  data := hdata
  frame := (Frame.canonical_build r.ofCommand?_head false).decode_encode
  message := by
    rw [parse_toList, payload_ofResponse node r h.fits h.tidy, ofPayload_toBytes r h.fits]

theorem expedited_delivers (a : Address) (h : data.length ≤ 4) (h0 : 1 ≤ data.length) :
    (Frame.ofResponse node (expedited a data h)).Delivers parse (expedited a data h) data :=
  delivers node (regular_expedited a h h0)
    (Frame.data?_expedited (ServerCommand.specifier_lt .upload) node a h h0)

theorem segment_delivers (toggle last : Bool) (h : data.length ≤ 7) :
    (Frame.ofResponse node (segment toggle last data h)).Delivers parse
      (segment toggle last data h) data :=
  delivers node (regular_segment toggle last h)
    (Frame.data?_segment (.inr ⟨rfl, rfl⟩) (ServerCommand.specifier_lt .uploadSegment) node
      toggle last h)

end Response

namespace Frame

/-- Data that are put into a message come out of its frame. Two bits count the unused bytes of an
expedited message, so it cannot be empty. -/
theorem delivers_data (node : NodeId) (a : Address) (toggle last : Bool) (data : List UInt8) :
    (∀ r, Request.expedited? a data = some r → data ≠ [] →
      (ofRequest node r).Delivers Request.parse r data) ∧
    (∀ r, Request.segment? toggle last data = some r →
      (ofRequest node r).Delivers Request.parse r data) ∧
    (∀ r, Response.expedited? a data = some r → data ≠ [] →
      (ofResponse node r).Delivers Response.parse r data) ∧
    (∀ r, Response.segment? toggle last data = some r →
      (ofResponse node r).Delivers Response.parse r data) := by
  refine ⟨fun r h h0 => ?_, fun r h => ?_, fun r h h0 => ?_, fun r h => ?_⟩
  · obtain ⟨hfits, hr⟩ := Option.dite_none_right_eq_some.mp h
    cases hr
    exact Request.expedited_delivers node a hfits (List.length_pos_iff.mpr h0)
  · obtain ⟨hfits, hr⟩ := Option.dite_none_right_eq_some.mp h
    cases hr
    exact Request.segment_delivers node toggle last hfits
  · obtain ⟨hfits, hr⟩ := Option.dite_none_right_eq_some.mp h
    cases hr
    exact Response.expedited_delivers node a hfits (List.length_pos_iff.mpr h0)
  · obtain ⟨hfits, hr⟩ := Option.dite_none_right_eq_some.mp h
    cases hr
    exact Response.segment_delivers node toggle last hfits

theorem delivers_data_of_three_bytes :
    let node : NodeId := ⟨127, by decide, by decide⟩
    let r := Request.expedited ⟨0x2000, 1⟩ [0, 0, 3] (by decide)
    let r' := Response.segment true false [0, 0, 3] (by decide)
    (ofRequest node r).Delivers Request.parse r [0, 0, 3] ∧
      (ofResponse node r').Delivers Response.parse r' [0, 0, 3] := by
  intro node r r'
  obtain ⟨hrequest, -, -, hresponse⟩ := delivers_data node ⟨0x2000, 1⟩ true false [0, 0, 3]
  exact ⟨hrequest r rfl (by decide), hresponse r' rfl⟩

/-- An empty expedited download is framed as one of four zeros, and is read as such. -/
theorem empty_expedited_gains_four_bytes :
    let node : NodeId := ⟨1, by decide, by decide⟩
    let a : Address := ⟨0x100, 127⟩
    ∃ r, Request.expedited? a [] = some r ∧
      (ofRequest node r).data? = some [0, 0, 0, 0] ∧
      (Request.parse (ofRequest node r).payload.toList).toOption
        = some (.expedited a [0, 0, 0, 0] (by decide)) ∧
      ¬(ofRequest node r).Delivers Request.parse r [] := by
  intro node a
  have hdata : (ofRequest node (.expedited a [] (by decide))).data? = some [0, 0, 0, 0] := by
    decide +kernel
  have hparse : (Request.parse
      (ofRequest node (.expedited a [] (by decide))).payload.toList).toOption
      = some (.expedited a [0, 0, 0, 0] (by decide)) := by
    decide +kernel
  refine ⟨_, rfl, hdata, hparse, fun h => ?_⟩
  have hempty := h.data
  rw [hdata] at hempty
  cases hempty

end Frame

end Sdo
end Canopen
