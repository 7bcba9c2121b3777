import Canopen.Sdo.Frame
import Canopen.Proofs.Segments

set_option autoImplicit false

namespace Canopen

@[elab_as_elim]
theorem UInt8.forall_of_lt {k : Nat} {P : UInt8 → Prop} (n : UInt8) (h : n.toNat < k)
    (all : ∀ n < k, P (UInt8.ofNat n)) : P n := by
  have hn := all n.toNat h
  rwa [UInt8.ofNat_toNat] at hn

theorem toNat_sub_count {k n : UInt8} (h : n.toNat ≤ k.toNat) :
    (k - n).toNat = k.toNat - n.toNat :=
  UInt8.toNat_sub_of_le _ _ (UInt8.le_iff_toNat_le.mpr h)

namespace Payload

theorem getElem_clearFrom (p : Payload) (n i : Nat) (h : i < 8) :
    (p.clearFrom n)[i] = if i < n then p[i] else 0 := by
  simp [clearFrom]

theorem clearFrom_eq_self {p : Payload} {n : Nat}
    (h : ∀ (i : Nat) (hi : i < 8), n ≤ i → p[i] = 0) : p.clearFrom n = p := by
  apply Vector.ext
  intro i hi
  rw [getElem_clearFrom]
  split
  · rfl
  · rename_i hn
    exact (h i hi (by omega)).symm

theorem clearFrom_eight (p : Payload) : p.clearFrom 8 = p :=
  clearFrom_eq_self fun _ hi hle => absurd hi (Nat.not_lt.mpr hle)

theorem clearFrom_clearFrom (p : Payload) (n : Nat) :
    (p.clearFrom n).clearFrom n = p.clearFrom n := by
  apply clearFrom_eq_self
  intro i hi hn
  rw [getElem_clearFrom, if_neg (by omega)]

end Payload

namespace NodeId

theorem requestId_eq (n : NodeId) :
    n.requestId = .std (Sdo.Party.client.functionCode.toUInt16 <<< 7 ||| n.value.toUInt16) := by
  refine congrArg Can.Id.std (UInt8.forall_of_lt n.value n.lt ?_)
  decide +kernel

theorem responseId_eq (n : NodeId) :
    n.responseId = .std (Sdo.Party.server.functionCode.toUInt16 <<< 7 ||| n.value.toUInt16) := by
  refine congrArg Can.Id.std (UInt8.forall_of_lt n.value n.lt ?_)
  decide +kernel

theorem requestId_injective {a b : NodeId} (h : a.requestId = b.requestId) : a = b := by
  have hv : a.value.toNat = b.value.toNat := by
    have := congrArg UInt16.toNat (Can.Id.std.inj h)
    have ha := a.lt
    have hb := b.lt
    simp only [UInt16.toNat_add, UInt8.toNat_toUInt16, UInt16.reduceToNat] at this
    omega
  obtain ⟨va, _, _⟩ := a
  obtain ⟨vb, _, _⟩ := b
  cases UInt8.toNat_inj.mp hv
  rfl

theorem responseId_ne_requestId (a b : NodeId) : a.responseId ≠ b.requestId := by
  intro h
  have := congrArg UInt16.toNat (Can.Id.std.inj h)
  have ha := a.lt
  have hb := b.lt
  simp only [UInt16.toNat_add, UInt8.toNat_toUInt16, UInt16.reduceToNat] at this
  omega

end NodeId

namespace Sdo

theorem Request.message_id (r : Request) (node : NodeId) : (r.message node).id = node.requestId :=
  node.requestId_eq.symm

theorem Response.message_id (r : Response) (node : NodeId) :
    (r.message node).id = node.responseId := node.responseId_eq.symm

theorem BlockSegment.message_client_id (s : BlockSegment) (node : NodeId) :
    (s.message .client node).id = node.requestId := node.requestId_eq.symm

theorem BlockSegment.message_server_id (s : BlockSegment) (node : NodeId) :
    (s.message .server node).id = node.responseId := node.responseId_eq.symm

theorem TransferType.meaningful_pos (t : TransferType) (length : UInt8) :
    0 < t.meaningful length := by
  cases t <;> simp only [meaningful, headerLength] <;> omega

@[simp] theorem addressed_head (command : UInt8) (a : Address) (rest : Vector UInt8 4) :
    (addressed command a rest).get 0 = command := rfl

@[simp] theorem get_padTo {n : Nat} (bytes : List UInt8) (i : Fin n) :
    (padTo n bytes).get i = bytes.getD i 0 := by
  show (padTo n bytes)[i.val] = _
  simp [padTo]

@[simp] theorem segmented_head (command : UInt8) (d : Vector UInt8 7) :
    (segmented command d).get 0 = command := rfl

attribute [simp] Address.ofPayload_addressed

theorem addressed_bytesOfWord (command : UInt8) (a : Address) {w : UInt32} {n : Nat}
    (h : w.toNat = n) :
    addressed command a (bytesOfWord w)
      = #v[command, byteAt a.index.toNat 0, byteAt a.index.toNat 1, a.sub, byteAt n 0, byteAt n 1,
        byteAt n 2, byteAt n 3] := by
  subst h
  rfl

theorem getElem_addressed (command : UInt8) (a : Address) (rest : Vector UInt8 4) {i : Nat}
    (h : 4 ≤ i) (hi : i < 8) : (addressed command a rest)[i] = rest[i - 4] := by
  match i, h, hi with
  | 4, _, _ | 5, _, _ | 6, _, _ | 7, _, _ => rfl

theorem getElem_segmented (command : UInt8) (d : Vector UInt8 7) {i : Nat}
    (h : 1 ≤ i) (hi : i < 8) : (segmented command d)[i] = d[i - 1] := by
  match i, h, hi with
  | 1, _, _ | 2, _, _ | 3, _, _ | 4, _, _ | 5, _, _ | 6, _, _ | 7, _, _ => rfl

theorem clearFrom_addressed (command : UInt8) (a : Address) {d : Vector UInt8 4} {n : Nat}
    (h : ∀ (i : Nat) (hi : i < 4), n ≤ i → d[i] = 0) :
    Payload.clearFrom (addressed command a d) (4 + n) = addressed command a d := by
  apply Payload.clearFrom_eq_self
  intro i hi hle
  exact (getElem_addressed command a d (by omega) hi).trans (h _ _ (by omega))

theorem clearFrom_segmented (command : UInt8) {d : Vector UInt8 7} {n : Nat}
    (h : ∀ (i : Nat) (hi : i < 7), n ≤ i → d[i] = 0) :
    Payload.clearFrom (segmented command d) (1 + n) = segmented command d := by
  apply Payload.clearFrom_eq_self
  intro i hi hle
  exact (getElem_segmented command d (by omega) hi).trans (h _ _ (by omega))

theorem clearFrom_padTo {bytes : List UInt8} {n : Nat} (h : bytes.length ≤ n) :
    Payload.clearFrom (padTo 8 bytes) n = padTo 8 bytes :=
  Payload.clearFrom_eq_self fun _ hi hle => getElem_padTo_eq_zero hi (Nat.le_trans h hle)

theorem segmented_padTo (command : UInt8) (bytes : List UInt8) :
    segmented command (padTo 7 bytes) = padTo 8 (command :: bytes) := by
  apply Vector.ext
  intro i hi
  match i, hi with
  | 0, _ => simp [segmented, padTo]
  | i + 1, hi =>
    rw [getElem_segmented _ _ (Nat.le_add_left 1 i) hi]
    simp [padTo]

@[simp] theorem lastFour_addressed (command : UInt8) (a : Address) (rest : Vector UInt8 4) :
    lastFour (addressed command a rest) = rest := by
  obtain ⟨⟨l⟩, h⟩ := rest
  match l, h with
  | [_, _, _, _], _ => rfl

@[simp] theorem lastWord_addressed (command : UInt8) (a : Address) (w : UInt32) :
    lastWord (addressed command a (bytesOfWord w)) = w := word_bytesOfWord w

@[simp] theorem lastSeven_segmented (command : UInt8) (d : Vector UInt8 7) :
    lastSeven (segmented command d) = d := by
  obtain ⟨⟨l⟩, h⟩ := d
  match l, h with
  | [_, _, _, _, _, _, _], _ => rfl

namespace Frame

theorem parts_of_id (sender : Party) (node : NodeId) :
    let id := sender.functionCode.toUInt16 <<< 7 ||| node.value.toUInt16
    (id >>> 7 &&& 0xF).toUInt8 = sender.functionCode ∧ (id &&& 0x7F).toUInt8 = node.value := by
  have all : ∀ v < 128,
      let id := sender.functionCode.toUInt16 <<< 7 ||| (UInt8.ofNat v).toUInt16
      (id >>> 7 &&& 0xF).toUInt8 = sender.functionCode ∧
        (id &&& 0x7F).toUInt8 = UInt8.ofNat v := by
    cases sender <;> decide +kernel
  have h := all node.value.toNat node.lt
  rw [UInt8.ofNat_toNat] at h
  exact h

theorem ofFunctionCode?_functionCode (p : Party) :
    Party.ofFunctionCode? p.functionCode = some p := by
  cases p <;> rfl

theorem route_encode (f : Frame) (sender : Party) (h : f.functionCode = sender.functionCode) :
    route f.encode = .ok (sender, f.node) := by
  obtain ⟨hcode, hnode⟩ := parts_of_id sender f.node
  simp only [route, encode, id, if_true, h, hcode, hnode, ofFunctionCode?_functionCode,
    NodeId.ofByte?_value]

theorem build_payload_head (sender : Party) (node : NodeId) (t : TransferType) (p : Payload) :
    (build sender node t p).payload.get 0 = p.get 0 := by
  have h := TransferType.meaningful_pos t (t.dataLength sender (p.get 0))
  exact (Payload.getElem_clearFrom p _ 0 (by omega)).trans (if_pos h)

theorem build_build (sender : Party) (node : NodeId) (t : TransferType) (p : Payload) :
    build sender node t (build sender node t p).payload = build sender node t p := by
  have h := build_payload_head sender node t p
  conv => lhs; rw [build, h]
  simp only [build, Payload.clearFrom_clearFrom]

theorem decode_encode_build {sender : Party} {node : NodeId} {t : TransferType} {p : Payload}
    (h : TransferType.ofCommand? sender (p.get 0) = some t) :
    decode (build sender node t p).encode = .ok (build sender node t p) := by
  have hr := route_encode (build sender node t p) sender rfl
  have hp : ofPayload sender node (build sender node t p).payload
      = .ok (build sender node t p) := by
    rw [ofPayload, build_payload_head, h]
    exact congrArg Except.ok (build_build sender node t p)
  unfold decode
  rw [hr]
  show (do
    let f ← ofPayload sender node (build sender node t p).payload
    pure { f with rtr := false }) = _
  rw [hp]
  rfl

theorem decodeBlockSegment_encode_build (sender : Party) (node : NodeId) (p : Payload) :
    decodeBlockSegment (build sender node .blockSegment p).encode
      = .ok (build sender node .blockSegment p) := by
  have hr := route_encode (build sender node .blockSegment p) sender rfl
  unfold decodeBlockSegment
  rw [hr]
  show Except.ok
    { build sender node .blockSegment (build sender node .blockSegment p).payload with
      rtr := false } = _
  rw [build_build]
  rfl

end Frame

theorem ClientCommand.specifier_lt (c : ClientCommand) : c.specifier.toNat < 8 := by
  cases c <;> decide

theorem ServerCommand.specifier_lt (c : ServerCommand) : c.specifier.toNat < 8 := by
  cases c <;> decide

namespace Command

variable {k n : UInt8} (hk : k.toNat < 8)
include hk

theorem bits_initiate (hn : n.toNat ≤ 3) (e s : Bool) :
    let b := k <<< 5 ||| ((n &&& 3) <<< 2 ||| bit e 1 ||| bit s 0)
    specifier b = k ∧ unusedOfFour b = n ∧ flag b 1 = e ∧ flag b 0 = s := by
  revert e s
  refine UInt8.forall_of_lt n (Nat.lt_succ_of_le hn) ?_
  refine UInt8.forall_of_lt k hk ?_
  decide +kernel

theorem bits_segment (hn : n.toNat ≤ 7) (t c : Bool) :
    let b := k <<< 5 ||| (bit t 4 ||| (n &&& 7) <<< 1 ||| bit c 0)
    specifier b = k ∧ unusedOfSeven b = n ∧ flag b 4 = t ∧ flag b 0 = c := by
  revert t c
  refine UInt8.forall_of_lt n (Nat.lt_succ_of_le hn) ?_
  refine UInt8.forall_of_lt k hk ?_
  decide +kernel

theorem bits_end (hn : n.toNat ≤ 7) :
    let b := k <<< 5 ||| ((n &&& 7) <<< 2 ||| 1)
    specifier b = k ∧ unusedAtEnd b = n ∧ flag b 0 = true := by
  refine UInt8.forall_of_lt n (Nat.lt_succ_of_le hn) ?_
  refine UInt8.forall_of_lt k hk ?_
  decide +kernel

end Command

/-- The number of bytes an initiate message uses for data. -/
def initiateLength (unused : UInt8) (expedited sized : Bool) : Nat :=
  if expedited then (if sized then 4 - unused.toNat else 4) else if sized then 4 else 0

namespace Frame

variable {sender : Party} {t : TransferType} {k n : UInt8}

theorem payload_build_initiate
    (ht : t = .initiateDownload ∧ sender = .client ∨ t = .initiateUpload ∧ sender = .server)
    (node : NodeId) (hk : k.toNat < 8) (hn : n.toNat ≤ 3) (e s : Bool) (a : Address)
    {d : Vector UInt8 4} (hd : ∀ (i : Nat) (h : i < 4), initiateLength n e s ≤ i → d[i] = 0) :
    let p := addressed (k <<< 5 ||| ((n &&& 3) <<< 2 ||| Command.bit e 1 ||| Command.bit s 0)) a d
    (build sender node (if e then .expedited else t) p).payload = p := by
  intro p
  obtain ⟨-, hunused, -, hsized⟩ := Command.bits_initiate hk hn e s
  have hsub : (4 - n).toNat = 4 - n.toNat := toNat_sub_count (Nat.le_succ_of_le hn)
  have hlength : (if e then TransferType.expedited else t).meaningful
      ((if e then TransferType.expedited else t).dataLength sender (p.get 0))
        = 4 + initiateLength n e s := by
    rcases ht with ⟨rfl, rfl⟩ | ⟨rfl, rfl⟩ <;> cases e <;> cases s <;>
      simp [p, TransferType.meaningful, TransferType.headerLength, TransferType.dataLength,
        initiateLength, hunused, hsized, hsub]
  show p.clearFrom _ = p
  rw [hlength]
  exact clearFrom_addressed _ a hd

theorem payload_build_segment
    (ht : t = .segmentDownload ∧ sender = .client ∨ t = .segmentUpload ∧ sender = .server)
    (node : NodeId) (hk : k.toNat < 8) (hn : n.toNat ≤ 7) (toggle last : Bool)
    {d : Vector UInt8 7} (hd : ∀ (i : Nat) (h : i < 7), 7 - n.toNat ≤ i → d[i] = 0) :
    let p := segmented
      (k <<< 5 ||| (Command.bit toggle 4 ||| (n &&& 7) <<< 1 ||| Command.bit last 0)) d
    (build sender node t p).payload = p := by
  intro p
  obtain ⟨-, hunused, -⟩ := Command.bits_segment hk hn toggle last
  have hsub : (7 - n).toNat = 7 - n.toNat := toNat_sub_count hn
  have hlength : t.meaningful (t.dataLength sender (p.get 0)) = 1 + (7 - n.toNat) := by
    rcases ht with ⟨rfl, rfl⟩ | ⟨rfl, rfl⟩ <;>
      simp [p, TransferType.meaningful, TransferType.headerLength, TransferType.dataLength,
        hunused, hsub]
  show p.clearFrom _ = p
  rw [hlength]
  exact clearFrom_segmented _ hd

end Frame

namespace Request

def Fits : Request → Prop
  | initiateDownload n .. => n.toNat ≤ 3
  | downloadSegment _ n .. | endBlockDownload n _ => n.toNat ≤ 7
  | _ => True

/-- The bytes that are said to be unused are zero. -/
def Tidy : Request → Prop
  | initiateDownload n e s _ d =>
    ∀ (i : Nat) (h : i < 4), initiateLength n e s ≤ i → d[i] = 0
  | downloadSegment _ n _ d => ∀ (i : Nat) (h : i < 7), 7 - n.toNat ≤ i → d[i] = 0
  | _ => True

def kind : Request → ClientCommand
  | initiateDownload .. => .initiateDownload
  | downloadSegment .. => .downloadSegment
  | initiateUpload .. => .initiateUpload
  | uploadSegment .. => .uploadSegment
  | initiateBlockDownload .. | endBlockDownload .. => .blockDownload
  | initiateBlockUpload .. | startBlockUpload | confirmBlock .. | confirmBlockUploadEnd =>
    .blockUpload
  | abort .. => .abort

theorem specifier_toBytes (r : Request) (h : r.Fits) :
    Command.specifier (r.toBytes.get 0) = r.kind.specifier := by
  cases r with
  | initiateDownload n e s a d =>
    exact (Command.bits_initiate (ClientCommand.specifier_lt .initiateDownload) h e s).1
  | downloadSegment t n c d =>
    exact (Command.bits_segment (ClientCommand.specifier_lt .downloadSegment) h t c).1
  | endBlockDownload n crc =>
    exact (Command.bits_end (ClientCommand.specifier_lt .blockDownload) h).1
  | initiateBlockDownload c s a size =>
    rw [toBytes, addressed_head]
    cases c <;> cases s <;> rfl
  | initiateBlockUpload c a blockSize threshold =>
    rw [toBytes, addressed_head]
    cases c <;> rfl
  | uploadSegment t => cases t <;> rfl
  | initiateUpload a | abort a code =>
    rw [toBytes, addressed_head]
    rfl
  | startBlockUpload | confirmBlockUploadEnd => rfl
  | confirmBlock seqno blockSize =>
    simp [toBytes]
    rfl

theorem ofPayload_toBytes (r : Request) (h : r.Fits) : ofPayload r.toBytes = .ok r := by
  have hs := specifier_toBytes r h
  simp only [ofPayload, hs, ClientCommand.ofSpecifier?_specifier]
  cases r with
  | initiateDownload n e s a d =>
    obtain ⟨-, hn, he, hs⟩ :=
      Command.bits_initiate (ClientCommand.specifier_lt .initiateDownload) h e s
    simp [kind, toBytes, command, hn, he, hs]
  | downloadSegment t n c d =>
    obtain ⟨-, hn, ht, hc⟩ :=
      Command.bits_segment (ClientCommand.specifier_lt .downloadSegment) h t c
    simp [kind, toBytes, command, hn, ht, hc]
  | endBlockDownload n crc =>
    obtain ⟨-, hn, hc⟩ := Command.bits_end (ClientCommand.specifier_lt .blockDownload) h
    simp [kind, toBytes, command, hn, hc, firstHalf, halfWord_byteAt]
  | initiateBlockDownload c s a size => cases c <;> cases s <;> simp [kind, toBytes] <;> rfl
  | initiateBlockUpload c a blockSize threshold => cases c <;> simp [kind, toBytes] <;> rfl
  | uploadSegment t => cases t <;> rfl
  | _ => simp [kind, toBytes] <;> rfl

theorem ofCommand?_toBytes (r : Request) (h : r.Fits) :
    TransferType.ofCommand? .client (r.toBytes.get 0) = some r.transferType := by
  have hs := specifier_toBytes r h
  simp only [TransferType.ofCommand?, hs, ClientCommand.ofSpecifier?_specifier, Option.map_some,
    Option.some.injEq]
  cases r with
  | initiateDownload n e s a d =>
    obtain ⟨-, -, he, -⟩ :=
      Command.bits_initiate (ClientCommand.specifier_lt .initiateDownload) h e s
    exact congrArg (fun b => if b then TransferType.expedited else .initiateDownload) he
  | _ => rfl

theorem payload_ofRequest (node : NodeId) (r : Request) (h : r.Fits) (ht : r.Tidy) :
    (Frame.ofRequest node r).payload = r.toBytes := by
  cases r with
  | initiateDownload n e s a d =>
    exact Frame.payload_build_initiate (.inl ⟨rfl, rfl⟩) node
      (ClientCommand.specifier_lt .initiateDownload) h e s a ht
  | downloadSegment t n c d =>
    exact Frame.payload_build_segment (.inl ⟨rfl, rfl⟩) node
      (ClientCommand.specifier_lt .downloadSegment) h t c ht
  | initiateUpload a => exact clearFrom_addressed _ a (n := 0) fun i hi _ => by simp [padTo]
  | uploadSegment t => exact clearFrom_padTo (Nat.le_refl 1)
  | _ => exact Payload.clearFrom_eight _

theorem message_eq (node : NodeId) {r : Request} (h : r.Fits) (ht : r.Tidy) :
    r.message node =
      { id := .std (0x600 + node.value.toUInt16), data := r.toBytes, dlc := 8, rtr := false } := by
  have hdata : (r.message node).data = r.toBytes := payload_ofRequest node r h ht
  have heq : r.message node =
      { id := (r.message node).id, data := (r.message node).data, dlc := 8, rtr := false } := rfl
  rw [heq, hdata, r.message_id]
  rfl

theorem ofMessage_message (node : NodeId) {r : Request} (h : r.Fits) (ht : r.Tidy) :
    ofMessage (r.message node) = .ok r := by
  unfold ofMessage message Frame.ofRequest
  rw [Frame.decode_encode_build (ofCommand?_toBytes r h)]
  exact (congrArg ofPayload (payload_ofRequest node r h ht)).trans (ofPayload_toBytes r h)

structure Regular (r : Request) : Prop where
  fits : r.Fits
  tidy : r.Tidy
  goes : r.kind ≠ .abort

/-- No abort, and without a number of unused bytes that had to be right. -/
def Plain : Request → Prop
  | downloadSegment .. | initiateDownload .. | endBlockDownload .. | abort .. => False
  | _ => True

theorem Regular.of_plain {r : Request} (h : r.Plain) : r.Regular := by
  cases r with
  | downloadSegment | initiateDownload | endBlockDownload | abort => exact h.elim
  | _ => exact ⟨trivial, trivial, by simp [kind]⟩

theorem Regular.message_head_ne_abort {r : Request} (h : r.Regular) (node : NodeId) :
    (r.message node).data.get 0 ≠ 0x80 := by
  have hhead : (r.message node).data.get 0 = r.toBytes.get 0 :=
    Frame.build_payload_head .client node r.transferType r.toBytes
  have hkind : r.kind.specifier ≠ 4 := by
    have hgoes := h.goes
    generalize r.kind = kind at hgoes
    cases kind with
    | abort => exact absurd rfl hgoes
    | _ => decide
  rw [hhead]
  intro he
  have hspecifier := specifier_toBytes r h.fits
  rw [he] at hspecifier
  exact hkind hspecifier.symm

theorem regular_expedited (a : Address) {bytes : List UInt8} (h : bytes.length ≤ 4)
    (h0 : 1 ≤ bytes.length) : (expedited a bytes h).Regular := by
  have hn := toNat_ofNat_sub (n := 4) bytes.length (by decide)
  refine ⟨?_, fun i hi hle => getElem_padTo_unused h (by decide) hi hle, by simp [expedited, kind]⟩
  show (UInt8.ofNat (4 - bytes.length)).toNat ≤ 3
  omega

theorem regular_announce (a : Address) (size : UInt32) : (announce a (some size)).Regular :=
  ⟨Nat.zero_le _, fun _ hi hle => absurd hle (Nat.not_le.mpr hi), by simp [announce, kind]⟩

theorem regular_segment (toggle last : Bool) {bytes : List UInt8} (h : bytes.length ≤ 7) :
    (segment toggle last bytes h).Regular := by
  have hn := toNat_ofNat_sub (n := 7) bytes.length (by decide)
  refine ⟨?_, fun i hi hle => getElem_padTo_unused h (by decide) hi hle, by simp [segment, kind]⟩
  show (UInt8.ofNat (7 - bytes.length)).toNat ≤ 7
  omega

end Request

namespace Response

def Fits : Response → Prop
  | confirmUpload n .. => n.toNat ≤ 3
  | uploadSegment _ n .. | endBlockUpload n _ => n.toNat ≤ 7
  | _ => True

def Tidy : Response → Prop
  | confirmUpload n e s _ d => ∀ (i : Nat) (h : i < 4), initiateLength n e s ≤ i → d[i] = 0
  | uploadSegment _ n _ d => ∀ (i : Nat) (h : i < 7), 7 - n.toNat ≤ i → d[i] = 0
  | _ => True

def kind : Response → ServerCommand
  | confirmUpload .. => .upload
  | uploadSegment .. => .uploadSegment
  | confirmDownload _ => .download
  | confirmDownloadSegment _ => .downloadSegment
  | confirmBlockDownload .. | confirmBlock .. | confirmBlockDownloadEnd => .blockDownload
  | confirmBlockUpload .. | endBlockUpload .. => .blockUpload
  | abort .. => .abort

theorem specifier_toBytes (r : Response) (h : r.Fits) :
    Command.specifier (r.toBytes.get 0) = r.kind.specifier := by
  cases r with
  | confirmUpload n e s a d =>
    exact (Command.bits_initiate (ServerCommand.specifier_lt .upload) h e s).1
  | uploadSegment t n c d =>
    exact (Command.bits_segment (ServerCommand.specifier_lt .uploadSegment) h t c).1
  | endBlockUpload n crc => exact (Command.bits_end (ServerCommand.specifier_lt .blockUpload) h).1
  | confirmBlockDownload c a blockSize =>
    rw [toBytes, addressed_head]
    cases c <;> rfl
  | confirmBlockUpload c s a size =>
    rw [toBytes, addressed_head]
    cases c <;> cases s <;> rfl
  | confirmDownloadSegment t => cases t <;> rfl
  | confirmDownload a | abort a code =>
    rw [toBytes, addressed_head]
    rfl
  | confirmBlockDownloadEnd => rfl
  | confirmBlock seqno blockSize =>
    simp [toBytes]
    rfl

theorem ofPayload_toBytes (r : Response) (h : r.Fits) : ofPayload r.toBytes = .ok r := by
  have hs := specifier_toBytes r h
  simp only [ofPayload, hs, ServerCommand.ofSpecifier?_specifier]
  cases r with
  | confirmUpload n e s a d =>
    obtain ⟨-, hn, he, hs⟩ := Command.bits_initiate (ServerCommand.specifier_lt .upload) h e s
    simp [kind, toBytes, command, hn, he, hs]
  | uploadSegment t n c d =>
    obtain ⟨-, hn, ht, hc⟩ := Command.bits_segment (ServerCommand.specifier_lt .uploadSegment) h t c
    simp [kind, toBytes, command, hn, ht, hc]
  | endBlockUpload n crc =>
    obtain ⟨-, hn, hc⟩ := Command.bits_end (ServerCommand.specifier_lt .blockUpload) h
    simp [kind, toBytes, command, hn, hc, firstHalf, halfWord_byteAt]
  | confirmBlockUpload c s a size => cases c <;> cases s <;> simp [kind, toBytes] <;> rfl
  | confirmBlockDownload c a blockSize =>
    cases c <;> simp [kind, toBytes] <;> rfl
  | confirmDownloadSegment t => cases t <;> rfl
  | _ => simp [kind, toBytes] <;> rfl

theorem ofCommand?_toBytes (r : Response) (h : r.Fits) :
    TransferType.ofCommand? .server (r.toBytes.get 0) = some r.transferType := by
  have hs := specifier_toBytes r h
  simp only [TransferType.ofCommand?, hs, ServerCommand.ofSpecifier?_specifier, Option.map_some,
    Option.some.injEq]
  cases r with
  | confirmUpload n e s a d =>
    obtain ⟨-, -, he, -⟩ := Command.bits_initiate (ServerCommand.specifier_lt .upload) h e s
    exact congrArg (fun b => if b then TransferType.expedited else .initiateUpload) he
  | _ => rfl

theorem payload_ofResponse (node : NodeId) (r : Response) (h : r.Fits) (ht : r.Tidy) :
    (Frame.ofResponse node r).payload = r.toBytes := by
  cases r with
  | confirmUpload n e s a d =>
    exact Frame.payload_build_initiate (.inr ⟨rfl, rfl⟩) node
      (ServerCommand.specifier_lt .upload) h e s a ht
  | uploadSegment t n c d =>
    exact Frame.payload_build_segment (.inr ⟨rfl, rfl⟩) node
      (ServerCommand.specifier_lt .uploadSegment) h t c ht
  | confirmDownload a => exact clearFrom_addressed _ a (n := 0) fun i hi _ => by simp [padTo]
  | confirmDownloadSegment t => exact clearFrom_padTo (Nat.le_refl 1)
  | _ => exact Payload.clearFrom_eight _

theorem ofMessage_message (node : NodeId) {r : Response} (h : r.Fits) (ht : r.Tidy) :
    ofMessage (r.message node) = .ok r := by
  unfold ofMessage message Frame.ofResponse
  rw [Frame.decode_encode_build (ofCommand?_toBytes r h)]
  exact (congrArg ofPayload (payload_ofResponse node r h ht)).trans (ofPayload_toBytes r h)

structure Regular (r : Response) : Prop where
  fits : r.Fits
  tidy : r.Tidy
  goes : r.kind ≠ .abort

def Plain : Response → Prop
  | uploadSegment .. | confirmUpload .. | endBlockUpload .. | abort .. => False
  | _ => True

theorem Regular.of_plain {r : Response} (h : r.Plain) : r.Regular := by
  cases r with
  | uploadSegment | confirmUpload | endBlockUpload | abort => exact h.elim
  | _ => exact ⟨trivial, trivial, by simp [kind]⟩

theorem regular_expedited (a : Address) {bytes : List UInt8} (h : bytes.length ≤ 4)
    (h0 : 1 ≤ bytes.length) : (expedited a bytes h).Regular := by
  obtain ⟨hf, ht, -⟩ := Request.regular_expedited a h h0
  exact ⟨hf, ht, by simp [expedited, kind]⟩

theorem regular_announce (a : Address) (size : UInt32) : (announce a (some size)).Regular := by
  obtain ⟨hf, ht, -⟩ := Request.regular_announce a size
  exact ⟨hf, ht, by simp [announce, kind]⟩

theorem regular_segment (toggle last : Bool) {bytes : List UInt8} (h : bytes.length ≤ 7) :
    (segment toggle last bytes h).Regular := by
  obtain ⟨hf, ht, -⟩ := Request.regular_segment toggle last h
  exact ⟨hf, ht, by simp [segment, kind]⟩

end Response

namespace BlockSegment

theorem bits_segment {n : UInt8} (h : n.toNat < 128) (c : Bool) :
    let b := Command.bit c 7 ||| (n &&& 0x7f)
    Command.flag b 7 = c ∧ b &&& 0x7f = n := by
  revert c
  refine UInt8.forall_of_lt n h ?_
  decide +kernel

/-- No segment looks like an abort. -/
theorem message_head_ne_abort (sender : Party) (node : NodeId) {s : BlockSegment}
    (h0 : 0 < s.seqno.toNat) (h : s.seqno.toNat < 128) :
    (s.message sender node).data.get 0 ≠ 0x80 := by
  have hne : ∀ c : Bool, 0 < s.seqno.toNat → Command.bit c 7 ||| (s.seqno &&& 0x7f) ≠ 0x80 := by
    refine UInt8.forall_of_lt s.seqno h ?_
    decide +kernel
  have hd : (s.message sender node).data.get 0 = Command.bit s.last 7 ||| (s.seqno &&& 0x7f) :=
    Frame.build_payload_head sender node .blockSegment s.toBytes
  rw [hd]
  exact hne s.last h0

theorem message_client_eq (s : BlockSegment) (node : NodeId) :
    s.message .client node =
      { id := .std (0x600 + node.value.toUInt16), data := s.toBytes, dlc := 8, rtr := false } := by
  have hdata : (s.message .client node).data = s.toBytes := Payload.clearFrom_eight _
  have heq : s.message .client node =
      { id := (s.message .client node).id, data := (s.message .client node).data, dlc := 8
        rtr := false } := rfl
  rw [heq, hdata, s.message_client_id]
  rfl

theorem ofPayload_toBytes (s : BlockSegment) (h : s.seqno.toNat < 128) :
    ofPayload s.toBytes = s := by
  obtain ⟨hc, hn⟩ := bits_segment h s.last
  simp [ofPayload, toBytes, hc, hn]

theorem ofMessage_message (sender : Party) (node : NodeId) {s : BlockSegment}
    (h : s.seqno.toNat < 128) : ofMessage (s.message sender node) = .ok s := by
  unfold ofMessage message Frame.ofBlockSegment
  rw [Frame.decodeBlockSegment_encode_build]
  have hp : (Frame.build sender node .blockSegment s.toBytes).payload = s.toBytes :=
    Payload.clearFrom_eight _
  exact congrArg Except.ok ((congrArg ofPayload hp).trans (ofPayload_toBytes s h))

end BlockSegment

end Sdo
end Canopen
