import Canopen.Proofs.LossyDownloads

/-!
The last segment of a block download as a request. When its acknowledgement is lost the client
sends it again, but the server is through with the segments by then. What it makes of the segment
depends on the sequence number: with the mark of the last segment, that is a command.
-/

set_option autoImplicit false

namespace Canopen

open Sdo

namespace Sdo

theorem command_of_last {n : UInt8} (h : n.toNat < 128) :
    let b := Command.bit true 7 ||| (n &&& 0x7f)
    ClientCommand.ofSpecifier? (Command.specifier b) =
        (if n.toNat < 32 then some .abort
        else if n.toNat < 64 then some .blockUpload
        else if n.toNat < 96 then some .blockDownload else none) ∧
      Command.flag b 0 = decide (n.toNat % 2 = 1) ∧
      (Command.subcommand b).toNat = n.toNat % 4 ∧
      Command.flag b 1 = Command.flag n 1 ∧ Command.flag b 2 = Command.flag n 2 := by
  refine UInt8.forall_of_lt n h ?_
  decide +kernel

theorem Request.ofMessage_last (node : NodeId) {s : BlockSegment} (hl : s.last = true)
    (h : s.seqno.toNat < 128) :
    Request.ofMessage (s.message .client node) = Request.ofPayload s.toBytes := by
  have hpayload : (Frame.ofBlockSegment .client node s).payload = s.toBytes :=
    Payload.clearFrom_eight s.toBytes
  have hhead : s.toBytes.get 0 = Command.bit true 7 ||| (s.seqno &&& 0x7f) := by
    rw [BlockSegment.toBytes, segmented_head, hl]
  have hcommand := (command_of_last h).1
  rw [← hhead] at hcommand
  unfold Request.ofMessage BlockSegment.message Frame.decode
  rw [Frame.route_encode (Frame.ofBlockSegment .client node s) .client rfl]
  show (do
    let f ← (do
      let f ← Frame.ofPayload .client node (Frame.ofBlockSegment .client node s).payload
      pure { f with rtr := false })
    Request.ofPayload f.payload) = _
  rw [hpayload, Frame.ofPayload, TransferType.ofCommand?, hcommand]
  -- All eight bytes of such a request mean something, so that none is cleared.
  by_cases h32 : s.seqno.toNat < 32
  · rw [if_pos h32]
    exact congrArg Request.ofPayload (Payload.clearFrom_eight s.toBytes)
  · by_cases h64 : s.seqno.toNat < 64
    · rw [if_neg h32, if_pos h64]
      exact congrArg Request.ofPayload (Payload.clearFrom_eight s.toBytes)
    · by_cases h96 : s.seqno.toNat < 96
      · rw [if_neg h32, if_neg h64, if_pos h96]
        exact congrArg Request.ofPayload (Payload.clearFrom_eight s.toBytes)
      · rw [if_neg h32, if_neg h64, if_neg h96] at hcommand ⊢
        rw [Request.ofPayload, hcommand]
        rfl

theorem BlockSegment.ofMessage_request (node : NodeId) {r : Request} (h : r.Fits) (ht : r.Tidy) :
    BlockSegment.ofMessage (r.message node) = .ok (BlockSegment.ofPayload r.toBytes) := by
  unfold BlockSegment.ofMessage Request.message Frame.decodeBlockSegment
  rw [Frame.route_encode (Frame.ofRequest node r) .client rfl]
  show Except.ok (BlockSegment.ofPayload ((Frame.ofRequest node r).payload.clearFrom 8)) = _
  rw [Payload.clearFrom_eight, Request.payload_ofRequest node r h ht]

/-- The last segment of a block of this length reads as the start of a block download. -/
def Restarts (length : Nat) : Prop := 64 ≤ length ∧ length < 96 ∧ length % 2 = 0

/-- What a last segment may be read as, by its number. -/
inductive BlockSegment.ReadsAs (s : BlockSegment) : Except ParseError Request → Prop
  | abort (h : ¬Restarts s.seqno.toNat) (a : Address) (code : UInt32) :
    ReadsAs s (.ok (.abort a code))
  | upload (h : ¬Restarts s.seqno.toNat) (h4 : s.seqno.toNat % 4 = 0) (crc : Bool) (a : Address)
      (blockSize threshold : UInt8) :
    ReadsAs s (.ok (.initiateBlockUpload crc a blockSize threshold))
  | uploading (h : ¬Restarts s.seqno.toNat) (h4 : s.seqno.toNat % 4 ≠ 0) {r : Request}
      (hr : r = .startBlockUpload ∨ r = .confirmBlockUploadEnd ∨ ∃ n b, r = .confirmBlock n b) :
    ReadsAs s (.ok r)
  | finish (h : ¬Restarts s.seqno.toNat) (h4 : s.seqno.toNat % 4 ≠ 0) (n : UInt8) (crc : UInt16) :
    ReadsAs s (.ok (.endBlockDownload n crc))
  | restart (h : Restarts s.seqno.toNat) :
    ReadsAs s (.ok (.initiateBlockDownload (Command.flag s.seqno 2) (Command.flag s.seqno 1)
      (Address.ofPayload s.toBytes) (lastWord s.toBytes)))
  | nothing (h : ¬Restarts s.seqno.toNat) (e : ParseError) : ReadsAs s (.error e)

theorem BlockSegment.readsAs (node : NodeId) {s : BlockSegment} (hl : s.last = true)
    (h : s.seqno.toNat < 128) : s.ReadsAs (Request.ofMessage (s.message .client node)) := by
  have hhead : s.toBytes.get 0 = Command.bit true 7 ||| (s.seqno &&& 0x7f) := by
    rw [BlockSegment.toBytes, segmented_head, hl]
  obtain ⟨hcommand, hodd, hsub, hsized, hcrc⟩ := command_of_last h
  rw [← hhead] at hcommand hodd hsub hsized hcrc
  rw [Request.ofMessage_last node hl h]
  unfold Request.ofPayload
  dsimp only
  rw [hcommand]
  by_cases h32 : s.seqno.toNat < 32
  · rw [if_pos h32]
    exact .abort (fun hr => absurd hr.1 (by omega)) _ _
  · by_cases h64 : s.seqno.toNat < 64
    · have hends : ¬Restarts s.seqno.toNat := fun hr => absurd hr.1 (by omega)
      rw [if_neg h32, if_pos h64]
      dsimp only
      split
      · rename_i hzero
        exact .upload hends (by rw [← hsub, hzero]; rfl) _ _ _ _
      · rename_i hone
        exact .uploading hends (by rw [← hsub, hone]; decide) (.inr (.inl rfl))
      · rename_i htwo
        exact .uploading hends (by rw [← hsub, htwo]; decide) (.inr (.inr ⟨_, _, rfl⟩))
      · rename_i hnot _ _
        refine .uploading hends (fun hzero => hnot ?_) (.inl rfl)
        rw [← hsub] at hzero
        exact UInt8.toNat_inj.mp hzero
    · by_cases h96 : s.seqno.toNat < 96
      · rw [if_neg h32, if_neg h64, if_pos h96]
        dsimp only
        by_cases hend : s.seqno.toNat % 2 = 1
        · rw [hodd, if_pos (decide_eq_true hend)]
          exact .finish (fun hr => absurd hr.2.2 (by omega)) (by omega) _ _
        · rw [hodd, if_neg (by simpa using hend), hsized, hcrc]
          exact .restart ⟨by omega, by omega, by omega⟩
      · rw [if_neg h32, if_neg h64, if_neg h96]
        exact .nothing (fun hr => absurd hr.2.1 (by omega)) _

end Sdo

namespace Server

def restarted (s : Server) (segment : BlockSegment) : BlockDownload :=
  { target := Address.ofPayload segment.toBytes
    size := if Command.flag segment.seqno 1 then some (lastWord segment.toBytes).toNat else none
    crc := Command.flag segment.seqno 2 && s.crc
    seqno := 0
    buffer := [] }

/-- A server that has given up the block download by taking its last segment, of this number, for
a request. -/
structure Spent (srv : Server) (length : Nat) (s : Server) : Prop where
  like : srv.Like s
  state : s.state = .idle ∨ length % 4 = 0 ∧ ∃ u, s.state = .uploadBlockInitiated u
  goes : ¬Restarts length

/-- A server that is through with the segments of a block download. Its last block has this
length. -/
def PastSegments (srv : Server) (length : Nat) (s : Server) : Prop :=
  srv.Like s ∧ ((∃ t, s.state = .endDownloadBlock t) ∨ srv.Spent length s)

def Unhelpful (q : Response) : Prop :=
  (∃ a code, q = .abort a code) ∨ q.Regular ∧ ∀ seqno blockSize, q ≠ .confirmBlock seqno blockSize

/-- What a server does that gives up the block download, and answers. -/
def GivesUp (srv s : Server) (length : Nat) (r : Answer) : Prop :=
  ∃ q : Response, r.frames = [q.message s.node] ∧ Unhelpful q ∧ srv.Spent length r.device

variable {srv s : Server} {segment : BlockSegment} {length k : Nat}

theorem Spent.during (h : srv.Spent length s) (k : Nat) :
    srv.Spent length (s.during s.state k) :=
  ⟨h.like.during s.state k, h.state, h.goes⟩

theorem GivesUp.of_refuse (hlike : srv.Like s) (hends : ¬Restarts length) {a : Address}
    {code : AbortCode} {effects : List Record} {r : Answer}
    (hr : r = { s.refuse a code with effects }) : srv.GivesUp s length r := by
  subst hr
  exact ⟨_, rfl, .inl ⟨a, code.code, rfl⟩, ⟨hlike.node, hlike.faults⟩, .inl rfl, hends⟩

theorem givesUp_initiateBlockUpload (hf : s.faults = { switchProtocol := false })
    (hlike : srv.Like s) (hends : ¬Restarts length) (h4 : length % 4 = 0) (crc : Bool)
    (a : Address) (blockSize threshold : UInt8) :
    srv.GivesUp s length (s.initiateBlockUpload crc a blockSize threshold) := by
  have hswitch : s.faults.switchProtocol = false := by rw [hf]
  rw [initiateBlockUpload, hswitch]
  split
  · exact .of_refuse hlike hends rfl
  · rw [if_neg (by simp)]
    split
    · exact .of_refuse hlike hends rfl
    · exact ⟨_, rfl, .inr ⟨.of_plain trivial, by simp [Response.announceBlocks]⟩,
        ⟨hlike.node, hlike.faults⟩, .inr ⟨h4, _, rfl⟩, hends⟩

theorem givesUp_endBlockDownload (hlike : srv.Like s) (hends : ¬Restarts length)
    (t : BlockDownload) (unused : UInt8) (checksum : UInt16) :
    srv.GivesUp s length ((s.during .idle k).endBlockDownload t unused checksum) := by
  have hidle := hlike.during .idle k
  rw [endBlockDownload]
  split
  · exact .of_refuse hidle hends rfl
  · split
    · exact ⟨_, rfl, .inr ⟨.of_plain trivial, by simp⟩, ⟨hlike.node, hlike.faults⟩, .inl rfl, hends⟩
    · exact .of_refuse hidle hends rfl

theorem givesUp_uploading (hlike : srv.Like s) (hends : ¬Restarts length)
    (hs : (∃ t, s.state = .endDownloadBlock t) ∨ s.state = .idle) {r : Request}
    (hr : r = .startBlockUpload ∨ r = .confirmBlockUploadEnd ∨ ∃ n b, r = .confirmBlock n b) :
    srv.GivesUp s length ((s.during s.state k).proceed r) := by
  have hrefuse : ∃ effects, (s.during s.state k).proceed r =
      { (s.during .idle k).refuse ⟨0, 0⟩ .invalidCommandSpecifier with effects } := by
    rcases hs with ⟨t, ht⟩ | hidle
    · rw [ht]
      rcases hr with rfl | rfl | ⟨n, b, rfl⟩ <;> exact ⟨_, rfl⟩
    · rw [hidle]
      rcases hr with rfl | rfl | ⟨n, b, rfl⟩ <;> exact ⟨_, rfl⟩
  obtain ⟨effects, hrefuse⟩ := hrefuse
  exact .of_refuse (hlike.during .idle k) hends hrefuse

theorem givesUp_finish (hlike : srv.Like s) (hends : ¬Restarts length)
    (hs : (∃ t, s.state = .endDownloadBlock t) ∨ s.state = .idle) (unused : UInt8)
    (checksum : UInt16) :
    srv.GivesUp s length ((s.during s.state k).proceed (.endBlockDownload unused checksum)) := by
  rcases hs with ⟨t, ht⟩ | hidle
  · rw [ht]
    exact givesUp_endBlockDownload hlike hends t unused checksum
  · have hrefuse : ∃ effects, (s.during s.state k).proceed (.endBlockDownload unused checksum) =
        { (s.during .idle k).refuse ⟨0, 0⟩ .invalidCommandSpecifier with effects } := by
      rw [hidle]
      exact ⟨_, rfl⟩
    obtain ⟨effects, hrefuse⟩ := hrefuse
    exact .of_refuse (hlike.during .idle k) hends hrefuse

theorem request_eq_proceed {switch : Bool} (hf : s.faults = { switchProtocol := switch })
    {r : Request} (hr : r.kind ≠ .abort) : s.request r = s.proceed r := by
  cases r with
  | abort a code => exact absurd rfl hr
  | _ => simp [request, hf]

theorem PastSegments.handle (h : srv.PastSegments length s)
    (hf : s.faults = { switchProtocol := false }) :
    s.handle (segment.message .client s.node) =
      (s.during s.state (s.received + 1)).readRequest (segment.message .client s.node) := by
  have hnot : ∀ t, s.state ≠ .downloadBlock t := by
    rcases h.2 with ⟨t, ht⟩ | ⟨-, hidle | ⟨-, u, hu⟩, -⟩
    · simp [ht]
    · simp [hidle]
    · simp [hu]
  have hread : (s.during s.state s.received).handle (segment.message .client s.node) = _ :=
    handle_eq_read hf (segment.message_client_id s.node)
  refine hread.trans ?_
  rw [read]
  split
  · rename_i t ht
    exact absurd ht (hnot t)
  · rfl

/-- What comes of the last segment of a block when it is sent again to a server that is through with
the segments. It is not acknowledged. -/
theorem handle_last_again (hf : srv.faults = { switchProtocol := false })
    (hl : segment.last = true) (h : segment.seqno.toNat < 128)
    (hs : srv.PastSegments segment.seqno.toNat s) :
    let r := s.handle (segment.message .client s.node)
    r.frames = [] ∧
        (r.device = s.during s.state (s.received + 1) ∨ srv.Spent segment.seqno.toNat r.device) ∨
      ∃ q : Response, r.frames = [q.message s.node] ∧ Unhelpful q ∧
        (srv.Spent segment.seqno.toNat r.device ∨
          Restarts segment.seqno.toNat ∧
            r.device = s.during (.downloadBlock (s.restarted segment)) (s.received + 1)) := by
  have hlike := hs.1
  have hfaults : s.faults = { switchProtocol := false } := hlike.faults.trans hf
  have hrequest : ∀ {r : Request}, r.kind ≠ .abort →
      (s.during s.state (s.received + 1)).request r
        = (s.during s.state (s.received + 1)).proceed r :=
    request_eq_proceed (s := s.during s.state (s.received + 1)) hfaults
  -- Only a segment that starts a block upload finds one.
  have hstate : segment.seqno.toNat % 4 ≠ 0 →
      (∃ t, s.state = .endDownloadBlock t) ∨ s.state = .idle := by
    intro h4
    rcases hs.2 with ht | ⟨-, hidle | ⟨hzero, -⟩, -⟩
    · exact .inl ht
    · exact .inr hidle
    · exact absurd hzero h4
  have hreads := segment.readsAs s.node hl h
  rw [hs.handle hfaults, readRequest]
  generalize Request.ofMessage (segment.message .client s.node) = r at hreads
  cases hreads with
  | abort hends a code =>
    exact .inl ⟨rfl, .inr ⟨⟨hlike.node, hlike.faults⟩, .inl rfl, hends⟩⟩
  | nothing hends e => exact .inl ⟨rfl, .inl rfl⟩
  | upload hends h4 crc a blockSize threshold =>
    obtain ⟨q, hframes, hq, hspent⟩ := givesUp_initiateBlockUpload
      (s := s.during .idle (s.received + 1)) hfaults (hlike.during _ _) hends h4 crc a blockSize
      threshold
    dsimp only
    rw [hrequest (by simp [Request.kind])]
    exact .inr ⟨q, hframes, hq, .inl hspent⟩
  | @uploading hends h4 r hr =>
    have hkind : r.kind ≠ .abort := by
      rcases hr with rfl | rfl | ⟨n, b, rfl⟩ <;> simp [Request.kind]
    obtain ⟨q, hframes, hq, hspent⟩ := givesUp_uploading (k := s.received + 1) hlike hends
      (hstate h4) hr
    dsimp only
    rw [hrequest hkind]
    exact .inr ⟨q, hframes, hq, .inl hspent⟩
  | finish hends h4 n crc =>
    obtain ⟨q, hframes, hq, hspent⟩ := givesUp_finish (k := s.received + 1) hlike hends
      (hstate h4) n crc
    dsimp only
    rw [hrequest (by simp [Request.kind])]
    exact .inr ⟨q, hframes, hq, .inl hspent⟩
  | restart hr =>
    dsimp only
    rw [hrequest (by simp [Request.kind])]
    exact .inr ⟨_, rfl, .inr ⟨.of_plain trivial, by simp⟩, .inr ⟨hr, rfl⟩⟩

end Server
end Canopen
