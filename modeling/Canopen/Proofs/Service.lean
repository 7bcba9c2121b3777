import Canopen.Client.Block
import Canopen.Server
import Canopen.Proofs.Framing
import Canopen.Proofs.Segments

set_option autoImplicit false

namespace Canopen.Server

open Sdo

def during (s : Server) (state : State) (received : Nat) : Server := { s with state, received }

def store (s : Server) (a : Address) (object : List UInt8) : Server :=
  { s with objects := s.objects.set a object }

variable {s : Server} {switch : Bool} {k : Nat}

/-- Every message that is meant for the server is taken as it should be. -/
structure Faults.Attentive (f : Faults) : Prop where
  loud : f.silent = false
  awake : f.ignoreNext = 0
  willing : f.abortWith = none

theorem Faults.attentive_switching (switch : Bool) :
    Faults.Attentive { switchProtocol := switch } := ⟨rfl, rfl, rfl⟩

theorem handle_eq_read_of_attentive (hf : s.faults.Attentive) {state : State}
    {m : Can.Message} (hm : m.id = s.node.requestId) :
    (s.during state k).handle m = (s.during state (k + 1)).read m := by
  simp [handle, during, hm, hf.loud, hf.awake]

theorem handle_request_of_attentive (hf : s.faults.Attentive) {state : State}
    (hs : ∀ t, state ≠ .downloadBlock t) {r : Request} (hr : r.Regular) :
    (s.during state k).handle (r.message s.node) = (s.during state (k + 1)).proceed r := by
  have hr : (s.during state (k + 1)).readRequest (r.message s.node)
      = (s.during state (k + 1)).proceed r := by
    rw [readRequest, Request.ofMessage_message s.node hr.fits hr.tidy]
    cases r with
    | abort a code => exact absurd rfl hr.goes
    | _ => simp [request, during, hf.willing]
  rw [handle_eq_read_of_attentive hf (r.message_id s.node), ← hr]
  cases state with
  | downloadBlock t => exact absurd rfl (hs t)
  | _ => rfl

theorem handle_eq_read (hf : s.faults = { switchProtocol := switch }) {state : State}
    {m : Can.Message} (hm : m.id = s.node.requestId) :
    (s.during state k).handle m = (s.during state (k + 1)).read m :=
  handle_eq_read_of_attentive (hf ▸ Faults.attentive_switching switch) hm

theorem handle_request (hf : s.faults = { switchProtocol := switch }) {state : State}
    (hs : ∀ t, state ≠ .downloadBlock t) {r : Request} (hr : r.Regular) :
    (s.during state k).handle (r.message s.node) = (s.during state (k + 1)).proceed r :=
  handle_request_of_attentive (hf ▸ Faults.attentive_switching switch) hs hr

/-- What a server sends when a message comes in a state of its transfers, and what it is then. It
may report something. -/
def Responds (s : Server) (state : State) (m : Can.Message) (frames : List Can.Message)
    (s' : Server) (state' : State) : Prop :=
  ∀ k, ∃ rs, (s.during state k).handle m =
    { frames, effects := rs, device := s'.during state' (k + 1) }

theorem responds_of_proceed (hf : s.faults = { switchProtocol := switch }) {state state' : State}
    {s' : Server} (hs : ∀ t, state ≠ .downloadBlock t) {r : Request} (hr : r.Regular)
    {frames : List Can.Message}
    (h : ∀ k, (s.during state k).proceed r = { frames, device := s'.during state' k }) :
    s.Responds state (r.message s.node) frames s' state' := by
  intro k
  rw [handle_request hf hs hr, h]
  exact ⟨[], rfl⟩

theorem handle_segment (hf : s.faults = { switchProtocol := switch }) {t : BlockDownload}
    {segment : BlockSegment} (h0 : 0 < segment.seqno.toNat) (h : segment.seqno.toNat < 128) :
    (s.during (.downloadBlock t) k).handle (segment.message .client s.node)
      = (s.during (.downloadBlock t) (k + 1)).blockSegment t segment := by
  rw [handle_eq_read hf (segment.message_client_id s.node), read]
  simp only [during]
  rw [if_neg (segment.message_head_ne_abort .client s.node h0 h), readSegment,
    BlockSegment.ofMessage_message .client s.node h]

theorem objects_handle_abort (s : Server) (a : Address) (code : UInt32) (node : NodeId) :
    (s.handle ((Request.abort a code).message node)).device.objects = s.objects := by
  have hread : ∀ s : Server, (s.readRequest ((Request.abort a code).message node)).device.objects
      = s.objects := by
    intro s
    rw [readRequest, Request.ofMessage_message node (r := .abort a code) trivial trivial]
    rfl
  have hhead : ((Request.abort a code).message node).data.get 0 = 0x80 := by
    refine (Frame.build_payload_head .client node .abort (Request.abort a code).toBytes).trans ?_
    rfl
  unfold handle
  dsimp only
  split
  · split
    · rfl
    · split
      · rfl
      · rw [read]
        split
        · rw [if_pos hhead, hread]
        · rw [hread]
  · rfl

theorem proceed_expedited (hf : s.faults = { switchProtocol := switch }) {state : State}
    {a : Address} {object : List UInt8} (fits : object.length ≤ 4) :
    (s.during state k).proceed (Request.expedited a object fits) =
      { frames := [(Response.confirmDownload a).message s.node]
        device := (s.store a object).during .idle k } := by
  have hn := take_used fits (by decide)
  have hblank : s.faults.blankAddress = false := by rw [hf]
  show (s.during .idle k).initiateDownload _ true true a _ = _
  simp only [initiateDownload, during, hblank, hn, if_true, Bool.false_eq_true, if_false]
  rfl

theorem proceed_announce {state : State} {a : Address} {n : UInt32} :
    (s.during state k).proceed (Request.announce a (some n)) =
      { frames := [(Response.confirmDownload a).message s.node]
        device := s.during (.downloadSegmented a false 0 (some n.toNat) []) k } := by
  show (s.during .idle k).initiateDownload 0 false true a (bytesOfWord n) = _
  simp only [initiateDownload, wordOf_bytesOfWord, Bool.false_eq_true, if_false, if_true]
  rfl

theorem proceed_segment (hf : s.faults = { switchProtocol := switch }) {a : Address}
    {toggle last : Bool} {i : Nat} {size : Nat} {buffer bytes : List UInt8}
    (fits : bytes.length ≤ 7) (hl : last = true → size = (buffer ++ bytes).length) :
    (s.during (.downloadSegmented a toggle i (some size) buffer) k).proceed
        (Request.segment toggle last bytes fits) =
      { frames := [(Response.confirmDownloadSegment toggle).message s.node]
        device :=
          if last then (s.store a (buffer ++ bytes)).during .idle k
          else
            s.during (.downloadSegmented a (!toggle) (i + 1) (some size) (buffer ++ bytes))
              k } := by
  have hn := take_used fits (by decide)
  have hspoil : spoil toggle i s.faults.flipDownloadToggle = toggle := by simp [spoil, hf]
  show (s.during .idle k).downloadSegment a toggle i (some size) buffer toggle _ last _ = _
  simp only [downloadSegment, during, hn, hspoil, if_true]
  cases last with
  | true =>
    rw [hl rfl]
    simp only [Option.all_some, decide_true, if_true]
    rfl
  | false => rfl

theorem proceed_initiateBlockDownload {state : State} {a : Address} {crc : Bool} {n : UInt32} :
    (s.during state k).proceed (.initiateBlockDownload crc true a n) =
      { frames := [(Response.confirmBlockDownload s.crc a s.blockSize).message s.node]
        device := s.during (.downloadBlock
          { target := a, size := some n.toNat, crc := crc && s.crc, seqno := 0, buffer := [] })
          k } :=
  rfl

theorem proceed_endBlockDownload {t : BlockDownload} {unused : UInt8} {checksum : UInt16}
    {object : List UInt8}
    (hb : t.buffer.take (t.buffer.length - unused.toNat) = object)
    (hs : t.size = some object.length) (hc : t.crc = true → checksum = Canopen.crc object) :
    (s.during (.endDownloadBlock t) k).proceed (.endBlockDownload unused checksum) =
      { frames := [Response.confirmBlockDownloadEnd.message s.node]
        device := (s.store t.target object).during .idle k } := by
  have hc' : (t.crc && Canopen.crc object != checksum) = false := by
    cases h : t.crc with
    | true => simp [hc h]
    | false => rfl
  show (s.during .idle k).endBlockDownload t unused checksum = _
  simp only [during, endBlockDownload, hb, hc', hs, Option.all_some, decide_true, if_true]
  rfl

/-- The transfer after a segment that counts if it is the next one. -/
def BlockDownload.accept (t : BlockDownload) (segment : BlockSegment) : BlockDownload :=
  if segment.seqno.toNat = t.seqno.toNat + 1 then
    { t with seqno := segment.seqno, buffer := t.buffer ++ segment.data.toList }
  else t

theorem blockSegment_inner (hf : s.faults = { switchProtocol := switch }) {t : BlockDownload}
    {segment : BlockSegment} (hb : segment.seqno ≠ s.blockSize) (hl : segment.last = false) :
    (s.during (.downloadBlock t) k).blockSegment t segment =
      { device := s.during (.downloadBlock (t.accept segment)) k } := by
  have hlose : s.faults.loseDownloadSegment = none := by rw [hf]
  simp only [blockSegment, during, hlose, reduceCtorEq, if_false, BlockDownload.accept,
    decide_eq_true_eq]
  rw [if_pos ⟨hb, hl⟩]
  rfl

theorem blockSegment_last (hf : s.faults = { switchProtocol := switch }) {t : BlockDownload}
    {segment : BlockSegment} (he : segment.seqno = s.blockSize ∨ segment.last = true) :
    (s.during (.downloadBlock t) k).blockSegment t segment =
      { frames := [(Response.confirmBlock (t.accept segment).seqno s.blockSize).message s.node]
        device := s.during
          (if segment.seqno.toNat = t.seqno.toNat + 1 ∧ segment.last = true then
            .endDownloadBlock (t.accept segment)
          else if (t.accept segment).seqno = s.blockSize then
            .downloadBlock { t.accept segment with seqno := 0 }
          else .downloadBlock (t.accept segment)) k } := by
  have hlose : s.faults.loseDownloadSegment = none := by rw [hf]
  have he' : ¬(segment.seqno ≠ s.blockSize ∧ segment.last = false) := by
    intro hq
    obtain ⟨h1, h2⟩ := hq
    rcases he with h | h <;> simp_all
  simp only [blockSegment, during, hlose, reduceCtorEq, if_false, he', decide_eq_true_eq,
    Bool.and_eq_true]
  have hacc : (if segment.seqno.toNat = t.seqno.toNat + 1 then
      { t with seqno := segment.seqno, buffer := t.buffer ++ segment.data.toList } else t)
      = t.accept segment := rfl
  rw [hacc]
  split
  · rfl
  · split <;> rfl

theorem startUpload_small (hf : s.faults = { switchProtocol := switch }) {a : Address}
    {object : List UInt8} (h : 1 ≤ object.length ∧ object.length ≤ 4) :
    (s.during .idle k).startUpload a object =
      { frames := [(Response.expedited a object h.2).message s.node]
        device := s.during .idle k } := by
  have hsize : s.faults.announcedSize = none := by rw [hf]
  have h' : (1 ≤ object.length ∧ object.length ≤ 4) ∧
      (s.during .idle k).faults.announcedSize = none := ⟨h, hsize⟩
  rw [startUpload, dif_pos h']
  rfl

theorem startUpload_large (hf : s.faults = { switchProtocol := switch }) {a : Address}
    {object : List UInt8} (h : ¬(1 ≤ object.length ∧ object.length ≤ 4)) :
    (s.during .idle k).startUpload a object =
      { frames := [(Response.announce a (some (UInt32.ofNat object.length))).message s.node]
        device := s.during (.uploadSegmented a false 0 object) k } := by
  have hsize : s.faults.announcedSize = none := by rw [hf]
  rw [startUpload, dif_neg (fun h' => h h'.1)]
  simp only [announcement, during, hsize]
  rfl

theorem proceed_initiateUpload {state : State} {a : Address} {object : List UInt8}
    (h : s.objects.get? a = some object) :
    (s.during state k).proceed (.initiateUpload a) = (s.during .idle k).startUpload a object := by
  show (s.during .idle k).initiateUpload a = _
  simp only [initiateUpload, during, h]

theorem proceed_initiateUpload_missing {state : State} {a : Address} (h : s.objects.get? a = none) :
    (s.during state k).proceed (.initiateUpload a) = (s.during .idle k).refuse a .noSuchObject := by
  show (s.during .idle k).initiateUpload a = _
  simp only [initiateUpload, during, h]

theorem proceed_uploadSegment (hf : s.faults = { switchProtocol := switch }) {a : Address}
    {toggle : Bool} {i : Nat} {object : List UInt8} :
    (s.during (.uploadSegmented a toggle i object) k).proceed (.uploadSegment toggle) =
      { frames := [(Response.segment toggle (object.length ≤ (i + 1) * segmentSize)
          (segmentBytes object i) (segmentBytes_length_le object i)).message s.node]
        device := s.during (if object.length ≤ (i + 1) * segmentSize then .idle
          else .uploadSegmented a (!toggle) (i + 1) object) k } := by
  have hspoil : spoil toggle i s.faults.flipUploadToggle = toggle := by simp [spoil, hf]
  show (s.during .idle k).uploadSegment a toggle i object toggle = _
  simp only [uploadSegment, during, hspoil, if_true, decide_eq_true_eq]
  split <;> rfl

theorem not_invalid {blockSize : UInt8} (h : 0 < blockSize.toNat ∧ blockSize.toNat ≤ 127) :
    ¬(blockSize = 0 ∨ 127 < blockSize) := by
  intro hq
  rcases hq with rfl | hlt
  · exact absurd h.1 (by decide)
  · exact absurd h.2 (Nat.not_le.mpr (UInt8.lt_iff_toNat_lt.mp hlt))

theorem proceed_initiateBlockUpload (hf : s.faults = { switchProtocol := switch }) {state : State}
    {a : Address} {object : List UInt8} {crc : Bool} {blockSize threshold : UInt8}
    (h : s.objects.get? a = some object) (hb : 0 < blockSize.toNat ∧ blockSize.toNat ≤ 127)
    (hw : ¬(switch = true ∧ object.length ≤ threshold.toNat)) :
    (s.during state k).proceed (.initiateBlockUpload crc a blockSize threshold) =
      { frames := [(Response.announceBlocks s.crc a (some (UInt32.ofNat object.length))).message
          s.node]
        device := s.during (.uploadBlockInitiated
          { target := a, crc := crc && s.crc, blockSize, start := 0, data := object }) k } := by
  have hsize : s.faults.announcedSize = none := by rw [hf]
  have hsw : ¬(s.faults.switchProtocol = true ∧ object.length ≤ threshold.toNat) := by
    rw [hf]
    exact hw
  show (s.during .idle k).initiateBlockUpload crc a blockSize threshold = _
  simp only [initiateBlockUpload, during, h, if_neg hsw, if_neg (not_invalid hb), announcement,
    hsize]
  rfl

theorem proceed_initiateBlockUpload_switched (hf : s.faults = { switchProtocol := true })
    {state : State} {a : Address} {object : List UInt8} {crc : Bool} {blockSize threshold : UInt8}
    (h : s.objects.get? a = some object) (hw : object.length ≤ threshold.toNat) :
    (s.during state k).proceed (.initiateBlockUpload crc a blockSize threshold) =
      (s.during .idle k).startUpload a object := by
  have hsw : s.faults.switchProtocol = true ∧ object.length ≤ threshold.toNat := by
    rw [hf]
    exact ⟨rfl, hw⟩
  show (s.during .idle k).initiateBlockUpload crc a blockSize threshold = _
  simp only [initiateBlockUpload, during, h]
  exact if_pos hsw

theorem proceed_initiateBlockUpload_missing {state : State} {a : Address} {crc : Bool}
    {blockSize threshold : UInt8} (h : s.objects.get? a = none) :
    (s.during state k).proceed (.initiateBlockUpload crc a blockSize threshold) =
      (s.during .idle k).refuse a .noSuchObject := by
  show (s.during .idle k).initiateBlockUpload crc a blockSize threshold = _
  simp only [initiateBlockUpload, during, h]

def BlockUpload.frames (t : BlockUpload) (node : NodeId) (first : Nat) : List Can.Message :=
  (List.range' first (t.length + 1 - first)).map fun n =>
    (Client.blockSegment t.data (t.start + n - 1) (UInt8.ofNat n)).message .server node

theorem sendBlock_eq (hf : s.faults = { switchProtocol := switch }) (state : State)
    {t : BlockUpload} {first : Nat} :
    (s.during state k).sendBlock t first =
      { frames := t.frames s.node first, device := s.during (.uploadBlock t) k } := by
  have hlose : s.faults.loseUploadSegment = none := by rw [hf]
  have hinv : s.faults.invertUploadByte = none := by rw [hf]
  have hseg : ∀ n, (s.during state k).blockUploadSegment t n =
      some ((Client.blockSegment t.data (t.start + n - 1) (UInt8.ofNat n)).message .server
        s.node) := by
    intro n
    simp only [blockUploadSegment, during, hlose, hinv, reduceCtorEq, if_false]
    rfl
  simp only [sendBlock, funext hseg, List.filterMap_eq_map']
  simp [during, hlose, BlockUpload.frames]

theorem proceed_startBlockUpload_initiated (hf : s.faults = { switchProtocol := switch })
    {t : BlockUpload} :
    (s.during (.uploadBlockInitiated t) k).proceed .startBlockUpload =
      { frames := t.frames s.node 1, device := s.during (.uploadBlock t) k } :=
  sendBlock_eq hf .idle

theorem proceed_startBlockUpload (hf : s.faults = { switchProtocol := switch })
    {t : BlockUpload} :
    (s.during (.uploadBlock t) k).proceed .startBlockUpload =
      { frames := t.frames s.node 1, device := s.during (.uploadBlock t) k } :=
  sendBlock_eq hf .idle

theorem proceed_confirmBlock {t : BlockUpload} {seqno blockSize : UInt8} :
    (s.during (.uploadBlock t) k).proceed (.confirmBlock seqno blockSize) =
      (s.during .idle k).confirmBlock t seqno blockSize := rfl

theorem confirmBlock_part (hf : s.faults = { switchProtocol := switch })
    {t : BlockUpload} {seqno blockSize : UInt8} (h : seqno.toNat < t.length) :
    (s.during .idle k).confirmBlock t seqno blockSize =
      { frames := t.frames s.node (seqno.toNat + 1), device := s.during (.uploadBlock t) k } := by
  rw [confirmBlock, if_neg (by omega), if_pos h, sendBlock_eq hf .idle]

def BlockUpload.next (t : BlockUpload) (blockSize : UInt8) : BlockUpload :=
  { t with start := t.start + t.length, blockSize }

theorem confirmBlock_whole (hf : s.faults = { switchProtocol := switch })
    {t : BlockUpload} {seqno blockSize : UInt8} (h : seqno.toNat = t.length)
    (hb : 0 < blockSize.toNat ∧ blockSize.toNat ≤ 127) :
    (s.during .idle k).confirmBlock t seqno blockSize =
      if t.start + t.length < segmentCount t.data then
        { frames := (t.next blockSize).frames s.node 1
          device := s.during (.uploadBlock (t.next blockSize)) k }
      else
        { frames := [(Response.endBlockUpload
            (UInt8.ofNat (segmentCount t.data * segmentSize - t.data.length))
            (if t.crc then Canopen.crc t.data else 0)).message s.node]
          device := s.during .endUploadBlock k } := by
  have hcrc : s.faults.invertCrc = false := by rw [hf]
  rw [confirmBlock, if_neg (by omega), if_neg (by omega), if_neg (not_invalid hb)]
  by_cases hn : t.start + t.length < segmentCount t.data
  · rw [if_pos hn, if_pos hn]
    exact sendBlock_eq hf .idle
  · rw [if_neg hn, if_neg hn]
    simp only [during, hcrc, Bool.false_eq_true, if_false]
    rfl

end Canopen.Server
