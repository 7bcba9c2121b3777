import Canopen.Proofs.BlockUpload
import Canopen.Proofs.Lossy

/-!
Blocks on a line that loses frames of both sides. An acknowledgement that is sent again may be
taken for that of the next block, which then never comes. The client is left behind, and finds
that out by the size in the end.
-/

set_option autoImplicit false

namespace Canopen

open Can (Message)
open Sdo

namespace Sdo

variable {object buffer : List UInt8} {k k' : Nat}

theorem Request.regular_confirmBlock (seqno blockSize : UInt8) :
    (confirmBlock seqno blockSize).Regular := .of_plain trivial

theorem Response.message_head (r : Response) (node : NodeId) :
    (r.message node).data.get 0 = r.toBytes.get 0 :=
  Frame.build_payload_head .server node r.transferType r.toBytes

theorem Response.abort_head (a : Address) (code : UInt32) (node : NodeId) :
    ((abort a code).message node).data.get 0 &&& 0x7f ≠ 1 := by
  rw [message_head, toBytes, addressed_head]
  decide

theorem Response.endBlockUpload_head (unused : UInt8) (checksum : UInt16) (node : NodeId) :
    ((endBlockUpload unused checksum).message node).data.get 0 &&& 0x7f ≠ 1 := by
  have hall : command .blockUpload ((unused &&& 7) <<< 2 ||| 1) &&& 0x7f ≠ 1 := by
    refine UInt8.forall_of_lt unused unused.toNat_lt ?_
    decide +kernel
  rw [message_head, toBytes, get_padTo]
  exact hall

/-- What was received where there should be `k` segments: these, or fewer bytes. -/
def Behind (object buffer : List UInt8) (k : Nat) : Prop :=
  buffer.length ≤ k * segmentSize ∧ (buffer.length = k * segmentSize → buffer = filled object k)

theorem behind_nil (object : List UInt8) (k : Nat) : Behind object [] k := by
  refine ⟨Nat.zero_le _, fun h => ?_⟩
  have hk : k = 0 := by
    rw [List.length_nil, segmentSize] at h
    omega
  rw [hk, filled_zero]

theorem Behind.accept (h : Behind object buffer k) :
    Behind object (buffer ++ (padTo 7 (segmentBytes object k)).toList) (k + 1) := by
  obtain ⟨hle, heq⟩ := h
  have hlength : (buffer ++ (padTo 7 (segmentBytes object k)).toList).length
      = buffer.length + 7 := by
    rw [List.length_append, Vector.length_toList]
  simp only [Behind, hlength, segmentSize] at hle heq ⊢
  refine ⟨by omega, fun h => ?_⟩
  rw [heq (by omega), filled_succ]

theorem Behind.skip (h : Behind object buffer k) (hk : k < k') : Behind object buffer k' := by
  obtain ⟨hle, -⟩ := h
  simp only [Behind, segmentSize] at hle ⊢
  exact ⟨by omega, by omega⟩

/-- A client that is left behind does not come to the size of the object. -/
theorem Behind.complete (h : Behind object buffer (segmentCount object))
    (hpos : segmentSize ≤ buffer.length)
    (hsize : ∀ n, object.length = n + 1 →
      object.length = (buffer.take (buffer.length
        - (segmentCount object * segmentSize - object.length))).length) :
    buffer.take (buffer.length - (segmentCount object * segmentSize - object.length)) = object := by
  obtain ⟨hle, heq⟩ := h
  have hspec := segmentCount_spec object
  have hfull : buffer.length = segmentCount object * segmentSize := by
    cases hn : object.length with
    | zero =>
      have hone : segmentCount object = 1 := by
        rw [segmentCount, hn]
        rfl
      rw [hone] at hle ⊢
      omega
    | succ n =>
      have hsize' := hsize n hn
      rw [List.length_take] at hsize'
      omega
  rw [heq hfull]
  exact take_filled_sub_unused object

end Sdo

namespace Server

variable {s : Server} {switch : Bool} {t : BlockUpload} {seqno blockSize : UInt8}

theorem BlockUpload.sublist_frames {node : NodeId} {j : Nat} {m : Message} {rest : List Message}
    (h : (m :: rest).Sublist (t.frames node (j + 1))) :
    ∃ i, i < t.length ∧
      m = (Client.blockSegment t.data (t.start + i) (UInt8.ofNat (i + 1))).message .server node ∧
      rest.Sublist (t.frames node (i + 2)) := by
  induction hd : t.length - j generalizing j with
  | zero =>
    rw [t.frames_eq_nil node (by omega)] at h
    cases h
  | succ d ih =>
    rw [t.frames_eq_cons node (by omega)] at h
    cases h with
    | cons _ h => exact ih h (by omega)
    | cons_cons _ h => exact ⟨j, by omega, rfl, h⟩

theorem BlockUpload.sublist_end {node : NodeId} {i : Nat} {rest : List Message}
    (hi : i + 1 = t.length) (h : rest.Sublist (t.frames node (i + 2))) : rest = [] := by
  rw [t.frames_eq_nil node (Nat.le_of_eq hi.symm)] at h
  exact List.sublist_nil.mp h

section
variable (hf : s.faults = { switchProtocol := switch })
include hf

theorem reacts_confirmBlock_part (h : seqno.toNat < t.length) :
    s.Reacts (.uploadBlock t) ((Request.confirmBlock seqno blockSize).message s.node)
      (t.frames s.node (seqno.toNat + 1)) (.uploadBlock t) :=
  responds_of_proceed hf (by simp) (Request.regular_confirmBlock _ _)
    fun _ => confirmBlock_part hf h

theorem reacts_confirmBlock_more (h : seqno.toNat = t.length)
    (hb : 0 < blockSize.toNat ∧ blockSize.toNat ≤ 127)
    (hmore : t.start + t.length < segmentCount t.data) :
    s.Reacts (.uploadBlock t) ((Request.confirmBlock seqno blockSize).message s.node)
      ((t.next blockSize).frames s.node 1) (.uploadBlock (t.next blockSize)) :=
  responds_of_proceed hf (by simp) (Request.regular_confirmBlock _ _)
    fun _ => (confirmBlock_whole hf h hb).trans (if_pos hmore)

theorem reacts_confirmBlock_last (h : seqno.toNat = t.length)
    (hb : 0 < blockSize.toNat ∧ blockSize.toNat ≤ 127)
    (hlast : ¬t.start + t.length < segmentCount t.data) :
    s.Reacts (.uploadBlock t) ((Request.confirmBlock seqno blockSize).message s.node)
      [(Response.endBlockUpload (UInt8.ofNat (segmentCount t.data * segmentSize - t.data.length))
        (if t.crc then Canopen.crc t.data else 0)).message s.node] .endUploadBlock :=
  responds_of_proceed hf (by simp) (Request.regular_confirmBlock _ _)
    fun _ => (confirmBlock_whole hf h hb).trans (if_neg hlast)

theorem refuses_confirmBlock_beyond (h : t.length < seqno.toNat) :
    s.Refuses (.uploadBlock t) ((Request.confirmBlock seqno blockSize).message s.node) := by
  have hproceed : ∀ k, (s.during (.uploadBlock t) k).proceed (.confirmBlock seqno blockSize) =
      (s.during .idle k).refuse t.target .invalidSequenceNumber := by
    intro k
    rw [proceed_confirmBlock, confirmBlock, if_pos h]
  exact refuses_of_proceed hf (by simp) (.of_plain trivial)
    fun k => ⟨[], hproceed k⟩

theorem refuses_confirmBlock_over {state : State} (h : state = .idle ∨ state = .endUploadBlock) :
    s.Refuses state ((Request.confirmBlock seqno blockSize).message s.node) := by
  rcases h with rfl | rfl
  · exact refuses_of_proceed hf (by simp) (.of_plain trivial)
      fun _ => ⟨_, rfl⟩
  · exact refuses_of_proceed hf (by simp) (.of_plain trivial)
      fun _ => ⟨_, rfl⟩

end
end Server

namespace Client.Call

open Transfer

def block (c : Call Line) (crc : Bool) (object : List UInt8) (start : Nat) : Server.BlockUpload :=
  .blockAt c.target crc c.config.blockSize object start

/-- How far apart client and server may be while blocks are received: a line, what the client has
received of a block and in all, and what it sends when the deadline passes. -/
inductive Receiving (c : Call Line) (srv : Server) (crc : Bool) (object : List UInt8) :
    Line → UInt8 → List UInt8 → Request → Prop
  | waiting {w : Line} (hs : w.Rests srv (.uploadBlockInitiated (c.block crc object 0))) :
    Receiving c srv crc object w 0 [] .startBlockUpload
  | amid {w : Line} {seqno : UInt8} {buffer : List UInt8} {request : Request} (start j : Nat)
    (hstart : start < segmentCount object)
    (hserver : ∃ k, w.server = srv.during (.uploadBlock (c.block crc object start)) k)
    (hinbox : w.inbox.Sublist ((c.block crc object start).frames c.node (j + 1)))
    (hseqno : seqno.toNat < (c.block crc object start).length)
    (hbehind : Behind object buffer (start + seqno.toNat))
    (hleast : seqno.toNat * segmentSize ≤ buffer.length)
    (hrequest : request = .startBlockUpload ∨ ∃ y, request = c.acknowledgement y) :
    Receiving c srv crc object w seqno buffer request
  | between {w : Line} {buffer : List UInt8} (start : Nat)
    (hmore : start + c.config.blockSize.toNat < segmentCount object)
    (hs : w.Rests srv (.uploadBlock (c.block crc object start)))
    (hbehind : Behind object buffer (start + c.config.blockSize.toNat)) :
    Receiving c srv crc object w 0 buffer (c.acknowledgement c.config.blockSize)
  /-- The server has no more segments to send. Nothing it has sent is read as a first segment. -/
  | complete {w : Line} {buffer : List UInt8} {y : UInt8} {state : Server.State}
    (hstate : state = .idle ∨ state = .endUploadBlock)
    (hserver : ∃ k, w.server = srv.during state k)
    (hinbox : ∀ m ∈ w.inbox, m.id = c.node.responseId ∧ m.data.get 0 &&& 0x7f ≠ 1) :
    Receiving c srv crc object w 0 buffer (c.acknowledgement y)

variable {x : Losses} {c : Call Line} {srv : Server} {crc : Bool} {object : List UInt8}
variable {w : Line} {seqno : UInt8} {buffer : List UInt8} {request : Request} {start : Nat}

theorem length_block : (c.block crc object start).length
    = min c.config.blockSize.toNat (segmentCount object - start) := rfl

theorem length_block_pos (h : c.Exposed x srv) (hstart : start < segmentCount object) :
    0 < (c.block crc object start).length := by
  have hpos := h.blockSize.1
  rw [length_block]
  omega

namespace Receiving

theorem later (hr : Receiving c srv crc object w seqno buffer request) (now : Nat)
    (warnings : List Record) :
    Receiving c srv crc object { w with now, warnings } seqno buffer request := by
  cases hr with
  | waiting hs => exact .waiting hs
  | amid start j hstart hserver hinbox hseqno hbehind hleast hrequest =>
    exact .amid start j hstart hserver hinbox hseqno hbehind hleast hrequest
  | between start hmore hs hbehind => exact .between start hmore hs hbehind
  | complete hstate hserver hinbox => exact .complete hstate hserver hinbox

theorem send_over {state state' : Server.State} {m : Message} {q : Response} {k : Nat}
    (hk : w.server = srv.during state k) (hinbox : ∀ a ∈ w.inbox, a.id = c.node.responseId ∧
      a.data.get 0 &&& 0x7f ≠ 1)
    (hreacts : srv.Reacts state m [q.message c.node] state')
    (hstate : state' = .idle ∨ state' = .endUploadBlock)
    (hhead : (q.message c.node).data.get 0 &&& 0x7f ≠ 1) (y : UInt8) :
    ((w.send x m).inbox = w.inbox ∧ ∃ j, (w.send x m).server = srv.during state j) ∨
      Receiving c srv crc object (w.send x m) 0 buffer (c.acknowledgement y) := by
  rcases Line.send_cases hk hreacts with hlost | ⟨ms, hms, hi, hk'⟩
  · exact .inl hlost
  · refine .inr (.complete hstate hk' fun a ha => ?_)
    rw [hi, List.mem_append] at ha
    rcases ha with ha | ha
    · exact hinbox a ha
    · rw [List.mem_singleton.mp (hms.subset ha)]
      exact ⟨q.message_id c.node, hhead⟩

section
variable (h : c.Exposed x srv)
include h

theorem confirm_part (hstart : start < segmentCount object)
    (hs : w.Rests srv (.uploadBlock (c.block crc object start))) {y : UInt8}
    (hy : y.toNat < (c.block crc object start).length)
    (hseqno : seqno.toNat < (c.block crc object start).length)
    (hbehind : Behind object buffer (start + seqno.toNat))
    (hleast : seqno.toNat * segmentSize ≤ buffer.length) :
    Receiving c srv crc object (w.send x ((c.acknowledgement y).message c.node)) seqno buffer
      (c.acknowledgement y) := by
  obtain ⟨hi, k, hk⟩ := hs
  have hreacts : srv.Reacts _ ((c.acknowledgement y).message srv.node) _ _ :=
    Server.reacts_confirmBlock_part h.faults hy
  rw [← h.node] at hreacts
  rcases Line.send_cases hk hreacts with ⟨hi', hk'⟩ | ⟨ms, hms, hi', hk'⟩
  · refine .amid start 0 hstart hk' ?_ hseqno hbehind hleast (.inr ⟨y, rfl⟩)
    rw [hi', hi]
    exact List.nil_sublist _
  · refine .amid start y.toNat hstart hk' ?_ hseqno hbehind hleast (.inr ⟨y, rfl⟩)
    rw [hi', hi, List.nil_append]
    exact hms

theorem confirm_whole (hs : w.Rests srv (.uploadBlock (c.block crc object start))) {y : UInt8}
    (hy : y.toNat = (c.block crc object start).length)
    (hmore : start + (c.block crc object start).length < segmentCount object) :
    let next := c.block crc object (start + (c.block crc object start).length)
    let w' := w.send x ((c.acknowledgement y).message c.node)
    w'.Rests srv (.uploadBlock (c.block crc object start)) ∨
      (∃ k, w'.server = srv.during (.uploadBlock next) k) ∧
        w'.inbox.Sublist (next.frames c.node 1) := by
  obtain ⟨hi, k, hk⟩ := hs
  have hreacts : srv.Reacts _ ((c.acknowledgement y).message srv.node) _ _ :=
    Server.reacts_confirmBlock_more h.faults hy h.blockSize hmore
  rw [← h.node] at hreacts
  rcases Line.send_cases hk hreacts with ⟨hi', hk'⟩ | ⟨ms, hms, hi', hk'⟩
  · exact .inl ⟨hi'.trans hi, hk'⟩
  · rw [hi, List.nil_append] at hi'
    exact .inr ⟨hk', hi'.symm ▸ hms⟩

theorem next_block (hmore : start + c.config.blockSize.toNat < segmentCount object)
    (hs : w.Rests srv (.uploadBlock (c.block crc object start)))
    (hbehind : Behind object buffer (start + c.config.blockSize.toNat)) :
    Receiving c srv crc object
      (w.send x ((c.acknowledgement c.config.blockSize).message c.node)) 0 buffer
      (c.acknowledgement c.config.blockSize) := by
  have hlength : (c.block crc object start).length = c.config.blockSize.toNat := by
    rw [length_block]
    omega
  rcases confirm_whole h hs hlength.symm (by omega) with hs' | ⟨hserver, hinbox⟩
  · exact .between start hmore hs' hbehind
  · rw [hlength] at hserver hinbox
    exact .amid _ 0 hmore hserver hinbox (length_block_pos h hmore) hbehind (Nat.zero_le _)
      (.inr ⟨_, rfl⟩)

theorem confirm_over {state : Server.State} (hstate : state = .idle ∨ state = .endUploadBlock)
    (hserver : ∃ k, w.server = srv.during state k)
    (hinbox : ∀ m ∈ w.inbox, m.id = c.node.responseId ∧ m.data.get 0 &&& 0x7f ≠ 1) (y : UInt8) :
    Receiving c srv crc object (w.send x ((c.acknowledgement y).message c.node)) 0 buffer
      (c.acknowledgement y) := by
  obtain ⟨k, hk⟩ := hserver
  obtain ⟨a, code, hreacts⟩ : srv.Refuses state ((c.acknowledgement y).message srv.node) :=
    Server.refuses_confirmBlock_over h.faults hstate
  rw [← h.node] at hreacts
  rcases send_over hk hinbox hreacts (.inl rfl) (Response.abort_head a code c.node) y with
    ⟨hi, hk'⟩ | hover
  · exact .complete hstate hk' (hi.symm ▸ hinbox)
  · exact hover

theorem confirm_beyond (hs : w.Rests srv (.uploadBlock (c.block crc object start))) {y : UInt8}
    (hy : (c.block crc object start).length < y.toNat ∨
      y.toNat = (c.block crc object start).length ∧
        ¬start + (c.block crc object start).length < segmentCount object) :
    let w' := w.send x ((c.acknowledgement y).message c.node)
    w'.Rests srv (.uploadBlock (c.block crc object start)) ∨
      Receiving c srv crc object w' 0 buffer (c.acknowledgement y) := by
  obtain ⟨hi, k, hk⟩ := hs
  have hinbox : ∀ m ∈ w.inbox, m.id = c.node.responseId ∧ m.data.get 0 &&& 0x7f ≠ 1 := by
    simp [hi]
  rcases hy with hlt | ⟨heq, hlast⟩
  · obtain ⟨a, code, hreacts⟩ : srv.Refuses _ ((c.acknowledgement y).message srv.node) :=
      Server.refuses_confirmBlock_beyond h.faults hlt
    rw [← h.node] at hreacts
    exact (send_over hk hinbox hreacts (.inl rfl) (Response.abort_head a code c.node) y).imp_left
      fun hs' => ⟨hs'.1.trans hi, hs'.2⟩
  · have hreacts : srv.Reacts _ ((c.acknowledgement y).message srv.node) _ _ :=
      Server.reacts_confirmBlock_last h.faults heq h.blockSize hlast
    rw [← h.node] at hreacts
    exact (send_over hk hinbox hreacts (.inr rfl) (Response.endBlockUpload_head _ _ c.node)
      y).imp_left fun hs' => ⟨hs'.1.trans hi, hs'.2⟩

theorem start_again {state : Server.State} {k : Nat} (hstart : start < segmentCount object)
    (hi : w.inbox = []) (hk : w.server = srv.during state k)
    (hproceed : ∀ k, (srv.during state k).proceed .startBlockUpload =
      { frames := (c.block crc object start).frames srv.node 1
        device := srv.during (.uploadBlock (c.block crc object start)) k })
    (hstate : ∀ t, state ≠ .downloadBlock t) (hbehind : Behind object buffer start) :
    let w' := w.send x (Request.startBlockUpload.message c.node)
    w'.Rests srv state ∨ Receiving c srv crc object w' 0 buffer .startBlockUpload := by
  have hreacts := Server.responds_of_proceed h.faults hstate (r := .startBlockUpload)
    (.of_plain trivial) hproceed
  rw [← h.node] at hreacts
  rcases Line.send_cases hk hreacts with ⟨hi', hk'⟩ | ⟨ms, hms, hi', hk'⟩
  · exact .inl ⟨hi'.trans hi, hk'⟩
  · rw [hi, List.nil_append] at hi'
    exact .inr (.amid start 0 hstart hk' (hi'.symm ▸ hms) (length_block_pos h hstart) hbehind
      (Nat.zero_le _) (.inl rfl))

/-- What is sent when nothing comes keeps the two as close as they can be. -/
theorem timed_out (hr : Receiving c srv crc object w seqno buffer request)
    (hi : w.inbox = []) :
    let request' := if 0 < seqno then c.acknowledgement seqno else request
    Receiving c srv crc object (w.send x (request'.message c.node)) seqno buffer request' := by
  cases hr with
  | waiting hs =>
    obtain ⟨-, k, hk⟩ := hs
    rcases start_again h (segmentCount_pos object) hi hk
      (fun _ => Server.proceed_startBlockUpload_initiated h.faults) (by simp)
      (behind_nil object 0) with hs | hr
    · exact .waiting hs
    · exact hr
  | amid start j hstart hserver hinbox hseqno hbehind hleast hrequest =>
    have hs : w.Rests srv (.uploadBlock (c.block crc object start)) := ⟨hi, hserver⟩
    -- What has come of the block is acknowledged, if anything has.
    by_cases hx : 0 < seqno
    · simp only [if_pos hx]
      exact confirm_part h hstart hs hseqno hseqno hbehind hleast
    · have hzero : seqno = 0 := by
        refine UInt8.toNat_inj.mp (Nat.eq_zero_of_not_pos fun hlt => hx ?_)
        exact UInt8.lt_iff_toNat_lt.mpr hlt
      subst hzero
      have same : ∀ {w' : Line} {request' : Request},
          w'.Rests srv (.uploadBlock (c.block crc object start)) →
          (request' = .startBlockUpload ∨ ∃ y, request' = c.acknowledgement y) →
          Receiving c srv crc object w' 0 buffer request' := by
        intro w' request' hq hrequest'
        obtain ⟨hi', hk'⟩ := hq
        exact .amid start 0 hstart hk' (hi'.symm ▸ List.nil_sublist _) hseqno hbehind hleast
          hrequest'
      simp only [if_neg hx]
      rcases hrequest with rfl | ⟨y, rfl⟩
      · obtain ⟨k, hk⟩ := hserver
        rcases start_again h hstart hi hk (fun _ => Server.proceed_startBlockUpload h.faults)
          (by simp) hbehind with hs' | hr
        · exact same hs' (.inl rfl)
        · exact hr
      · -- The acknowledgement of the block before may be taken for that of this one.
        by_cases hpart : y.toNat < (c.block crc object start).length
        · exact confirm_part h hstart hs hpart hseqno hbehind hleast
        · by_cases hwhole : y.toNat = (c.block crc object start).length ∧
              start + (c.block crc object start).length < segmentCount object
          · rcases confirm_whole h hs hwhole.1 hwhole.2 with hs' | ⟨hserver', hinbox'⟩
            · exact same hs' (.inr ⟨y, rfl⟩)
            · have hskip : start < start + (c.block crc object start).length :=
                Nat.lt_add_of_pos_right hseqno
              exact .amid _ 0 hwhole.2 hserver' hinbox' (length_block_pos h hwhole.2)
                (hbehind.skip hskip) hleast (.inr ⟨y, rfl⟩)
          · rcases confirm_beyond h hs (y := y) (by omega) with hs' | hr
            · exact same hs' (.inr ⟨y, rfl⟩)
            · exact hr
  | between start hmore hs hbehind => exact next_block h hmore hs hbehind
  | complete hstate hserver hinbox => exact confirm_over h hstate hserver hinbox _

end
end Receiving

end Client.Call
end Canopen
