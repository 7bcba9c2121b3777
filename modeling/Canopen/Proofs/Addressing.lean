import Canopen.Proofs.Framing
import Canopen.Server

set_option autoImplicit false

namespace Canopen.Server

open Can (Message)
open Sdo

/-- What a message that is seen does not change. -/
structure Standing where
  node : NodeId
  blockSize : UInt8
  silent : Bool
  ignoreNext : Nat

def standing (s : Server) : Standing :=
  { node := s.node, blockSize := s.blockSize, silent := s.faults.silent
    ignoreNext := s.faults.ignoreNext }

def Answer.From (standing : Standing) (r : Answer) : Prop :=
  r.device.standing = standing ∧ ∀ m ∈ r.frames, m.id = standing.node.responseId

variable (s : Server)

theorem quiet_from : s.quiet.From s.standing := ⟨rfl, by simp [quiet]⟩

theorem report_from (text : String) : (s.report text).From s.standing := ⟨rfl, by simp [report]⟩

theorem answer_from (r : Response) : (s.answer r).From s.standing := by
  refine ⟨rfl, fun m hm => ?_⟩
  rw [List.mem_singleton.mp hm]
  exact r.message_id s.node

theorem refuse_from (a : Address) (code : AbortCode) : (s.refuse a code).From s.standing :=
  answer_from { s with state := .idle } _

theorem initiateDownload_from (unused : UInt8) (expedited sized : Bool) (a : Address)
    (data : Vector UInt8 4) :
    (s.initiateDownload unused expedited sized a data).From s.standing := by
  unfold initiateDownload
  split
  · exact answer_from _ _
  · exact answer_from _ _

theorem startUpload_from (a : Address) (data : List UInt8) :
    (s.startUpload a data).From s.standing := by
  unfold startUpload
  split
  · exact answer_from _ _
  · exact answer_from _ _

theorem initiateUpload_from (a : Address) : (s.initiateUpload a).From s.standing := by
  unfold initiateUpload
  split
  · exact startUpload_from _ _ _
  · exact refuse_from _ _ _

theorem downloadSegment_from (a : Address) (expected : Bool) (segment : Nat) (size : Option Nat)
    (buffer : List UInt8) (toggle : Bool) (unused : UInt8) (last : Bool) (data : Vector UInt8 7) :
    (s.downloadSegment a expected segment size buffer toggle unused last data).From s.standing := by
  unfold downloadSegment
  split
  · dsimp only
    split
    · split
      · exact answer_from _ _
      · exact refuse_from _ _ _
    · exact answer_from _ _
  · exact refuse_from _ _ _

theorem uploadSegment_from (a : Address) (expected : Bool) (segment : Nat) (data : List UInt8)
    (toggle : Bool) : (s.uploadSegment a expected segment data toggle).From s.standing := by
  unfold uploadSegment
  split
  · dsimp only
    split
    · exact answer_from _ _
    · exact answer_from _ _
  · exact refuse_from _ _ _

theorem blockSegment_from (t : BlockDownload) (segment : BlockSegment) :
    (s.blockSegment t segment).From s.standing := by
  unfold blockSegment
  split
  · exact quiet_from _
  · dsimp only
    split
    · exact quiet_from _
    · split
      · exact answer_from _ _
      · exact answer_from _ _

theorem endBlockDownload_from (t : BlockDownload) (unused : UInt8) (checksum : UInt16) :
    (s.endBlockDownload t unused checksum).From s.standing := by
  unfold endBlockDownload
  dsimp only
  split
  · exact refuse_from _ _ _
  · split
    · exact answer_from _ _
    · exact refuse_from _ _ _

theorem initiateBlockUpload_from (crc : Bool) (a : Address) (blockSize threshold : UInt8) :
    (s.initiateBlockUpload crc a blockSize threshold).From s.standing := by
  unfold initiateBlockUpload
  split
  · exact refuse_from _ _ _
  · split
    · exact startUpload_from _ _ _
    · split
      · exact refuse_from _ _ _
      · exact answer_from _ _

theorem sendBlock_from (t : BlockUpload) (first : Nat) : (s.sendBlock t first).From s.standing := by
  have hstanding : (s.sendBlock t first).device.standing = s.standing := by
    simp only [sendBlock, standing]
    split <;> rfl
  refine ⟨hstanding, fun m hm => ?_⟩
  obtain ⟨n, -, hn⟩ := List.mem_filterMap.mp hm
  unfold blockUploadSegment at hn
  dsimp only at hn
  split at hn
  · cases hn
  · rw [← Option.some.inj hn]
    exact BlockSegment.message_server_id _ _

theorem confirmBlock_from (t : BlockUpload) (seqno blockSize : UInt8) :
    (s.confirmBlock t seqno blockSize).From s.standing := by
  unfold confirmBlock
  split
  · exact refuse_from _ _ _
  · split
    · exact sendBlock_from _ _ _
    · split
      · exact refuse_from _ _ _
      · dsimp only
        split
        · exact sendBlock_from _ _ _
        · exact answer_from _ _

theorem proceed_from (r : Request) : (s.proceed r).From s.standing := by
  unfold proceed
  dsimp only
  split
  · exact initiateDownload_from _ _ _ _ _ _
  · exact initiateUpload_from _ _
  · exact answer_from _ _
  · exact initiateBlockUpload_from _ _ _ _ _
  · exact downloadSegment_from _ _ _ _ _ _ _ _ _ _
  · exact uploadSegment_from _ _ _ _ _ _
  · exact endBlockDownload_from _ _ _ _
  · exact sendBlock_from _ _ _
  · exact sendBlock_from _ _ _
  · exact confirmBlock_from _ _ _ _
  · exact quiet_from _
  · exact refuse_from { s with state := .idle } _ _

theorem request_from (r : Request) : (s.request r).From s.standing := by
  unfold request
  split
  · exact quiet_from _
  · split
    · exact refuse_from _ _ _
    · exact proceed_from _ _

theorem read_from (m : Message) : (s.read m).From s.standing := by
  have hrequest : (s.readRequest m).From s.standing := by
    unfold readRequest
    split
    · exact request_from _ _
    · exact report_from _ _
  unfold read
  split
  · split
    · exact hrequest
    · unfold readSegment
      split
      · exact blockSegment_from _ _ _
      · exact report_from _ _
  · exact hrequest

theorem handle_from (m : Message) :
    (s.handle m).device.node = s.node ∧ ∀ a ∈ (s.handle m).frames, a.id = s.node.responseId := by
  unfold handle
  split
  · dsimp only
    split
    · exact ⟨rfl, fun _ ha => absurd ha List.not_mem_nil⟩
    · split
      · exact ⟨rfl, fun _ ha => absurd ha List.not_mem_nil⟩
      · obtain ⟨hstanding, hframes⟩ := read_from { s with received := s.received + 1 } m
        exact ⟨congrArg Standing.node hstanding, hframes⟩
  · exact ⟨rfl, fun _ ha => absurd ha List.not_mem_nil⟩

theorem handle_of_ne {m : Message} (h : m.id ≠ s.node.requestId) : s.handle m = s.quiet := by
  rw [handle, if_neg h]

end Canopen.Server
