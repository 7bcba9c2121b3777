import Canopen.Proofs.Addressing
import Canopen.Proofs.Segments

/-!
What a server commits itself to with its answers, whatever its faults. An abort leaves it idle, and
so does each answer that ends a transfer.
-/

set_option autoImplicit false

namespace Canopen.Server

open Can (Message)
open Sdo

/-- The server does not see the next message. -/
def Deaf (s : Server) : Prop := s.faults.silent = true ∨ 0 < s.faults.ignoreNext

/-- A server that has nothing to do as long as it sees no messages. -/
structure Listens (s : Server) (node : NodeId) (blockSize : UInt8) : Prop where
  addressed : s.node = node
  sized : s.blockSize = blockSize
  rests : s.Deaf → s.state = .idle

section
variable {s : Server} {m : Message} {node : NodeId} {blockSize : UInt8}

theorem handle_deaf (h : s.Deaf) (hm : m.id = s.node.requestId) :
    ∃ faults, s.handle m = ({ s with received := s.received + 1, faults } : Server).quiet := by
  rw [handle, if_pos hm]
  by_cases hsilent : s.faults.silent = true
  · exact ⟨s.faults, by rw [if_pos hsilent]⟩
  · have hignores : 0 < s.faults.ignoreNext := h.resolve_left hsilent
    exact ⟨_, by rw [if_neg hsilent, if_pos hignores]⟩

theorem handle_heard (h : ¬s.Deaf) (hm : m.id = s.node.requestId) :
    s.handle m = ({ s with received := s.received + 1 } : Server).read m := by
  obtain ⟨hsilent, hignores⟩ := not_or.mp h
  rw [handle, if_pos hm]
  dsimp only
  rw [if_neg hsilent, if_neg hignores]

theorem Listens.handle (h : s.Listens node blockSize) (hm : m.id = node.requestId) :
    (s.handle m).device.Listens node blockSize := by
  obtain ⟨rfl, rfl, rests⟩ := h
  by_cases hdeaf : s.Deaf
  · obtain ⟨faults, heq⟩ := handle_deaf hdeaf hm
    rw [heq]
    exact ⟨rfl, rfl, fun _ => rests hdeaf⟩
  · rw [handle_heard hdeaf hm]
    have hstanding := (read_from { s with received := s.received + 1 } m).1
    generalize (({ s with received := s.received + 1 } : Server).read m).device = d at hstanding
    have hd : d.Deaf ↔ s.Deaf := by
      have hsilent : d.faults.silent = s.faults.silent := congrArg Standing.silent hstanding
      have hignores : d.faults.ignoreNext = s.faults.ignoreNext :=
        congrArg Standing.ignoreNext hstanding
      rw [Deaf, Deaf, hsilent, hignores]
    exact ⟨congrArg Standing.node hstanding, congrArg Standing.blockSize hstanding,
      fun h => absurd (hd.mp h) hdeaf⟩

end

theorem Listens.idle_handle_abort {s : Server} {node : NodeId} {blockSize : UInt8}
    (h : s.Listens node blockSize) (target : Address) (code : UInt32) :
    (s.handle ((Request.abort target code).message node)).device.state = .idle := by
  have hhead : ((Request.abort target code).message node).data.get 0 = 0x80 :=
    Frame.build_payload_head .client node .abort (Request.abort target code).toBytes
  obtain ⟨rfl, rfl, rests⟩ := h
  by_cases hdeaf : s.Deaf
  · obtain ⟨faults, heq⟩ := handle_deaf hdeaf (Request.message_id (.abort target code) s.node)
    rw [heq]
    exact rests hdeaf
  · rw [handle_heard hdeaf (Request.message_id (.abort target code) s.node)]
    have hrequest : (({ s with received := s.received + 1 } : Server).readRequest
        ((Request.abort target code).message s.node)).device.state = .idle := by
      rw [readRequest, Request.ofMessage_message s.node (r := .abort target code) trivial trivial]
      rfl
    unfold read
    split
    · rw [if_pos hhead]
      exact hrequest
    · exact hrequest

/-- What there is of a server and its answer: it said nothing, in a state that `S` holds of. Or it
aborted, and is idle. Or its response and its state fit each other, as `D` says. -/
inductive Committed (node : NodeId) (S : State → Prop) (D : Response → State → Prop) :
    State → List Message → Prop
  | quiet {state : State} (h : S state) : Committed node S D state []
  | refused (target : Address) (code : UInt32) :
    Committed node S D .idle [(Response.abort target code).message node]
  | answered {state : State} {r : Response} (hr : r.Regular) (h : D r state) :
    Committed node S D state [r.message node]

theorem Committed.mono {node : NodeId} {S S' : State → Prop} {D D' : Response → State → Prop}
    {state : State} {ms : List Message} (h : Committed node S D state ms)
    (hS : ∀ state, S state → S' state) (hD : ∀ r state, D r state → D' r state) :
    Committed node S' D' state ms := by
  cases h with
  | quiet h => exact .quiet (hS _ h)
  | refused target code => exact .refused target code
  | answered hr h => exact .answered hr (hD _ _ h)

theorem Committed.state {node : NodeId} {S : State → Prop} {state : State} {ms : List Message}
    (hidle : S .idle) (h : Committed node S (fun _ => S) state ms) : S state := by
  cases h with
  | quiet h => exact h
  | refused => exact hidle
  | answered _ h => exact h

abbrev Answer.Commits (a : Answer) (node : NodeId) (S : State → Prop)
    (D : Response → State → Prop) : Prop :=
  Committed node S D a.device.state a.frames

namespace State

def Downloads : State → Prop
  | .idle | .downloadSegmented .. => True
  | _ => False

def Uploads : State → Prop
  | .idle | .uploadSegmented .. => True
  | _ => False

def Uploading (blockSize : UInt8) : Response → State → Prop
  | .confirmUpload _ expedited _ _ _, state => state.Uploads ∧ (expedited = true → state = .idle)
  | .confirmBlockUpload .., state =>
    ∃ t : BlockUpload, state = .uploadBlockInitiated t ∧ t.blockSize = blockSize
  | _, _ => True

def AfterSegment : Response → State → Prop
  | .uploadSegment _ _ last _, state => state.Uploads ∧ (last = true → state = .idle)
  | _, _ => True

def InBlock (state : State) : Prop := ∃ t, state = .downloadBlock t

def Receiving (blockSize : UInt8) : Response → State → Prop
  | .confirmBlockDownload _ _ size, state => size = blockSize ∧ state.InBlock
  | _, _ => True

end State

section
variable (s : Server) {S : State → Prop} {D : Response → State → Prop}

theorem refuse_commits (target : Address) (code : AbortCode) :
    (s.refuse target code).Commits s.node S D :=
  .refused target code.code

theorem request_commits {r : Request} (hr : r.Regular) (h : (s.proceed r).Commits s.node S D) :
    (s.request r).Commits s.node S D := by
  cases r with
  | abort => exact absurd rfl hr.goes
  | _ =>
    simp only [request]
    split
    · exact refuse_commits s _ _
    · exact h

theorem read_commits (hs : ∀ t, s.state ≠ .downloadBlock t) {r : Request} (hr : r.Regular)
    (h : (s.proceed r).Commits s.node S D) : (s.read (r.message s.node)).Commits s.node S D := by
  have hrequest := request_commits s hr h
  unfold read
  split
  · rename_i t ht
    exact absurd ht (hs t)
  · rw [readRequest, Request.ofMessage_message s.node hr.fits hr.tidy]
    exact hrequest

theorem proceed_expedited_commits (unused : UInt8) (sized : Bool) (target : Address)
    (data : Vector UInt8 4) :
    (s.proceed (.initiateDownload unused true sized target data)).Commits s.node S
      fun _ state => state = .idle :=
  .answered (r := .confirmDownload _) (.of_plain trivial) rfl

theorem proceed_announce_commits (unused : UInt8) (sized : Bool) (target : Address)
    (data : Vector UInt8 4) :
    (s.proceed (.initiateDownload unused false sized target data)).Commits s.node S
      fun _ state => state.Downloads :=
  .answered (r := .confirmDownload _) (.of_plain trivial) trivial

theorem proceed_segment_commits (hs : s.state.Downloads) (toggle : Bool) (unused : UInt8)
    (last : Bool) (data : Vector UInt8 7) :
    (s.proceed (.downloadSegment toggle unused last data)).Commits s.node S
      fun _ state => state.Downloads ∧ (last = true → state = .idle) := by
  unfold proceed
  dsimp only
  cases hstate : s.state with
  | idle => exact .refused _ _
  | downloadSegmented target expected segment size buffer =>
    dsimp only
    unfold downloadSegment
    split
    · have hack : (Response.confirmDownloadSegment
          (spoil toggle segment s.faults.flipDownloadToggle)).Regular := .of_plain trivial
      dsimp only
      split
      · split
        · exact .answered hack ⟨trivial, fun _ => rfl⟩
        · exact refuse_commits _ _ _
      · rename_i hlast
        exact .answered hack ⟨trivial, fun h => absurd h hlast⟩
    · exact refuse_commits _ _ _
  | _ =>
    rw [hstate] at hs
    exact hs.elim

theorem startUpload_commits (hs : s.state = .idle) (target : Address) (data : List UInt8)
    (blockSize : UInt8) :
    (s.startUpload target data).Commits s.node S (State.Uploading blockSize) := by
  unfold startUpload
  split
  · rename_i h
    refine .answered (Response.regular_expedited target h.1.2 h.1.1) ⟨?_, fun _ => hs⟩
    show s.state.Uploads
    rw [hs]
    trivial
  · exact .answered (Response.regular_announce target _) ⟨trivial, fun h => by cases h⟩

theorem proceed_initiateUpload_commits (target : Address) (blockSize : UInt8) :
    (s.proceed (.initiateUpload target)).Commits s.node S (State.Uploading blockSize) := by
  show (({ s with state := .idle } : Server).initiateUpload target).Commits _ _ _
  unfold initiateUpload
  split
  · exact startUpload_commits _ rfl _ _ _
  · exact refuse_commits _ _ _

theorem proceed_uploadSegment_commits (hs : s.state.Uploads) (toggle : Bool) :
    (s.proceed (.uploadSegment toggle)).Commits s.node S State.AfterSegment := by
  unfold proceed
  dsimp only
  cases hstate : s.state with
  | idle => exact .refused _ _
  | uploadSegmented target expected segment data =>
    dsimp only
    unfold uploadSegment
    split
    · have hregular := fun last => Response.regular_segment
        (spoil toggle segment s.faults.flipUploadToggle) last (segmentBytes_length_le data segment)
      dsimp only
      split
      · exact .answered (hregular _) ⟨trivial, fun _ => rfl⟩
      · rename_i hlast
        exact .answered (hregular _) ⟨trivial, fun h => absurd h hlast⟩
    · exact refuse_commits _ _ _
  | _ =>
    rw [hstate] at hs
    exact hs.elim

theorem proceed_initiateBlockDownload_commits (crc sized : Bool) (target : Address)
    (size : UInt32) :
    (s.proceed (.initiateBlockDownload crc sized target size)).Commits s.node S
      (State.Receiving s.blockSize) :=
  .answered (r := .confirmBlockDownload _ _ _) (.of_plain trivial) ⟨rfl, _, rfl⟩

theorem proceed_initiateBlockUpload_commits (crc : Bool) (target : Address)
    (blockSize threshold : UInt8) :
    (s.proceed (.initiateBlockUpload crc target blockSize threshold)).Commits s.node S
      (State.Uploading blockSize) := by
  show (({ s with state := .idle } : Server).initiateBlockUpload crc target blockSize
    threshold).Commits _ _ _
  unfold initiateBlockUpload
  split
  · exact refuse_commits _ _ _
  · split
    · exact startUpload_commits _ rfl _ _ _
    · split
      · exact refuse_commits _ _ _
      · exact .answered (r := .confirmBlockUpload ..) (.of_plain trivial) ⟨_, rfl, rfl⟩

theorem blockSegment_commits {t : BlockDownload} (hs : s.state = .downloadBlock t)
    (segment : BlockSegment) :
    (s.blockSegment t segment).Commits s.node State.InBlock fun r state =>
      ∃ k, r = .confirmBlock k s.blockSize ∧
        (state.InBlock ∨ k = segment.seqno ∧ segment.last = true) := by
  have hregular : ∀ k, (Response.confirmBlock k s.blockSize).Regular := fun _ => .of_plain trivial
  unfold blockSegment
  split
  · exact .quiet ⟨t, hs⟩
  · dsimp only
    split
    · exact .quiet ⟨_, rfl⟩
    · split
      · rename_i hend
        obtain ⟨hnext, hlast⟩ := Bool.and_eq_true_iff.mp hend
        refine .answered (hregular _) ⟨_, rfl, .inr ⟨?_, hlast⟩⟩
        rw [if_pos hnext]
      · exact .answered (hregular _) ⟨_, rfl, .inl ⟨_, rfl⟩⟩

theorem blockSegment_within {t : BlockDownload} (hs : s.state = .downloadBlock t)
    {segment : BlockSegment} (hsize : segment.seqno ≠ s.blockSize) (hlast : segment.last = false) :
    (s.blockSegment t segment).frames = [] ∧
      (s.blockSegment t segment).device.state.InBlock := by
  unfold blockSegment
  split
  · exact ⟨rfl, t, hs⟩
  · dsimp only
    rw [if_pos ⟨hsize, hlast⟩]
    exact ⟨rfl, _, rfl⟩

theorem read_endBlockDownload_commits {unused : UInt8} {checksum : UInt16}
    (hr : (Request.endBlockDownload unused checksum).Regular) :
    (s.read ((Request.endBlockDownload unused checksum).message s.node)).Commits s.node
      (fun _ => True) fun r state => r = .confirmBlockDownloadEnd → state = .idle := by
  by_cases hs : s.state.InBlock
  · -- The request is taken for a segment.
    obtain ⟨t, ht⟩ := hs
    have hhead := hr.message_head_ne_abort s.node
    unfold read
    rw [ht]
    dsimp only
    rw [if_neg hhead, readSegment]
    split
    · rename_i segment _
      refine (blockSegment_commits s ht segment).mono (fun _ _ => trivial) ?_
      rintro r state ⟨k, rfl, -⟩ h
      cases h
    · exact .quiet trivial
  · refine read_commits s (fun t ht => hs ⟨t, ht⟩) hr ?_
    unfold proceed
    dsimp only
    cases s.state with
    | endDownloadBlock t =>
      dsimp only
      unfold endBlockDownload
      dsimp only
      split
      · exact refuse_commits _ _ _
      · split
        · exact .answered (r := .confirmBlockDownloadEnd) (.of_plain trivial) fun _ => rfl
        · exact refuse_commits _ _ _
    | _ => exact .refused _ _

end

theorem handle_commits {s : Server} {node : NodeId} {blockSize : UInt8} {m : Message}
    {S : State → Prop} {D : Response → State → Prop} (hl : s.Listens node blockSize)
    (hm : m.id = node.requestId) (hs : S s.state)
    (hread : ∀ received, (({ s with received } : Server).read m).Commits node S D) :
    (s.handle m).Commits node S D := by
  obtain ⟨rfl, rfl, -⟩ := hl
  by_cases hdeaf : s.Deaf
  · obtain ⟨faults, heq⟩ := handle_deaf hdeaf hm
    rw [heq]
    exact .quiet hs
  · rw [handle_heard hdeaf hm]
    exact hread _

theorem Listens.handle_segment {s : Server} {node : NodeId} {blockSize : UInt8} {t : BlockDownload}
    (h : s.Listens node blockSize) (hs : s.state = .downloadBlock t) {segment : BlockSegment}
    (h0 : 0 < segment.seqno.toNat) (h1 : segment.seqno.toNat < 128) :
    s.handle (segment.message .client node) =
      ({ s with received := s.received + 1 } : Server).blockSegment t segment := by
  obtain ⟨rfl, rfl, rests⟩ := h
  have hheard : ¬s.Deaf := by
    intro hdeaf
    rw [rests hdeaf] at hs
    cases hs
  rw [handle_heard hheard (segment.message_client_id s.node), read]
  simp only [hs]
  rw [if_neg (segment.message_head_ne_abort .client s.node h0 h1), readSegment,
    BlockSegment.ofMessage_message .client s.node h1]

end Canopen.Server
