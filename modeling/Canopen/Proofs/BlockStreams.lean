import Canopen.Proofs.Commitments

set_option autoImplicit false

namespace Canopen.Server

open Can (Message)
open Sdo

theorem filterMap_range'_eq_cons {α : Type} {f : Nat → Option α} {first count : Nat} {a : α}
    {rest : List α} (h : (List.range' first count).filterMap f = a :: rest) :
    ∃ n, first ≤ n ∧ n < first + count ∧ f n = some a ∧
      rest = (List.range' (n + 1) (first + count - (n + 1))).filterMap f := by
  induction count generalizing first with
  | zero => cases h
  | succ count ih =>
    rw [List.range'_succ, List.filterMap_cons] at h
    cases hf : f first with
    | none =>
      rw [hf] at h
      obtain ⟨n, hle, hlt, hn, hrest⟩ := ih h
      refine ⟨n, by omega, by omega, hn, ?_⟩
      rw [hrest]
      congr 2
      omega
    | some b =>
      rw [hf] at h
      obtain ⟨rfl, rfl⟩ := List.cons.inj h
      refine ⟨first, Nat.le_refl _, by omega, hf, ?_⟩
      congr 2
      omega

theorem exists_of_blockUploadSegment {s : Server} {t : BlockUpload} {n : Nat} {m : Message}
    (h : s.blockUploadSegment t n = some m) :
    ∃ segment : BlockSegment, m = segment.message .server s.node ∧
      segment.seqno = UInt8.ofNat n ∧
      (segment.last = true ↔ t.start + n - 1 + 1 = segmentCount t.data) := by
  unfold blockUploadSegment at h
  dsimp only at h
  split at h
  · cases h
  · exact ⟨_, (Option.some.inj h).symm, rfl, decide_eq_true_iff⟩

/-- Frames of a block that come one behind the other, and none of them before the first segment. -/
def BlockUpload.Left (t : BlockUpload) (node : NodeId) (ms : List Message) : Prop :=
  ∃ (s : Server) (first : Nat), s.node = node ∧ 0 < first ∧
    ms = (List.range' first (t.length + 1 - first)).filterMap (s.blockUploadSegment t)

def IsEnd (node : NodeId) (m : Message) : Prop :=
  ∃ unused checksum, (Response.endBlockUpload unused checksum).Regular ∧
    m = (Response.endBlockUpload unused checksum).message node

/-- An upload in blocks of this size, and the frames of it that the client has not yet taken. Once
the server is idle they may be anything. -/
def Streams (node : NodeId) (size : UInt8) : State → List Message → Prop
  | .idle, ms => ∀ m ∈ ms, m.id = node.responseId
  | .uploadBlockInitiated t, ms => t.blockSize = size ∧ ms = []
  | .uploadBlock t, ms => t.blockSize = size ∧ t.Left node ms
  | .endUploadBlock, ms => ms = [] ∨ ∃ m, IsEnd node m ∧ ms = [m]
  | _, _ => False

abbrev Answer.Streams (a : Answer) (node : NodeId) (size : UInt8) : Prop :=
  Server.Streams node size a.device.state a.frames

/-- The client has taken all that the server had to say, unless the server is idle. -/
def Heard (state : State) (ms : List Message) : Prop := state = .idle ∨ ms = []

def Delivered (node : NodeId) (size seqno : UInt8) : State → List Message → Prop
  | .idle, ms => ∀ m ∈ ms, m.id = node.responseId
  | .uploadBlock t, ms =>
    t.blockSize = size ∧ ms = [] ∧ seqno.toNat = t.length ∧
      segmentCount t.data ≤ t.start + t.length
  | .endUploadBlock, ms => ms = []
  | _, _ => False

def Closes (node : NodeId) : State → List Message → Prop
  | .idle, ms => ∀ m ∈ ms, m.id = node.responseId
  | .endUploadBlock, ms => ∃ m, IsEnd node m ∧ ms = [m]
  | _, _ => False

section
variable {node : NodeId} {size : UInt8} {state : State} {m : Message} {ms : List Message}

theorem IsEnd.id (h : IsEnd node m) : m.id = node.responseId := by
  obtain ⟨unused, checksum, -, rfl⟩ := h
  exact Response.message_id _ _

theorem IsEnd.ofMessage (h : IsEnd node m) :
    ∃ unused checksum, Response.ofMessage m = .ok (.endBlockUpload unused checksum) := by
  obtain ⟨unused, checksum, hr, rfl⟩ := h
  exact ⟨unused, checksum, Response.ofMessage_message node hr.fits hr.tidy⟩

theorem BlockUpload.Left.own {t : BlockUpload} (h : t.Left node ms) :
    ∀ m ∈ ms, m.id = node.responseId := by
  intro m hm
  obtain ⟨s, first, rfl, -, rfl⟩ := h
  obtain ⟨n, -, hn⟩ := List.mem_filterMap.mp hm
  obtain ⟨segment, rfl, -, -⟩ := exists_of_blockUploadSegment hn
  exact segment.message_server_id _

theorem Streams.own (h : Streams node size state ms) : ∀ m ∈ ms, m.id = node.responseId := by
  intro m hm
  cases state with
  | idle => exact h m hm
  | uploadBlockInitiated t =>
    obtain ⟨-, rfl⟩ := h
    cases hm
  | uploadBlock t => exact h.2.own m hm
  | endUploadBlock =>
    rcases h with rfl | ⟨m', hend, rfl⟩
    · cases hm
    · rw [List.mem_singleton.mp hm]
      exact hend.id
  | _ => exact h.elim

theorem Closes.own (h : Closes node state ms) : ∀ m ∈ ms, m.id = node.responseId := by
  cases state with
  | idle => exact h
  | endUploadBlock =>
    obtain ⟨m', hend, rfl⟩ := h
    intro m hm
    rw [List.mem_singleton.mp hm]
    exact hend.id
  | _ => exact h.elim

theorem BlockUpload.Left.take {t : BlockUpload} (h : t.Left node (m :: ms))
    (hsize : t.blockSize.toNat ≤ 127) :
    ∃ segment : BlockSegment, BlockSegment.ofMessage m = .ok segment ∧ m.data.get 0 ≠ 0x80 ∧
      t.Left node ms ∧ segment.seqno.toNat ≤ t.length ∧
      (segment.seqno.toNat = t.length → ms = []) ∧
      (segment.last = true →
        segment.seqno.toNat = t.length ∧ segmentCount t.data ≤ t.start + t.length) := by
  obtain ⟨s, first, rfl, hfirst, hms⟩ := h
  obtain ⟨n, hle, hlt, hn, hrest⟩ := filterMap_range'_eq_cons hms.symm
  obtain ⟨segment, rfl, hseqno, hlast⟩ := exists_of_blockUploadSegment hn
  have hlength : t.length ≤ t.blockSize.toNat := Nat.min_le_left _ _
  have hmin : t.length = min t.blockSize.toNat (segmentCount t.data - t.start) := rfl
  have hend : first + (t.length + 1 - first) - (n + 1) = t.length + 1 - (n + 1) := by omega
  have hvalue : segment.seqno.toNat = n := by
    rw [hseqno, UInt8.toNat_ofNat_of_lt' (by show n < 256; omega)]
  rw [hend] at hrest
  refine ⟨segment, ?_, ?_, ⟨s, n + 1, rfl, Nat.succ_pos n, hrest⟩, by omega, ?_, ?_⟩
  · exact BlockSegment.ofMessage_message .server s.node (by omega)
  · exact segment.message_head_ne_abort .server s.node (by omega) (by omega)
  · intro h
    rw [hrest, ← h, hvalue, Nat.sub_self]
    rfl
  · intro h
    have hsegment := hlast.mp h
    omega

structure Taken (node : NodeId) (size : UInt8) (state : State) (m : Message)
    (rest : List Message) : Prop where
  streams : Streams node size state rest
  abort : m.data.get 0 = 0x80 → ∀ target code, Response.ofMessage m = .ok (.abort target code) →
    state = .idle
  heard : ∀ segment, BlockSegment.ofMessage m = .ok segment →
    segment.seqno = size ∨ segment.last = true → Heard state rest
  delivered : ∀ segment, BlockSegment.ofMessage m = .ok segment → segment.last = true →
    Delivered node size segment.seqno state rest

theorem Streams.take (h : Streams node size state (m :: ms)) (hsize : size.toNat ≤ 127) :
    Taken node size state m ms := by
  cases state with
  | idle =>
    have own : ∀ a ∈ ms, a.id = node.responseId := fun a ha => h a (List.mem_cons_of_mem _ ha)
    exact ⟨own, fun _ _ _ _ => rfl, fun _ _ _ => .inl rfl, fun _ _ _ => own⟩
  | uploadBlock t =>
    obtain ⟨rfl, hleft⟩ := h
    obtain ⟨segment, hread, hhead, hrest, hle, hnone, hlast⟩ := hleft.take hsize
    have hlength : t.length ≤ t.blockSize.toNat := Nat.min_le_left _ _
    refine ⟨⟨rfl, hrest⟩, fun h => absurd h hhead, ?_, ?_⟩
    · intro segment' hread'
      obtain rfl : segment = segment' := Except.ok.inj (hread.symm.trans hread')
      rintro (heq | hl)
      · exact .inr (hnone (Nat.le_antisymm hle (heq ▸ hlength)))
      · exact .inr (hnone (hlast hl).1)
    · intro segment' hread' hl
      obtain rfl : segment = segment' := Except.ok.inj (hread.symm.trans hread')
      exact ⟨rfl, hnone (hlast hl).1, hlast hl⟩
  | endUploadBlock =>
    rcases h with h | ⟨m', hend, heq⟩
    · cases h
    · obtain ⟨rfl, rfl⟩ := List.cons.inj heq
      obtain ⟨unused, checksum, hread⟩ := hend.ofMessage
      refine ⟨.inl rfl, fun _ target code habort => ?_, fun _ _ _ => .inr rfl, fun _ _ _ => rfl⟩
      rw [hread] at habort
      cases habort
  | uploadBlockInitiated t => cases h.2
  | _ => exact h.elim

theorem refuse_own (s : Server) (target : Address) (code : AbortCode) :
    ∀ m ∈ (s.refuse target code).frames, m.id = s.node.responseId := by
  intro m hm
  rw [List.mem_singleton.mp hm]
  exact Response.message_id _ _

theorem refuse_streams (s : Server) (target : Address) (code : AbortCode) :
    (s.refuse target code).Streams s.node size :=
  s.refuse_own target code

theorem sendBlock_streams (s : Server) {t : BlockUpload} (ht : t.blockSize = size) {first : Nat}
    (hfirst : 0 < first) : (s.sendBlock t first).Streams s.node size :=
  ⟨ht, s, first, rfl, hfirst, rfl⟩

theorem isEnd_of_unused (object : List UInt8) (checksum : UInt16) :
    IsEnd node ((Response.endBlockUpload
      (UInt8.ofNat (segmentCount object * segmentSize - object.length)) checksum).message
        node) := by
  refine ⟨_, _, ⟨?_, trivial, by simp [Response.kind]⟩, rfl⟩
  show (UInt8.ofNat (segmentCount object * segmentSize - object.length)).toNat ≤ 7
  rw [toNat_unused]
  exact unused_le object

end

section
variable {s : Server} {node : NodeId} {blockSize : UInt8} {ms : List Message} {r : Request}
  (hl : s.Listens node blockSize)
include hl

theorem Listens.handle_proceed (hbusy : s.state ≠ .idle)
    (hstate : ∀ t, s.state ≠ .downloadBlock t) (hr : r.Regular) (hgoes : initiated? r = none) :
    s.handle (r.message node) = ({ s with received := s.received + 1 } : Server).proceed r := by
  obtain ⟨rfl, rfl, rests⟩ := hl
  rw [handle_heard (fun hdeaf => hbusy (rests hdeaf)) (r.message_id _)]
  have hrequest : ({ s with received := s.received + 1 } : Server).request r
      = ({ s with received := s.received + 1 } : Server).proceed r := by
    cases r with
    | abort => exact absurd rfl hr.goes
    | _ =>
      simp only [request, hgoes]
      cases s.faults.abortWith <;> rfl
  unfold read
  split
  · rename_i t ht
    exact absurd ht (hstate t)
  · rw [readRequest, Request.ofMessage_message _ hr.fits hr.tidy]
    exact hrequest

theorem Listens.idle_handle (hidle : s.state = .idle) (hr : r.Regular)
    (hgoes : initiated? r = none) : (s.handle (r.message node)).device.state = .idle := by
  have hcommits : (s.handle (r.message node)).Commits node (· = .idle)
      fun _ state => state = .idle := by
    refine handle_commits hl (r.message_id node) hidle fun received => ?_
    obtain rfl := hl.addressed
    refine read_commits _ (fun t ht => ?_) hr ?_
    · rw [hidle] at ht
      cases ht
    · unfold proceed
      dsimp only
      rw [hidle]
      cases r with
      | initiateDownload | initiateUpload | initiateBlockDownload | initiateBlockUpload =>
        cases hgoes
      | _ => exact .refused _ _
  exact hcommits.state (S := (· = .idle)) rfl

theorem Listens.own_handle (own : ∀ m ∈ ms, m.id = node.responseId) (m : Message) :
    ∀ a ∈ ms ++ (s.handle m).frames, a.id = node.responseId := by
  intro a ha
  rcases List.mem_append.mp ha with hold | hnew
  · exact own a hold
  · rw [(s.handle_from m).2 a hnew, hl.addressed]

variable {size : UInt8}

theorem Streams.handle_of_proceed (h : Streams node size s.state ms) (hheard : Heard s.state ms)
    (hr : r.Regular) (hgoes : initiated? r = none)
    (hproceed : s.state ≠ .idle → ∀ received,
      (({ s with received } : Server).proceed r).Streams node size) :
    Streams node size (s.handle (r.message node)).device.state
      (ms ++ (s.handle (r.message node)).frames) := by
  by_cases hidle : s.state = .idle
  · rw [hl.idle_handle hidle hr hgoes]
    exact hl.own_handle h.own _
  · obtain rfl := hheard.resolve_left hidle
    have hstate : ∀ t, s.state ≠ .downloadBlock t := by
      intro t ht
      rw [ht] at h
      exact h
    rw [hl.handle_proceed hidle hstate hr hgoes]
    exact hproceed hidle _

theorem Streams.handle_start (h : Streams node size s.state ms) (hheard : Heard s.state ms) :
    Streams node size (s.handle (Request.startBlockUpload.message node)).device.state
      (ms ++ (s.handle (Request.startBlockUpload.message node)).frames) := by
  refine h.handle_of_proceed hl hheard (.of_plain trivial) rfl fun hbusy received => ?_
  obtain rfl := hl.addressed
  unfold proceed
  dsimp only
  cases hstate : s.state with
  | uploadBlockInitiated t =>
    rw [hstate] at h
    exact sendBlock_streams _ h.1 Nat.one_pos
  | uploadBlock t =>
    rw [hstate] at h
    exact sendBlock_streams _ h.1 Nat.one_pos
  | _ => exact refuse_streams { s with received, state := .idle } _ _

theorem Streams.handle_confirm (h : Streams node size s.state ms) (hheard : Heard s.state ms)
    (seqno : UInt8) :
    Streams node size (s.handle ((Request.confirmBlock seqno size).message node)).device.state
      (ms ++ (s.handle ((Request.confirmBlock seqno size).message node)).frames) := by
  refine h.handle_of_proceed hl hheard (.of_plain trivial) rfl fun hbusy received => ?_
  obtain rfl := hl.addressed
  unfold proceed
  dsimp only
  cases hstate : s.state with
  | uploadBlock t =>
    rw [hstate] at h
    dsimp only
    unfold confirmBlock
    split
    · exact refuse_streams { s with received, state := .idle } _ _
    · split
      · exact sendBlock_streams _ h.1 (Nat.succ_pos _)
      · split
        · exact refuse_streams { s with received, state := .idle } _ _
        · dsimp only
          split
          · exact sendBlock_streams _ rfl Nat.one_pos
          · exact .inr ⟨_, isEnd_of_unused _ _, rfl⟩
  | _ => exact refuse_streams { s with received, state := .idle } _ _

theorem Delivered.handle_confirm (hsize : 0 < size.toNat ∧ size.toNat ≤ 127) {seqno : UInt8}
    (h : Delivered node size seqno s.state ms) :
    Closes node (s.handle ((Request.confirmBlock seqno size).message node)).device.state
      (ms ++ (s.handle ((Request.confirmBlock seqno size).message node)).frames) := by
  have hr : (Request.confirmBlock seqno size).Regular := .of_plain trivial
  have hvalid : ¬(size = 0 ∨ 127 < size) := by
    rintro (rfl | h)
    · exact absurd hsize.1 (by decide)
    · exact absurd hsize.2 (Nat.not_le.mpr (UInt8.lt_iff_toNat_lt.mp h))
  cases hstate : s.state with
  | idle =>
    rw [hstate] at h
    rw [hl.idle_handle hstate hr rfl]
    exact hl.own_handle h _
  | uploadBlock t =>
    rw [hstate] at h
    obtain ⟨-, rfl, hseqno, hcount⟩ := h
    rw [hl.handle_proceed (by simp [hstate]) (by simp [hstate]) hr rfl]
    obtain rfl := hl.addressed
    unfold proceed
    dsimp only
    rw [hstate]
    dsimp only
    unfold confirmBlock
    dsimp only
    rw [if_neg (by omega), if_neg (by omega), if_neg hvalid, if_neg (by omega)]
    exact ⟨_, isEnd_of_unused _ _, rfl⟩
  | endUploadBlock =>
    rw [hstate] at h
    obtain rfl := h
    rw [hl.handle_proceed (by simp [hstate]) (by simp [hstate]) hr rfl]
    obtain rfl := hl.addressed
    unfold proceed
    dsimp only
    rw [hstate]
    exact refuse_own { s with received := s.received + 1, state := .idle } _ _
  | _ =>
    rw [hstate] at h
    exact h.elim

theorem Listens.idle_handle_end (h : s.state = .idle ∨ s.state = .endUploadBlock) :
    (s.handle (Request.confirmBlockUploadEnd.message node)).device.state = .idle := by
  have hr : Request.confirmBlockUploadEnd.Regular := .of_plain trivial
  rcases h with hidle | hend
  · exact hl.idle_handle hidle hr rfl
  · rw [hl.handle_proceed (by simp [hend]) (by simp [hend]) hr rfl]
    unfold proceed
    dsimp only
    rw [hend]
    rfl

end
end Canopen.Server
