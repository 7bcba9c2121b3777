import Canopen.Proofs.LossyBlocks

set_option autoImplicit false

namespace Canopen

open Can (Message)
open Sdo

namespace Sdo.BlockSegment

theorem seqno_of_ofMessage {m : Message} {segment : BlockSegment}
    (h : ofMessage m = .ok segment) : segment.seqno = m.data.get 0 &&& 0x7f := by
  unfold ofMessage Frame.decodeBlockSegment at h
  cases hroute : Frame.route m with
  | error e =>
    rw [hroute] at h
    cases h
  | ok r =>
    obtain ⟨sender, node⟩ := r
    rw [hroute] at h
    cases h
    show (Frame.build sender node .blockSegment m.data).payload.get 0 &&& 0x7f = _
    rw [Frame.build_payload_head]

end Sdo.BlockSegment

namespace Client.Call

open Transfer

variable {x : Losses} {c : Call Line} {s : Session Line} {srv : Server} {crc : Bool}
variable {object : List UInt8} {α : Type}

theorem ends_takeRetry_lossy (hc : c.link = Line.link x) {k : UInt32}
    {Q : Unit → Session Line → Prop}
    (goes : ∀ ws r, Q () { s with world := { s.world with warnings := ws }, retries := r }) :
    Ends (c.takeRetry k) s Q fun _ _ => True := by
  cases hr : s.retries with
  | zero => exact ends_takeRetry_zero hc hr fun _ => trivial
  | succ r => exact ends_takeRetry_succ hc hr fun ws => goes ws r

theorem ends_readResponse_lossy (hc : c.link = Line.link x) {m : Message}
    {Q : Response → Session Line → Prop} (goes : ∀ r, Q r s) :
    Ends (c.readResponse m) s Q fun _ _ => True := by
  rw [readResponse]
  split
  · rw [malformed]
    simp only [ends_bind, ends_warn hc]
    exact ends_abandon hc _ _
  · simp only [ends_bind, ends_note hc .debug, ends_fail]
  · exact goes _

theorem ends_readSegment_lossy (hc : c.link = Line.link x) {m : Message}
    {Q : BlockSegment → Session Line → Prop}
    (goes : ∀ segment, segment.seqno = m.data.get 0 &&& 0x7f → Q segment s) :
    Ends (c.readSegment m) s Q fun _ _ => True := by
  rw [readSegment]
  split
  · rw [malformed]
    simp only [ends_bind, ends_warn hc]
    exact ends_abandon hc _ _
  · rename_i segment hsegment
    split
    · exact ends_abandon hc _ _
    · exact goes segment (BlockSegment.seqno_of_ofMessage hsegment)

def LastReceived (c : Call Line) (srv : Server) (crc : Bool) (object : List UInt8)
    (t : Session Line) : Prop :=
  ∃ start, start < segmentCount object ∧
    t.world.Rests srv (.uploadBlock (c.block crc object start)) ∧
    t.seqno.toNat = (c.block crc object start).length ∧
    start + (c.block crc object start).length = segmentCount object ∧
    Behind object t.buffer (segmentCount object) ∧
    t.seqno.toNat * segmentSize ≤ t.buffer.length

section
variable {start i : Nat} {segment : BlockSegment}

theorem last_blockSegment (hs : segment = blockSegment object (start + i) (UInt8.ofNat (i + 1))) :
    segment.last = true ↔ start + i + 1 = segmentCount object := by
  subst hs
  exact decide_eq_true_iff

variable (h : c.Exposed x srv)
include h

theorem toNat_segmentNumber (hlt : i < (c.block crc object start).length) :
    (UInt8.ofNat (i + 1)).toNat = i + 1 := by
  have hsize := h.blockSize
  rw [length_block] at hlt
  exact UInt8.toNat_ofNat_of_lt (show _ < 256 by omega)

/-- What ends a block for the client is its last segment. -/
theorem ends_block (hs : segment = blockSegment object (start + i) (UInt8.ofNat (i + 1)))
    (hlt : i < (c.block crc object start).length) :
    (segment.seqno = c.config.blockSize ∨ segment.last = true) ↔
      i + 1 = (c.block crc object start).length := by
  have hnumber : segment.seqno.toNat = i + 1 := by
    rw [hs]
    exact toNat_segmentNumber h hlt
  rw [last_blockSegment hs, ← UInt8.toNat_inj, hnumber]
  rw [length_block] at hlt ⊢
  omega

end

section
variable (h : c.Exposed x srv) {m : Message} {rest : List Message} {request : Request}
variable {attempts : UInt32} {n : Nat} {Q : Unit → Session Line → Prop}
variable (goes : ∀ (t : Session Line) (request : Request) (attempts : UInt32),
  Receiving c srv crc object t.world t.seqno t.buffer request → t.announced = s.announced →
  Ends (c.receiveBlocks request attempts n) t Q fun _ _ => True)
include h goes

theorem ends_afterSegment_lossy {segment : BlockSegment}
    (ended : segment.seqno = c.config.blockSize ∨ segment.last = true →
      Receiving c srv crc object
        (s.world.send x ((c.acknowledgement s.seqno).message c.node))
        (if s.seqno = c.config.blockSize then 0 else s.seqno) s.buffer
        (c.acknowledgement s.seqno))
    (goesOn : ¬(segment.seqno = c.config.blockSize ∨ segment.last = true) →
      Receiving c srv crc object s.world s.seqno s.buffer request) :
    Ends (c.afterSegment segment request n) s Q fun _ _ => True := by
  rw [afterSegment]
  split
  · rename_i hend
    rw [ends_bind]
    exact ends_acknowledge h.link (goes _ _ _ (ended hend) rfl)
  · rename_i hmid
    exact goes _ _ _ (goesOn hmid) rfl

theorem ends_receiveBlocks_over {state : Server.State} {y : UInt8}
    (hi : s.world.inbox = m :: rest) (hseqno : s.seqno = 0)
    (hstate : state = .idle ∨ state = .endUploadBlock)
    (hserver : ∃ k, s.world.server = srv.during state k)
    (hinbox : ∀ a ∈ s.world.inbox, a.id = c.node.responseId ∧ a.data.get 0 &&& 0x7f ≠ 1) :
    Ends (c.receiveBlocks (c.acknowledgement y) attempts (n + 1)) s Q fun _ _ => True := by
  rw [hi, List.forall_mem_cons] at hinbox
  obtain ⟨⟨hid, hhead⟩, hrest⟩ := hinbox
  let t : Session Line := { s with world := { s.world with inbox := rest } }
  have hsame : Receiving c srv crc object t.world t.seqno t.buffer (c.acknowledgement y) := by
    rw [show t.seqno = 0 from hseqno]
    exact .complete hstate hserver hrest
  rw [receiveBlocks]
  simp only [ends_bind]
  refine ends_nextMessage_cons h.link hi hid ?_ fun _ => trivial
  dsimp only
  split
  · simp only [ends_bind]
    exact ends_readResponse_lossy h.link fun _ => goes t _ _ hsame rfl
  · simp only [ends_bind]
    refine ends_readSegment_lossy h.link fun segment hsegment => ?_
    have hne : ¬segment.seqno.toNat = s.seqno.toNat + 1 := by
      intro heq
      rw [hseqno] at heq
      exact hhead (hsegment.symm.trans (UInt8.toNat_inj.mp heq))
    simp only [takeSegment, ends_bind, ends_get, if_neg hne, ends_note h.link .debug, ends_pure,
      Bool.false_and, Bool.false_eq_true, if_false]
    refine ends_afterSegment_lossy (s := t) h goes (fun _ => ?_) fun _ => hsame
    have hzero : (if t.seqno = c.config.blockSize then 0 else t.seqno) = 0 := by
      rw [show t.seqno = 0 from hseqno]
      exact ite_self 0
    rw [hzero]
    exact Receiving.confirm_over (w := t.world) h hstate hserver hrest _

section
variable {start i : Nat} {segment : BlockSegment}
variable (hs : segment = blockSegment object (start + i) (UInt8.ofNat (i + 1)))
variable (hlt : i < (c.block crc object start).length) (hstart : start < segmentCount object)
variable (hserver : ∃ k, s.world.server = srv.during (.uploadBlock (c.block crc object start)) k)
variable (hrest : s.world.inbox.Sublist ((c.block crc object start).frames c.node (i + 2)))
include hs hlt hstart hserver hrest

theorem ends_taken_lossy (hseqno : s.seqno = segment.seqno)
    (hbehind : Behind object s.buffer (start + (i + 1)))
    (hleast : (i + 1) * segmentSize ≤ s.buffer.length)
    (hrequest : request = .startBlockUpload ∨ ∃ y, request = c.acknowledgement y)
    (received : LastReceived c srv crc object s → Q () s) :
    Ends (if segment.last then pure () else c.afterSegment segment request n) s Q
      fun _ _ => True := by
  have hnumber : s.seqno.toNat = i + 1 := by
    rw [hseqno, hs]
    exact toNat_segmentNumber h hlt
  by_cases hl : segment.last = true
  · rw [if_pos hl, ends_pure]
    have hall := (ends_block h hs hlt).mp (.inr hl)
    have hnil := Server.BlockUpload.sublist_end hall hrest
    have htotal : start + i + 1 = segmentCount object := (last_blockSegment hs).mp hl
    refine received ⟨start, hstart, ⟨hnil, hserver⟩, hnumber.trans hall, by omega, ?_, ?_⟩
    · rw [← htotal]
      exact hbehind
    · rw [hnumber]
      exact hleast
  · rw [if_neg hl]
    refine ends_afterSegment_lossy h goes (fun hend => ?_) fun hmid => ?_
    · have hall := (ends_block h hs hlt).mp hend
      have hnil := Server.BlockUpload.sublist_end hall hrest
      have hsize : s.seqno = c.config.blockSize := hseqno.trans (hend.resolve_right hl)
      have hsize' : c.config.blockSize.toNat = i + 1 := by
        rw [← hsize]
        exact hnumber
      rw [last_blockSegment hs] at hl
      rw [if_pos hsize, hsize]
      rw [length_block] at hall
      exact Receiving.next_block h (by omega) ⟨hnil, hserver⟩ (hsize'.symm ▸ hbehind)
    · refine .amid start (i + 1) hstart hserver hrest ?_ ?_ ?_ hrequest
      · rw [hnumber]
        exact Nat.lt_of_le_of_ne hlt fun hall => hmid ((ends_block h hs hlt).mpr hall)
      · rw [hnumber]
        exact hbehind
      · rw [hnumber]
        exact hleast

theorem ends_dropped_lossy (hseqno : s.seqno.toNat < (c.block crc object start).length)
    (hbehind : Behind object s.buffer (start + s.seqno.toNat))
    (hleast : s.seqno.toNat * segmentSize ≤ s.buffer.length)
    (hrequest : request = .startBlockUpload ∨ ∃ y, request = c.acknowledgement y) :
    Ends (c.afterSegment segment request n) s Q fun _ _ => True := by
  have hless : ¬s.seqno = c.config.blockSize := by
    intro heq
    have heq' : s.seqno.toNat = c.config.blockSize.toNat := congrArg UInt8.toNat heq
    rw [length_block] at hseqno
    omega
  refine ends_afterSegment_lossy h goes (fun hend => ?_) fun _ => ?_
  · have hall := (ends_block h hs hlt).mp hend
    have hnil := Server.BlockUpload.sublist_end hall hrest
    rw [if_neg hless]
    exact Receiving.confirm_part (w := s.world) h hstart ⟨hnil, hserver⟩ hseqno hseqno hbehind
      hleast
  · exact .amid start (i + 1) hstart hserver hrest hseqno hbehind hleast hrequest

end

theorem ends_receiveBlocks_amid {start j : Nat} (hi : s.world.inbox = m :: rest)
    (hstart : start < segmentCount object)
    (hserver : ∃ k, s.world.server = srv.during (.uploadBlock (c.block crc object start)) k)
    (hinbox : s.world.inbox.Sublist ((c.block crc object start).frames c.node (j + 1)))
    (hseqno : s.seqno.toNat < (c.block crc object start).length)
    (hbehind : Behind object s.buffer (start + s.seqno.toNat))
    (hleast : s.seqno.toNat * segmentSize ≤ s.buffer.length)
    (hrequest : request = .startBlockUpload ∨ ∃ y, request = c.acknowledgement y)
    (received : ∀ t, LastReceived c srv crc object t → t.announced = s.announced → Q () t) :
    Ends (c.receiveBlocks request attempts (n + 1)) s Q fun _ _ => True := by
  have hsize := h.blockSize
  rw [hi] at hinbox
  obtain ⟨i, hlt, rfl, hrest⟩ := Server.BlockUpload.sublist_frames hinbox
  let segment := blockSegment object (start + i) (UInt8.ofNat (i + 1))
  have hsegment : segment.seqno.toNat = i + 1 := toNat_segmentNumber h hlt
  have hi' : s.world.inbox = segment.message .server c.node :: rest := hi
  have hlt' := hlt
  rw [length_block] at hlt'
  refine ends_receiveBlocks_segment h.link hi' (by omega) (by omega) (by omega)
    (fun hseq transferred => ?_) (fun _ => ?_) fun _ => trivial
  · have hnext : s.seqno.toNat = i := by omega
    rw [hnext] at hbehind
    let u : Session Line :=
      { s with
        world := { s.world with inbox := rest }
        deadline := s.world.now + c.config.timeout
        seqno := segment.seqno
        buffer := s.buffer ++ segment.data.toList
        transferred }
    refine ends_taken_lossy (s := u) h goes rfl hlt hstart hserver hrest rfl hbehind.accept ?_
      hrequest fun hall => received _ hall rfl
    show _ ≤ (s.buffer ++ segment.data.toList).length
    rw [List.length_append, Vector.length_toList]
    simp only [segmentSize] at hleast ⊢
    omega
  · let u : Session Line := { s with world := { s.world with inbox := rest } }
    exact ends_dropped_lossy (s := u) h goes rfl hlt hstart hserver hrest hseqno hbehind hleast
      hrequest

end

section
variable (h : c.Exposed x srv)
include h

theorem ends_receiveBlocks_lossy {request : Request} {attempts : UInt32} {n : Nat}
    (hr : Receiving c srv crc object s.world s.seqno s.buffer request) :
    Ends (c.receiveBlocks request attempts n) s
      (fun _ t => LastReceived c srv crc object t ∧ t.announced = s.announced)
      fun _ _ => True := by
  -- On the rounds left. What a round keeps is how far apart the two sides may be.
  induction n generalizing s request attempts with
  | zero => trivial
  | succ n ih =>
    have goes : ∀ (t : Session Line) (request : Request) (attempts : UInt32),
        Receiving c srv crc object t.world t.seqno t.buffer request →
        t.announced = s.announced →
        Ends (c.receiveBlocks request attempts n) t
          (fun _ u => LastReceived c srv crc object u ∧ u.announced = s.announced)
          fun _ _ => True := by
      intro t request attempts hr hann
      rw [← hann]
      exact ih hr
    cases hi : s.world.inbox with
    | nil =>
      refine ends_receiveBlocks_nil h.link hi (fun now => ?_) fun _ _ => trivial
      refine ends_takeRetry_lossy h.link fun ws r => ?_
      exact goes _ _ _ ((hr.later now ws).timed_out h hi) rfl
    | cons m rest =>
      generalize hw : s.world = w, hseq : s.seqno = seqno, hbuf : s.buffer = buffer at hr
      cases hr with
      | waiting hs =>
        rw [hw, hs.1] at hi
        cases hi
      | amid start j hstart hserver hinbox hseqno hbehind hleast hrequest =>
        subst hw hseq hbuf
        exact ends_receiveBlocks_amid h goes hi hstart hserver hinbox hseqno hbehind hleast hrequest
          fun t ht hann => ⟨ht, hann⟩
      | between start hmore hs hbehind =>
        rw [hw, hs.1] at hi
        cases hi
      | complete hstate hserver hinbox =>
        subst hw
        exact ends_receiveBlocks_over h goes hi hseq hstate hserver hinbox

/-- The size, the mode and the numbers of the segments leave no way to take anything but the object
for the object. -/
theorem ends_uploadBlocks_lossy {serverCrc : Bool}
    (hs : s.world.Rests srv (.uploadBlockInitiated (c.block crc object 0)))
    (hbuffer : s.buffer = []) (hann : s.announced = some object.length) :
    Ends (c.uploadBlocks serverCrc) s (fun v _ => v = object) fun _ _ => True := by
  have hstart := (Receiving.waiting hs).timed_out h hs.1
  rw [uploadBlocks]
  simp only [ends_bind]
  rw [send, ends_sendMessage h.link]
  simp only [ends_modify]
  refine Ends.mono (ends_receiveBlocks_lossy h (by rw [hbuffer]; exact hstart)) ?_
    fun _ _ _ => trivial
  intro _ t hq
  obtain ⟨⟨start, hstart, hrests, hseqno, htotal, hbehind, hleast⟩, hann'⟩ := hq
  have hpos : 0 < (c.block crc object start).length := length_block_pos h hstart
  have hleast' : segmentSize ≤ t.buffer.length := by
    rw [hseqno] at hleast
    exact Nat.le_trans (Nat.le_mul_of_pos_left _ hpos) hleast
  have hnomore : ¬start + (c.block crc object start).length < segmentCount object := by omega
  let unused := UInt8.ofNat (segmentCount object * segmentSize - object.length)
  have hunused : unused.toNat = segmentCount object * segmentSize - object.length :=
    toNat_unused object
  simp only [ends_get]
  refine ends_exchange_lossy h
    (fun st => st = .uploadBlock (c.block crc object start) ∨ st = .idle ∨ st = .endUploadBlock)
    (fun q _ => ∃ checksum, q = .endBlockUpload unused checksum) hrests (.inl rfl) ?_ ?_
  · intro st hq
    rcases hq with rfl | hst
    · exact ⟨_, _, Server.reacts_confirmBlock_last h.faults hseqno h.blockSize hnomore,
        .inr (.inr rfl), .inr ⟨Response.regular_endBlockUpload object _, _, rfl⟩⟩
    · obtain ⟨a, code, hreacts⟩ : srv.Refuses st ((c.acknowledgement t.seqno).message srv.node) :=
        Server.refuses_confirmBlock_over h.faults hst
      exact ⟨_, _, hreacts, .inr (.inl rfl), .inl ⟨a, code, rfl⟩⟩
  · intro q st w r d hq _
    obtain ⟨checksum, rfl⟩ := hq
    simp only [ends_bind, trim, ends_modify, ends_get]
    split
    · simp only [ends_bind]
      exact ends_abandon h.link _ _
    · simp only [ends_bind]
      refine ends_checkSize_lossy h.link fun hsize => ?_
      simp only [send, ends_sendMessage h.link, ends_get, ends_pure]
      rw [hunused] at hsize ⊢
      -- Whoever was left behind has too few bytes for the size that was announced.
      refine hbehind.complete hleast' fun n hn => ?_
      exact hn.trans (hsize n (by rw [hann', hann, hn]))

theorem ends_uploadBlock_lossy (hs : s.world.Rests srv .idle) (hbuffer : s.buffer = [])
    (hd : object.length < sizeLimit) (hobject : srv.objects.get? c.target = some object) :
    Ends c.uploadBlock s (fun v _ => v = object) fun _ _ => True := by
  let crc := c.config.useCrc && srv.crc
  have hregular : c.initiation.Regular := .of_plain trivial
  have hsize : (UInt32.ofNat object.length).toNat = object.length := UInt32.toNat_ofNat_of_lt hd
  rw [uploadBlock]
  simp only [ends_bind]
  refine ends_exchange_lossy h
    (fun st => st = .idle ∨ st = .uploadBlockInitiated (c.block crc object 0))
    (fun q st => q = .announceBlocks srv.crc c.target (some (UInt32.ofNat object.length)) ∧
      st = .uploadBlockInitiated (c.block crc object 0)) hs (.inl rfl) ?_ ?_
  · intro st hst
    have hnot : ∀ t, st ≠ .downloadBlock t := by rcases hst with rfl | rfl <;> simp
    exact ⟨_, _, Server.responds_of_proceed h.faults hnot hregular
      fun k => Server.proceed_initiateBlockUpload h.faults hobject h.blockSize (by simp),
      .inr rfl, .inr ⟨(.of_plain trivial), rfl, rfl⟩⟩
  · intro q st w r d hq hw
    obtain ⟨rfl, rfl⟩ := hq
    simp only [Response.announceBlocks, Option.isSome_some, Option.getD_some, if_true, ends_bind,
      ends_modify, hsize]
    exact ends_uploadBlocks_lossy h hw hbuffer rfl

theorem ends_uploadBlock_missing_lossy (hs : s.world.Rests srv .idle)
    (hmissing : srv.objects.get? c.target = none) :
    Ends c.uploadBlock s (fun _ _ => False) fun _ _ => True := by
  have hregular : c.initiation.Regular := .of_plain trivial
  rw [uploadBlock]
  simp only [ends_bind]
  exact ends_exchange_refused_lossy h hregular hs
    fun _ => Server.proceed_initiateBlockUpload_missing hmissing

end
end Client.Call
end Canopen
