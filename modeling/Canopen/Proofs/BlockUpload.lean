import Canopen.Proofs.Uploads

/-!
Block uploads on a line that loses requests. A block arrives as a whole, so that the client waits
only between blocks, for the answer to what it sent last.
-/

set_option autoImplicit false

namespace Canopen

open Can (Message)
open Sdo

theorem Sdo.Response.regular_endBlockUpload (object : List UInt8) (checksum : UInt16) :
    (endBlockUpload (UInt8.ofNat (segmentCount object * segmentSize - object.length))
      checksum).Regular :=
  ⟨Nat.le_trans (Nat.le_of_eq (toNat_unused object)) (unused_le object), trivial, by simp [kind]⟩

namespace Server

def BlockUpload.blockAt (a : Address) (crc : Bool) (blockSize : UInt8) (object : List UInt8)
    (start : Nat) : BlockUpload :=
  { target := a, crc, blockSize, start, data := object }

theorem BlockUpload.frames_eq_cons (t : BlockUpload) (node : NodeId) {j : Nat}
    (hj : j < t.length) :
    t.frames node (j + 1) =
      (Client.blockSegment t.data (t.start + j) (UInt8.ofNat (j + 1))).message .server node
        :: t.frames node (j + 2) := by
  have hn : t.length + 1 - (j + 1) = t.length + 1 - (j + 2) + 1 := by omega
  rw [frames, hn, List.range'_succ]
  rfl

theorem BlockUpload.frames_eq_nil (t : BlockUpload) (node : NodeId) {j : Nat}
    (hj : t.length ≤ j) : t.frames node (j + 1) = [] := by
  have hn : t.length + 1 - (j + 1) = 0 := by omega
  rw [frames, hn]
  rfl

def BlockUpload.segments (t : BlockUpload) (node : NodeId) (first count : Nat) : List Message :=
  (List.range' first count).map fun n =>
    (Client.blockSegment t.data (t.start + n - 1) (UInt8.ofNat n)).message .server node

theorem BlockUpload.segments_succ (t : BlockUpload) (node : NodeId) (j count : Nat) :
    t.segments node (j + 1) (count + 1) =
      (Client.blockSegment t.data (t.start + j) (UInt8.ofNat (j + 1))).message .server node
        :: t.segments node (j + 2) count := by
  rw [segments, List.range'_succ]
  rfl

theorem BlockUpload.segments_append_frames (t : BlockUpload) (node : NodeId) {j count : Nat}
    (h : j + count ≤ t.length) :
    t.segments node (j + 1) count ++ t.frames node (j + count + 1) = t.frames node (j + 1) := by
  have hsum : j + count + 1 = j + 1 + 1 * count := by omega
  have hleft : count + (t.length + 1 - (j + count + 1)) = t.length + 1 - (j + 1) := by omega
  rw [segments, frames, frames, ← List.map_append, ← hleft, hsum, List.range'_append]

end Server

namespace Client.Call

open Transfer

section
variable {σ : Type} {c : Call σ} {s : Session σ}

theorem ends_readSegment {segment : BlockSegment} {node : NodeId}
    (h0 : 0 < segment.seqno.toNat) (hb : segment.seqno.toNat ≤ c.config.blockSize.toNat)
    (hlt : segment.seqno.toNat < 128)
    {Q : BlockSegment → Session σ → Prop} {E : Stop → Session σ → Prop} :
    Ends (c.readSegment (segment.message .server node)) s Q E ↔ Q segment s := by
  have hok : ¬(segment.seqno = 0 ∨ c.config.blockSize < segment.seqno) := by
    intro hq
    rcases hq with h | h
    · rw [h] at h0
      exact absurd h0 (by decide)
    · have h' := UInt8.lt_iff_toNat_lt.mp h
      omega
  rw [readSegment, BlockSegment.ofMessage_message .server node hlt]
  simp only [if_neg hok, ends_pure]

theorem ends_receiveBlocks_next (object : List UInt8) (start j : Nat) {n : Nat}
    (hb : c.config.blockSize.toNat ≤ 127)
    (hj : j < min c.config.blockSize.toNat (segmentCount object - start)) {request : Request}
    {attempts : UInt32} {P : Session σ → Prop} {Q : Unit → Session σ → Prop}
    {E : Stop → Session σ → Prop}
    (hnext : Ends c.nextMessage s
      (fun received t =>
        received = some ((blockSegment object (start + j) (UInt8.ofNat (j + 1))).message .server
          c.node) ∧ t.seqno.toNat = j ∧ P t) E)
    (goes : ∀ t transferred, P t →
      Ends (if j + 1 = min c.config.blockSize.toNat (segmentCount object - start) then
          if start + min c.config.blockSize.toNat (segmentCount object - start)
              = segmentCount object then pure ()
          else do c.receiveBlocks (← c.acknowledge) 1 n
        else c.receiveBlocks request 1 n)
        { t with
          deadline := c.link.now t.world + c.config.timeout
          seqno := UInt8.ofNat (j + 1)
          buffer := t.buffer ++ (padTo 7 (segmentBytes object (start + j))).toList
          transferred } Q E) :
    Ends (c.receiveBlocks request attempts (n + 1)) s Q E := by
  have hnumber : (UInt8.ofNat (j + 1)).toNat = j + 1 :=
    UInt8.toNat_ofNat_of_lt (show _ < 256 by omega)
  have hsize : UInt8.ofNat (j + 1) = c.config.blockSize ↔ j + 1 = c.config.blockSize.toNat := by
    rw [← UInt8.toNat_inj, hnumber]
  have hseqno : (blockSegment object (start + j) (UInt8.ofNat (j + 1))).seqno.toNat = j + 1 :=
    hnumber
  have hhead := BlockSegment.message_head_ne_abort .server c.node
    (s := blockSegment object (start + j) (UInt8.ofNat (j + 1))) (by omega) (by omega)
  rw [receiveBlocks, ends_bind]
  refine hnext.mono (fun received t ht => ?_) fun _ _ he => he
  obtain ⟨rfl, hseq, ht⟩ := ht
  have hgoes := goes t
    (t.transferred + (padTo 7 (segmentBytes object (start + j))).toList.length) ht
  dsimp only
  rw [if_neg hhead, ends_bind, ends_readSegment (by omega) (by omega) (by omega)]
  simp only [blockSegment, ends_pure, ends_bind, takeSegment, ends_get, hnumber, hseq, if_true,
    restartDeadline, ends_modify, store, Bool.true_and, decide_eq_true_eq, hsize]
  -- The client tells the end of a block by the number of the segment or by its last bit.
  by_cases hend : j + 1 = min c.config.blockSize.toNat (segmentCount object - start)
  · rw [if_pos hend] at hgoes
    by_cases hlast : start + j + 1 = segmentCount object
    · rw [if_pos (by omega)] at hgoes
      rw [if_pos hlast]
      exact hgoes
    · rw [if_neg (by omega)] at hgoes
      rw [if_neg hlast, if_pos (by omega)]
      exact hgoes
  · rw [if_neg hend] at hgoes
    rw [if_neg (by omega), if_neg (by omega)]
    exact hgoes

end

variable {x : Losses} {c : Call Line} {s : Session Line}

def afterSegment (c : Call Line) (segment : BlockSegment) (request : Request) (n : Nat) :
    Transfer Line Unit :=
  if segment.seqno = c.config.blockSize ∨ segment.last then do
    c.receiveBlocks (← c.acknowledge) 1 n
  else c.receiveBlocks request 1 n

theorem ends_receiveBlocks_segment (hc : c.link = Line.link x) {segment : BlockSegment}
    {rest : List Message} {request : Request} {attempts : UInt32} {n : Nat}
    (hi : s.world.inbox = segment.message .server c.node :: rest)
    (h0 : 0 < segment.seqno.toNat) (hb : segment.seqno.toNat ≤ c.config.blockSize.toNat)
    (hlt : segment.seqno.toNat < 128)
    {Q : Unit → Session Line → Prop} {E : Stop → Session Line → Prop}
    (taken : segment.seqno.toNat = s.seqno.toNat + 1 → ∀ transferred,
      Ends (if segment.last then pure () else c.afterSegment segment request n)
        { s with
          world := { s.world with inbox := rest }
          deadline := s.world.now + c.config.timeout
          seqno := segment.seqno
          buffer := s.buffer ++ segment.data.toList
          transferred } Q E)
    (dropped : segment.seqno.toNat ≠ s.seqno.toNat + 1 →
      Ends (c.afterSegment segment request n) { s with world := { s.world with inbox := rest } }
        Q E)
    (unfinished : c.patience = 0 → E .unfinished s) :
    Ends (c.receiveBlocks request attempts (n + 1)) s Q E := by
  have hhead := segment.message_head_ne_abort .server c.node h0 hlt
  rw [receiveBlocks]
  simp only [ends_bind]
  refine ends_nextMessage_cons hc hi (segment.message_server_id c.node) ?_ unfinished
  simp only [if_neg hhead, ends_bind, ends_readSegment h0 hb hlt, takeSegment, ends_get]
  by_cases hseq : segment.seqno.toNat = s.seqno.toNat + 1
  · simp only [if_pos hseq, restartDeadline, store, ends_bind, ends_modify, ends_pure,
      Bool.true_and]
    rw [hc]
    exact taken hseq _
  · simp only [if_neg hseq, ends_bind, ends_note hc .debug, ends_pure, Bool.false_and,
      Bool.false_eq_true, if_false]
    exact dropped hseq

theorem ends_receiveBlocks_nil (hc : c.link = Line.link x) (hi : s.world.inbox = [])
    {request : Request} {attempts : UInt32} {n : Nat}
    {Q : Unit → Session Line → Prop} {E : Stop → Session Line → Prop}
    (silent : ∀ now, Ends (c.takeRetry attempts) { s with world := { s.world with now } }
      (fun _ t =>
        let again := if 0 < t.seqno then c.acknowledgement t.seqno else request
        Ends (c.receiveBlocks again (attempts + 1) n)
          { t with
            world := t.world.send x (again.message c.node)
            deadline := (t.world.send x (again.message c.node)).now + c.config.timeout } Q E) E)
    (unfinished : ∀ t, c.config.pollInterval = 0 ∨ c.patience ≤ s.deadline - s.world.now →
      E .unfinished t) :
    Ends (c.receiveBlocks request attempts (n + 1)) s Q E := by
  rw [receiveBlocks]
  simp only [ends_bind]
  refine (ends_poll_silent hc hi).mono ?_ ?_
  · intro _ t hq
    obtain ⟨rfl, now, rfl, -, -⟩ := hq
    simp only [ends_bind, ends_get, send, ends_sendMessage hc]
    exact silent now
  · intro e t hq
    obtain ⟨rfl, hp⟩ := hq
    exact unfinished t hp

variable {lost : Nat → Bool} {srv : Server} {state : Server.State} {switch crc : Bool}
variable {object : List UInt8} {start : Nat}

section
variable (hc : c.link = Line.link x) (hp : 0 < c.patience) (hb : c.config.blockSize.toNat ≤ 127)
  {t : Server.BlockUpload} (ht : t = .blockAt c.target crc c.config.blockSize object start)
include hc hp hb ht

theorem ends_receiveSegment {j n : Nat} (hj : j < t.length) {rest : List Message}
    (hi : s.world.inbox =
      (blockSegment t.data (t.start + j) (UInt8.ofNat (j + 1))).message .server c.node :: rest)
    (hseq : s.seqno.toNat = j) {request : Request} {attempts : UInt32}
    {Q : Unit → Session Line → Prop} {E : Stop → Session Line → Prop}
    (goes : ∀ transferred,
      Ends (if j + 1 = t.length then
          if start + t.length = segmentCount object then pure ()
          else do c.receiveBlocks (← c.acknowledge) 1 n
        else c.receiveBlocks request 1 n)
        { s with
          world := { s.world with inbox := rest }
          deadline := s.world.now + c.config.timeout
          seqno := UInt8.ofNat (j + 1)
          buffer := s.buffer ++ (padTo 7 (segmentBytes object (start + j))).toList
          transferred } Q E) :
    Ends (c.receiveBlocks request attempts (n + 1)) s Q E := by
  subst ht
  refine ends_receiveBlocks_next object start j hb hj
    (P := fun u => u = { s with world := { s.world with inbox := rest } })
    (ends_nextMessage_cons hc hi (BlockSegment.message_server_id _ c.node) ⟨rfl, hseq, rfl⟩
      fun h => by omega) ?_
  rintro _ transferred rfl
  rw [hc]
  exact goes transferred

variable {R : List UInt8 → Nat → Prop} (accept : ∀ {buffer k}, R buffer k →
  R (buffer ++ (padTo 7 (segmentBytes object k)).toList) (k + 1))
include accept

theorem ends_receiveInner {j m n : Nat} (hm : j + m < t.length) {rest : List Message}
    (hi : s.world.inbox = t.segments c.node (j + 1) m ++ rest) (hseq : s.seqno.toNat = j)
    (hbuffer : R s.buffer (start + j)) (hd : s.deadline ≤ s.world.now + c.config.timeout)
    {request : Request} {attempts : UInt32}
    {Q : Unit → Session Line → Prop} {E : Stop → Session Line → Prop}
    (goes : ∀ buffer transferred attempts d, R buffer (start + (j + m)) →
      d ≤ s.world.now + c.config.timeout →
      Ends (c.receiveBlocks request attempts n)
        { s with
          world := { s.world with inbox := rest }
          deadline := d
          seqno := UInt8.ofNat (j + m)
          buffer
          transferred } Q E) :
    Ends (c.receiveBlocks request attempts (n + m)) s Q E := by
  induction m generalizing j s attempts with
  | zero =>
    have hrest : s.world.inbox = rest := hi
    have hgoes := goes s.buffer s.transferred attempts s.deadline hbuffer hd
    rw [Nat.add_zero, ← hseq, UInt8.ofNat_toNat, ← hrest] at hgoes
    exact hgoes
  | succ m ih =>
    have hnext : (UInt8.ofNat (j + 1)).toNat = j + 1 := by
      have hlength : t.length ≤ c.config.blockSize.toNat := by
        rw [ht]
        exact Nat.min_le_left _ _
      exact UInt8.toNat_ofNat_of_lt (show _ < 256 by omega)
    have hsum : j + (m + 1) = j + 1 + m := by omega
    rw [t.segments_succ, List.cons_append] at hi
    refine ends_receiveSegment hc hp hb ht (by omega) hi hseq fun transferred => ?_
    rw [if_neg (by omega)]
    rw [hsum] at goes
    exact ih (by omega) rfl hnext (accept hbuffer) (Nat.le_refl _) goes

theorem ends_receiveBlock {j m n : Nat} (hm : j + (m + 1) = t.length)
    (hi : s.world.inbox = t.frames c.node (j + 1)) (hseq : s.seqno.toNat = j)
    (hbuffer : R s.buffer (start + j)) (hd : s.deadline ≤ s.world.now + c.config.timeout)
    {request : Request} {attempts : UInt32}
    {Q : Unit → Session Line → Prop} {E : Stop → Session Line → Prop}
    (goes : ∀ buffer transferred, R buffer (start + t.length) →
      Ends (if start + t.length = segmentCount object then pure ()
        else do c.receiveBlocks (← c.acknowledge) 1 n)
        { s with
          world := { s.world with inbox := [] }
          deadline := s.world.now + c.config.timeout
          seqno := UInt8.ofNat t.length
          buffer
          transferred } Q E) :
    Ends (c.receiveBlocks request attempts (n + (m + 1))) s Q E := by
  have hlength : t.length ≤ c.config.blockSize.toNat := by
    rw [ht]
    exact Nat.min_le_left _ _
  have hlast : (UInt8.ofNat (j + m)).toNat = j + m :=
    UInt8.toNat_ofNat_of_lt (show _ < 256 by omega)
  have hend : j + m + 1 = t.length := by omega
  rw [← t.segments_append_frames c.node (show j + m ≤ t.length by omega),
    t.frames_eq_cons c.node (by omega), t.frames_eq_nil c.node (by omega)] at hi
  have hsum : n + (m + 1) = n + 1 + m := by omega
  rw [hsum]
  refine ends_receiveInner hc hp hb ht accept (by omega) hi hseq hbuffer hd
    fun buffer _ attempts d hbuffer' _ => ?_
  refine ends_receiveSegment hc hp hb ht (by omega) rfl hlast fun transferred => ?_
  have hbuffer'' := accept hbuffer'
  rw [Nat.add_assoc, hend] at hbuffer''
  rw [if_pos hend, hend]
  exact goes _ transferred hbuffer''

end

/-- The server of a block upload, and the request it answers with the block that begins at
segment `start`. -/
def Awaited (c : Call Line) (srv : Server) (crc : Bool) (object : List UInt8) (start : Nat)
    (state : Server.State) (request : Request) : Prop :=
  ∀ k, (srv.during state k).handle (request.message c.node) =
    { frames := (Server.BlockUpload.blockAt c.target crc c.config.blockSize object start).frames
        c.node 1
      device := srv.during
        (.uploadBlock (.blockAt c.target crc c.config.blockSize object start)) (k + 1) }

def AllReceived (lost : Nat → Bool) (c : Call Line) (srv : Server) (crc : Bool)
    (object : List UInt8) (start : Nat) (request : Request) (s t : Session Line) : Prop :=
  ∃ i frames, start ≤ i ∧ i < segmentCount object ∧
    segmentCount object - i ≤ c.config.blockSize.toNat ∧
    Traffic.acknowledgements c.node object c.config.blockSize start =
      frames ++ [(c.acknowledgement (UInt8.ofNat (segmentCount object - i))).message c.node] ∧
    s.Reached lost srv (.uploadBlock (.blockAt c.target crc c.config.blockSize object i))
      (request.message c.node :: frames) t ∧
    t.seqno = UInt8.ofNat (segmentCount object - i) ∧
    t.buffer = filled object (segmentCount object)

theorem awaited_acknowledgement (h : c.Setting lost srv switch)
    (hb : 0 < c.config.blockSize.toNat ∧ c.config.blockSize.toNat ≤ 127)
    (hl : c.config.blockSize.toNat < segmentCount object - start) :
    c.Awaited srv crc object (start + c.config.blockSize.toNat)
      (.uploadBlock (.blockAt c.target crc c.config.blockSize object start))
      (c.acknowledgement c.config.blockSize) := by
  have hlength : (Server.BlockUpload.blockAt c.target crc c.config.blockSize object start).length
      = c.config.blockSize.toNat := Nat.min_eq_left (Nat.le_of_lt hl)
  have hless : start + c.config.blockSize.toNat < segmentCount object := by omega
  have hregular : (c.acknowledgement c.config.blockSize).Regular := .of_plain trivial
  intro k
  rw [h.node, Server.handle_request h.faults (by simp) hregular, acknowledgement,
    Server.proceed_confirmBlock, Server.confirmBlock_whole h.faults hlength.symm hb, hlength]
  exact (if_pos hless).trans (by rw [Server.BlockUpload.next, hlength]; rfl)

theorem ends_acknowledge (hc : c.link = Line.link x)
    {Q : Request → Session Line → Prop} {E : Stop → Session Line → Prop}
    (goes : Q (c.acknowledgement s.seqno) { s with
      world := s.world.send x ((c.acknowledgement s.seqno).message c.node)
      deadline := (s.world.send x ((c.acknowledgement s.seqno).message c.node)).now
        + c.config.timeout
      seqno := if s.seqno = c.config.blockSize then 0 else s.seqno }) :
    Ends c.acknowledge s Q E := by
  refine ends_acknowledge_of_send fun text => (ends_note hc .debug (by decide) text).mpr ?_
  rw [send, ends_sendMessage hc]
  exact goes

theorem allReceived_last {base : Session Line} {w : Line} {n : Nat} {request : Request}
    (hstart : start < segmentCount object)
    (hl : segmentCount object - start ≤ c.config.blockSize.toNat)
    (ho : Line.Onward lost base.world base.retries w n [request.message c.node])
    (hr : w.Rests srv (.uploadBlock (.blockAt c.target crc c.config.blockSize object start)))
    (hw : s.world = w) (hn : s.retries = n)
    (hseq : s.seqno = UInt8.ofNat (segmentCount object - start))
    (hbuffer : s.buffer = filled object (segmentCount object)) :
    AllReceived lost c srv crc object start request base s := by
  subst hw hn
  exact ⟨start, [], Nat.le_refl _, hstart, hl,
    Traffic.acknowledgements_last c.node object hstart hl, ⟨ho, hr⟩, hseq, hbuffer⟩

theorem AllReceived.behind_block {base u t : Session Line} {request : Request}
    (ht : AllReceived lost c srv crc object (start + c.config.blockSize.toNat)
      (c.acknowledgement c.config.blockSize) u t)
    (hb : 0 < c.config.blockSize.toNat)
    (hmore : c.config.blockSize.toNat < segmentCount object - start)
    (ho : Line.Onward lost base.world base.retries u.world u.retries
      [request.message c.node]) :
    AllReceived lost c srv crc object start request base t := by
  obtain ⟨i, frames, hi, hlt, hsmall, hacks, hreached, hlast, hfilled⟩ := ht
  refine ⟨i, _ :: frames, by omega, hlt, hsmall, ?_, hreached.trans ho, hlast, hfilled⟩
  rw [Traffic.acknowledgements_more c.node object hb hmore, hacks]
  rfl

theorem ends_receiveBlocks_unanswered (h : c.Setting lost srv switch) {base : Session Line}
    {request : Request} {attempts : UInt32} {n : Nat} (hr : s.world.Rests srv state)
    (ho : Line.Onward lost base.world base.retries s.world s.retries [request.message c.node])
    (hpaid : base.retries + base.world.countLost lost < s.retries + s.world.countLost lost)
    (hmore : base.world.countLost lost < s.world.countLost lost)
    (ha : c.Awaited srv crc object start state request)
    (hd : s.deadline ≤ s.world.now + c.config.timeout) (hseq : s.seqno = 0)
    {Q : Unit → Session Line → Prop}
    (goes : ∀ w r, r + 1 = s.retries →
      Asked lost base.world base.retries srv state (request.message c.node)
        ((Server.BlockUpload.blockAt c.target crc c.config.blockSize object start).frames c.node 1)
        srv (.uploadBlock (.blockAt c.target crc c.config.blockSize object start)) w r →
      Ends (c.receiveBlocks request (attempts + 1) n)
        { s with world := w, retries := r, deadline := w.now + c.config.timeout } Q
        (base.TimedOut lost srv.objects)) :
    Ends (c.receiveBlocks request attempts (n + 1)) s Q (base.TimedOut lost srv.objects) := by
  obtain ⟨i, hlost⟩ := Line.exists_lost (Nat.zero_lt_of_lt hmore)
  have hinterval := h.interval i hlost
  have hpatient := h.patient
  refine ends_receiveBlocks_nil h.link hr.1 (fun now => ?_) fun u hu => by omega
  by_cases hretries : s.retries = 0
  · refine ends_takeRetry_zero h.link (by exact hretries) fun ws => ⟨⟨_, rfl⟩, ?_, ?_⟩
    · rw [hretries, Nat.zero_add] at hpaid
      exact hpaid
    · obtain ⟨-, k, hk⟩ := hr
      show s.world.server.objects = _
      rw [hk]
      rfl
  · obtain ⟨r, hretries⟩ := Nat.exists_eq_succ_of_ne_zero hretries
    refine ends_takeRetry_succ h.link (by exact hretries) fun ws => ?_
    have hnot : ¬0 < s.seqno := by
      rw [hseq]
      decide
    simp only [if_neg hnot]
    refine goes _ r hretries.symm ?_
    refine asked_send hr ho.sent ?_ ?_ (fun he => absurd he (Nat.ne_of_gt hmore)) ha
    · show r ≤ base.retries
      have hused := ho.used
      omega
    · show _ ≤ r + s.world.countLost lost
      omega

theorem ends_receiveBlocks (h : c.Setting lost srv switch)
    (hb : 0 < c.config.blockSize.toNat ∧ c.config.blockSize.toNat ≤ 127) {base : Session Line}
    {request : Request} {attempts : UInt32} {n : Nat} (hstart : start < segmentCount object)
    (ha : c.Awaited srv crc object start state request)
    (hs : Asked lost base.world base.retries srv state (request.message c.node)
      ((Server.BlockUpload.blockAt c.target crc c.config.blockSize object start).frames c.node 1)
      srv (.uploadBlock (.blockAt c.target crc c.config.blockSize object start))
      s.world s.retries)
    (hd : s.deadline ≤ s.world.now + c.config.timeout) (hseq : s.seqno = 0)
    (hbuffer : s.buffer = filled object start)
    (hn : segmentCount object - start + s.retries < n) :
    Ends (c.receiveBlocks request attempts n) s
      (fun _ t => AllReceived lost c srv crc object start request base t ∧
        t.announced = s.announced)
      (base.TimedOut lost srv.objects) := by
  -- On the rounds left. A block takes as many of them as it has segments, a retry takes one.
  induction n using Nat.strongRecOn generalizing start state request attempts s base with
  | ind n ih =>
    let t := Server.BlockUpload.blockAt c.target crc c.config.blockSize object start
    have hlength : t.length = min c.config.blockSize.toNat (segmentCount object - start) := rfl
    have hpatient := h.patient
    obtain ⟨ho, ⟨hr, hpaid, hmore⟩ | ⟨hi, hk⟩⟩ := hs
    · obtain ⟨n, rfl⟩ : ∃ m, n = m + 1 := Nat.exists_eq_add_of_lt (Nat.zero_lt_of_lt hn) |>.imp
        fun m hm => by omega
      refine ends_receiveBlocks_unanswered h hr ho hpaid hmore ha hd hseq fun w r hr' hs' => ?_
      refine ih n (Nat.lt_succ_self n) hstart ha hs' (Nat.le_refl _) hseq hbuffer ?_
      show _ + r < n
      omega
    · -- The block has come as a whole.
      obtain ⟨m, hm⟩ : ∃ m, t.length = m + 1 := ⟨t.length - 1, by omega⟩
      obtain ⟨left, rfl⟩ : ∃ left, n = left + (m + 1) := ⟨n - (m + 1), by omega⟩
      have hzero : s.seqno.toNat = 0 := by
        rw [hseq]
        rfl
      have hon := ho.withInbox []
      refine ends_receiveBlock (R := fun buffer k => buffer = filled object k) h.link (by omega)
        hb.2 rfl (fun hk => by rw [filled_succ, hk]) ((Nat.zero_add _).trans hm.symm) hi hzero
        hbuffer hd fun buffer transferred hbuffer' => ?_
      subst hbuffer'
      by_cases hend : start + t.length = segmentCount object
      · have hall : t.length = segmentCount object - start := by omega
        rw [if_pos hend, ends_pure]
        exact ⟨allReceived_last hstart (by omega) hon ⟨rfl, hk⟩ rfl rfl (congrArg UInt8.ofNat hall)
          (congrArg (filled object) hend), rfl⟩
      · have hfull : t.length = c.config.blockSize.toNat := by omega
        have hmoreleft : c.config.blockSize.toNat < segmentCount object - start := by omega
        have hsize : UInt8.ofNat t.length = c.config.blockSize := by
          rw [hfull, UInt8.ofNat_toNat]
        have hnext : c.Awaited srv crc object _ _ _ := awaited_acknowledgement h hb hmoreleft
        -- From here on it is counted anew what is lost.
        let u : Session Line := { s with world := { s.world with inbox := [] } }
        have hrests : u.world.Rests srv _ := ⟨rfl, hk⟩
        have hasked : Asked lost u.world u.retries srv _ _ _ _ _ _ _ :=
          asked_send hrests (Nat.le_refl _) (Nat.le_refl _) (Nat.le_refl _) (fun _ => rfl) hnext
        have hleft : segmentCount object - (start + c.config.blockSize.toNat) + s.retries
            < left := by
          omega
        rw [if_neg hend, ends_bind, hsize]
        refine ends_acknowledge h.link ?_
        rw [if_pos rfl]
        refine Ends.mono (ih left (by omega) (by omega) hnext hasked (Nat.le_refl _) rfl
          (congrArg (fun n => filled object (start + n)) hfull) hleft) ?_ fun e v he => he.trans hon
        intro _ v ht
        exact ⟨AllReceived.behind_block ht.1 hb.1 hmoreleft hon, ht.2⟩

theorem awaited_startBlockUpload (h : c.Setting lost srv switch) :
    c.Awaited srv crc object 0
      (.uploadBlockInitiated (.blockAt c.target crc c.config.blockSize object 0))
      .startBlockUpload := by
  have hregular : Request.startBlockUpload.Regular := .of_plain trivial
  intro k
  rw [h.node, Server.handle_request h.faults (by simp) hregular,
    Server.proceed_startBlockUpload_initiated h.faults]

theorem ends_sendEnd (h : c.Setting lost srv switch) (hs : s.world.Rests srv .endUploadBlock)
    {Q : Unit → Session Line → Prop} {E : Stop → Session Line → Prop}
    (goes : ∀ w d, s.Finished lost srv [Request.confirmBlockUploadEnd.message c.node]
        { s with world := w, deadline := d } →
      Q () { s with world := w, deadline := d }) :
    Ends (c.send .confirmBlockUploadEnd) s Q E := by
  have hregular : Request.confirmBlockUploadEnd.Regular := .of_plain trivial
  obtain ⟨hi, k, hk⟩ := hs
  have hhandle : s.world.server.handle (Request.confirmBlockUploadEnd.message c.node) =
      { device := srv.during .idle (k + 1) } := by
    rw [hk, h.node, Server.handle_request h.faults (by simp) hregular]
    rfl
  have hon := Line.onward_send lost s.retries hhandle
  rw [send, ends_sendMessage h.link]
  rcases Line.lost_or_answered lost hhandle with ⟨hsend, hcount⟩ | ⟨hsend, -⟩
  · refine goes _ _ ⟨hon, .endUploadBlock, ?_, fun he => ?_⟩
    · rw [hsend]
      exact ⟨hi, k, hk⟩
    · rw [hcount] at he
      omega
  · refine goes _ _ ⟨hon, .idle, ?_, fun _ => rfl⟩
    rw [hsend]
    exact ⟨by rw [hi]; rfl, k + 1, rfl⟩

theorem proceed_last_acknowledgement (h : c.Setting lost srv switch)
    (hb : 0 < c.config.blockSize.toNat ∧ c.config.blockSize.toNat ≤ 127)
    (hi : start < segmentCount object)
    (hsmall : segmentCount object - start ≤ c.config.blockSize.toNat) {seqno : UInt8}
    (hseq : seqno = UInt8.ofNat (segmentCount object - start)) (k : Nat) :
    (srv.during (.uploadBlock (.blockAt c.target crc c.config.blockSize object start)) k).proceed
        (c.acknowledgement seqno) =
      { frames := [(Response.endBlockUpload
          (UInt8.ofNat (segmentCount object * segmentSize - object.length))
          (if crc then Canopen.crc object else 0)).message srv.node]
        device := srv.during .endUploadBlock k } := by
  have hlength : (Server.BlockUpload.blockAt c.target crc c.config.blockSize object start).length
      = segmentCount object - start := Nat.min_eq_right hsmall
  have hacked : seqno.toNat
      = (Server.BlockUpload.blockAt c.target crc c.config.blockSize object start).length := by
    rw [hseq, hlength]
    exact UInt8.toNat_ofNat_of_lt (show _ < 256 by omega)
  have hnomore : ¬start + (segmentCount object - start) < segmentCount object := by omega
  rw [acknowledgement, Server.proceed_confirmBlock, Server.confirmBlock_whole h.faults hacked hb,
    hlength]
  exact if_neg hnomore

theorem ends_uploadBlocks (h : c.Setting lost srv switch)
    (hb : 0 < c.config.blockSize.toNat ∧ c.config.blockSize.toNat ≤ 127)
    (hcrc : crc = (c.config.useCrc && srv.crc))
    (hs : s.world.Rests srv
      (.uploadBlockInitiated (.blockAt c.target crc c.config.blockSize object 0)))
    (hbuffer : s.buffer = []) (hann : s.announced = some object.length)
    (hp : segmentCount object + s.retries < c.patience) :
    Ends (c.uploadBlocks srv.crc) s
      (fun v t => v = object ∧
        s.Finished lost srv (Traffic.blockUpload c.node object c.config.blockSize) t)
      (s.TimedOut lost srv.objects) := by
  have hstart : c.Awaited srv crc object 0 _ _ := awaited_startBlockUpload h
  rw [uploadBlocks]
  simp only [ends_bind]
  rw [send, ends_sendMessage h.link]
  simp only [ends_modify]
  refine Ends.mono (ends_receiveBlocks h hb (segmentCount_pos object) hstart
    (asked_send hs (Nat.le_refl _) (Nat.le_refl _) (Nat.le_refl _) (fun _ => rfl) hstart)
    (Nat.le_refl _) rfl hbuffer hp) ?_ fun e t he => he
  intro _ t hq
  obtain ⟨⟨i, frames, -, hi, hsmall, hacks, hreached, hseq, hfilled⟩, hann'⟩ := hq
  simp only [ends_get]
  have hregular : (c.acknowledgement t.seqno).Regular := .of_plain trivial
  have hchecked := checksum_stands srv.crc c.config.useCrc (Canopen.crc object)
  rw [← hcrc] at hchecked
  refine ends_exchange h hreached.2 (by simp) hregular
    (proceed_last_acknowledgement h hb hi hsmall hseq)
    (Response.regular_endBlockUpload object _) (fun w n d hr => ?_)
    fun e u he => he.trans hreached.1
  simp only [ends_bind, trim, ends_modify, ends_get, trim_filled object hfilled, hchecked,
    Bool.false_eq_true, if_false]
  rw [ends_checkSize (.inr (.inr (by rw [hann', hann])))]
  refine ends_sendEnd h (by exact hr.2) fun w' d' hfin => ⟨rfl, ?_⟩
  have hsent := (hfin.trans hr.1).trans hreached.1
  rw [Traffic.blockUpload, hacks, ← hseq]
  simp only [List.cons_append, List.append_assoc, List.nil_append] at hsent ⊢
  exact hsent

def initiation (c : Call Line) : Request :=
  .initiateBlockUpload c.config.useCrc c.target c.config.blockSize c.threshold

theorem ends_uploadBlock (h : c.Setting lost srv switch)
    (hb : 0 < c.config.blockSize.toNat ∧ c.config.blockSize.toNat ≤ 127)
    (hs : s.world.Rests srv state) (hst : ∀ t, state ≠ .downloadBlock t) (hfresh : s.Fresh)
    (hd : object.length < sizeLimit) (hp : segmentCount object + s.retries < c.patience)
    (hobject : srv.objects.get? c.target = some object) :
    Ends c.uploadBlock s
      (fun v t => v = object ∧ s.Finished lost srv
        (c.initiation.message c.node :: Traffic.switchedUpload c.node object switch
          c.config.blockSize c.threshold) t)
      (s.TimedOut lost srv.objects) := by
  have hregular : c.initiation.Regular := .of_plain trivial
  rw [uploadBlock]
  simp only [ends_bind]
  by_cases hw : switch = true ∧ object.length ≤ c.threshold.toNat
  · obtain ⟨rfl, hw'⟩ := hw
    refine ends_exchange_upload h hs hst hfresh hd (by omega)
      (fun k => Server.proceed_initiateBlockUpload_switched h.faults hobject hw') hregular
      (fun n e sized a d t ht => ?_) fun e t he => he
    simp only [ends_bind, ends_note h.link .debug]
    refine ht.mono ?_ fun e t he => he
    intro v t hq
    obtain ⟨hv, hreached⟩ := hq
    rw [Traffic.switchedUpload, if_pos ⟨rfl, hw'⟩]
    exact ⟨hv, hreached.finished⟩
  · have hsize : (UInt32.ofNat object.length).toNat = object.length :=
      UInt32.toNat_ofNat_of_lt hd
    refine ends_exchange h hs hst hregular
      (fun k => Server.proceed_initiateBlockUpload h.faults hobject hb hw)
      (.of_plain trivial) (fun w n d hr => ?_) fun e t he => he
    simp only [Response.announceBlocks, Option.isSome_some, Option.getD_some, if_true, ends_bind,
      ends_modify, hsize]
    refine Ends.after (ends_uploadBlocks h hb rfl hr.2 hfresh.buffer rfl ?_) hr.1 ?_
    · have hused : n ≤ s.retries := hr.1.used
      show segmentCount object + n < c.patience
      omega
    · intro v t hq
      obtain ⟨hv, hfin⟩ := hq
      rw [Traffic.switchedUpload, if_neg hw]
      exact ⟨hv, hfin.trans hr.1⟩

theorem ends_uploadBlock_missing (h : c.Setting lost srv switch) (hs : s.world.Rests srv state)
    (hst : ∀ t, state ≠ .downloadBlock t) (hmissing : srv.objects.get? c.target = none) :
    Ends c.uploadBlock s (fun _ _ => False)
      (fun e t => e = .failed (.serverAbort c.target (.known .noSuchObject)) ∧
          t.world.server.objects = srv.objects ∨ s.TimedOut lost srv.objects e t) := by
  have hregular : c.initiation.Regular := .of_plain trivial
  rw [uploadBlock]
  simp only [ends_bind]
  exact ends_exchange_missing h hs hst hregular
    fun k => Server.proceed_initiateBlockUpload_missing hmissing

end Client.Call

end Canopen
