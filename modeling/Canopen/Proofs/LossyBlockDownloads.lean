import Canopen.Proofs.BlockDownload
import Canopen.Proofs.Rereading

/-!
Block downloads on a line that loses frames of both sides. A server whose acknowledgement is lost
has left the block that the client still sends, so that it may take segments twice. What it may
have of the object by then is described by a family of block downloads that is kept by all that
can happen.
-/

set_option autoImplicit false

namespace Canopen

open Sdo

namespace Server

variable {srv s : Server} {data : List UInt8} {F : Nat → BlockDownload → Prop}
variable {start length q : Nat} {t : BlockDownload}

/-- The block downloads that a server may be in while the client sends the block that begins at
`start`. They are kept by the next segment, and when a block is full, whether the client comes to
know of that or not. -/
structure Drifts (srv : Server) (data : List UInt8) (F : Nat → BlockDownload → Prop) : Prop where
  accept : ∀ {start t}, F start t →
    t.seqno.toNat < min srv.blockSize.toNat (segmentCount data - start) →
    F start { t with
      seqno := UInt8.ofNat (t.seqno.toNat + 1)
      buffer := t.buffer ++ (padTo 7 (segmentBytes data (start + t.seqno.toNat))).toList }
  again : ∀ {start t}, F start t → t.seqno = srv.blockSize →
    start + srv.blockSize.toNat < segmentCount data → F start { t with seqno := 0 }
  next : ∀ {start t}, F start t → t.seqno = srv.blockSize →
    start + srv.blockSize.toNat < segmentCount data →
      F (start + srv.blockSize.toNat) { t with seqno := 0 }

def Filling (srv : Server) (F : Nat → BlockDownload → Prop) (start length : Nat) (s : Server) :
    Prop :=
  ∃ t k, s = srv.during (.downloadBlock t) k ∧ F start t ∧ t.seqno.toNat < length

def Filled (srv : Server) (F : Nat → BlockDownload → Prop) (start length : Nat) (s : Server) :
    Prop :=
  ∃ t k, s = srv.during (.endDownloadBlock t) k ∧ F start t ∧ t.seqno.toNat = length

def Behind (srv : Server) (data : List UInt8) (F : Nat → BlockDownload → Prop)
    (start length : Nat) (s : Server) : Prop :=
  if start + length = segmentCount data then srv.Filled F start length s
  else
    srv.Filling F (start + length)
      (min srv.blockSize.toNat (segmentCount data - (start + length))) s

def Pending (srv : Server) (data : List UInt8) (F : Nat → BlockDownload → Prop)
    (start length : Nat) (s : Server) : Prop :=
  srv.Filling F start length s ∨
    start + length = segmentCount data ∧ (srv.Filled F start length s ∨ srv.Spent length s)

theorem PastSegments.of_done (h : srv.Filled F start length s ∨ srv.Spent length s) :
    srv.PastSegments length s := by
  rcases h with ⟨t, k, rfl, -⟩ | hspent
  · exact ⟨srv.like_during _ _, .inl ⟨t, rfl⟩⟩
  · exact ⟨hspent.like, .inr hspent⟩

theorem Drifts.accept_segment (hF : srv.Drifts data F) (ht : F start t)
    (hl : length = min srv.blockSize.toNat (segmentCount data - start)) (hb : length < 256)
    (hlt : t.seqno.toNat < length) (h0 : 0 < q) (hq : q ≤ length) :
    let t' := t.accept (Client.blockSegment data (start + q - 1) (UInt8.ofNat q))
    F start t' ∧ t'.seqno.toNat = if q = t.seqno.toNat + 1 then q else t.seqno.toNat := by
  have hqn : (UInt8.ofNat q).toNat = q :=
    UInt8.toNat_ofNat_of_lt (Nat.lt_of_le_of_lt hq hb)
  simp only [BlockDownload.accept, Client.blockSegment, hqn]
  by_cases h : q = t.seqno.toNat + 1
  · have hi : start + q - 1 = start + t.seqno.toNat := by omega
    rw [if_pos h, if_pos h, hi, h]
    exact ⟨hF.accept ht (hl ▸ hlt), by rw [← h]; exact hqn⟩
  · rw [if_neg h, if_neg h]
    exact ⟨ht, rfl⟩

theorem Filling.inner (hF : srv.Drifts data F) (hf : srv.faults = { switchProtocol := false })
    (hb : srv.blockSize.toNat ≤ 127)
    (hl : length = min srv.blockSize.toNat (segmentCount data - start)) (h0 : 0 < q)
    (hq : q < length) (hs : srv.Filling F start length s) :
    let r := s.handle
      ((Client.blockSegment data (start + q - 1) (UInt8.ofNat q)).message .client srv.node)
    r.frames = [] ∧ srv.Filling F start length r.device := by
  obtain ⟨t, k, rfl, ht, hlt⟩ := hs
  obtain ⟨ht', hseqno⟩ := hF.accept_segment ht hl (by omega) hlt h0 (Nat.le_of_lt hq)
  rw [handle_segment_inside hf hb hl h0 hq]
  refine ⟨rfl, _, k + 1, rfl, ht', ?_⟩
  rw [hseqno]
  split
  · exact hq
  · exact hlt

theorem Filling.last (hF : srv.Drifts data F) (hf : srv.faults = { switchProtocol := false })
    (hb : srv.blockSize.toNat ≤ 127)
    (hl : length = min srv.blockSize.toNat (segmentCount data - start)) (h0 : 0 < length)
    (hs : srv.Filling F start length s) :
    let r := s.handle ((Client.blockSegment data (start + length - 1) (UInt8.ofNat length)).message
      .client srv.node)
    ∃ y : UInt8, r.frames = [(Response.confirmBlock y srv.blockSize).message srv.node] ∧
      srv.Pending data F start length r.device ∧
        (y.toNat < length ∧ srv.Filling F start length r.device ∨
          y.toNat = length ∧ srv.Behind data F start length r.device) := by
  obtain ⟨t, k, rfl, ht, hlt⟩ := hs
  obtain ⟨ht', hseqno⟩ := hF.accept_segment ht hl (by omega) hlt h0 (Nat.le_refl _)
  rw [handle_segment_at_end hf hb hl h0]
  generalize t.accept _ = t' at ht' hseqno
  refine ⟨t'.seqno, rfl, ?_⟩
  dsimp only
  by_cases h : length = t.seqno.toNat + 1
  · rw [if_pos h] at hseqno
    by_cases hc : start + length = segmentCount data
    -- That was the last segment of all.
    · have hfilled : srv.Filled F start length (srv.during (.endDownloadBlock t') (k + 1)) :=
        ⟨t', k + 1, rfl, ht', hseqno⟩
      rw [if_pos ⟨h, hc⟩]
      refine ⟨.inr ⟨hc, .inl hfilled⟩, .inr ⟨hseqno, ?_⟩⟩
      rw [Behind, if_pos hc]
      exact hfilled
    · have hblock : srv.blockSize.toNat = length := by omega
      have hseq : t'.seqno = srv.blockSize := UInt8.toNat_inj.mp (hseqno.trans hblock.symm)
      rw [if_neg fun h' => hc h'.2, if_pos hseq]
      have hmore : start + srv.blockSize.toNat < segmentCount data := by omega
      refine ⟨.inl ⟨_, k + 1, rfl, hF.again ht' hseq hmore, h0⟩, .inr ⟨hseqno, ?_⟩⟩
      rw [Behind, if_neg hc]
      refine ⟨_, k + 1, rfl, ?_, ?_⟩
      · rw [← hblock]
        exact hF.next ht' hseq hmore
      · show 0 < _
        omega
  -- A segment before the last one of the block is missing.
  · rw [if_neg h] at hseqno
    have hseq : t'.seqno ≠ srv.blockSize := by
      intro he
      rw [he] at hseqno
      omega
    have hfilling : srv.Filling F start length (srv.during (.downloadBlock t') (k + 1)) :=
      ⟨t', k + 1, rfl, ht', by omega⟩
    rw [if_neg fun h' => h h'.1, if_neg hseq]
    exact ⟨.inl hfilling, .inl ⟨by omega, hfilling⟩⟩

theorem handle_initiation (hf : srv.faults = { switchProtocol := false })
    (hd : data.length < Client.sizeLimit) (k : Nat) (crc : Bool) (a : Address) :
    (srv.during .idle k).handle
        ((Request.initiateBlockDownload crc true a (UInt32.ofNat data.length)).message srv.node) =
      { frames := [(Response.confirmBlockDownload srv.crc a srv.blockSize).message srv.node]
        device := srv.during (.downloadBlock (.upTo a (crc && srv.crc) data 0 0)) (k + 1) } := by
  have hsize : (UInt32.ofNat data.length).toNat = data.length := UInt32.toNat_ofNat_of_lt hd
  have hregular : (Request.initiateBlockDownload crc true a (UInt32.ofNat data.length)).Regular :=
    .of_plain trivial
  rw [handle_request hf (by simp) hregular, proceed_initiateBlockDownload, hsize]
  rfl

/-- The start of a block download is read as a segment when it comes again, as one out of order. -/
theorem handle_initiation_again (hf : srv.faults = { switchProtocol := false })
    (ht : t.seqno = 0) (k : Nat) (crc : Bool) (a : Address) (size : UInt32) :
    (srv.during (.downloadBlock t) k).handle
        ((Request.initiateBlockDownload crc true a size).message srv.node) =
      { frames := [(Response.confirmBlock 0 srv.blockSize).message srv.node]
        device := srv.during (.downloadBlock t) (k + 1) } := by
  let r := Request.initiateBlockDownload crc true a size
  have hhead : (r.message srv.node).data.get 0 ≠ 0x80 :=
    (Request.Regular.of_plain (r := r) trivial).message_head_ne_abort srv.node
  have hsegment : BlockSegment.ofMessage (r.message srv.node)
      = .ok (BlockSegment.ofPayload r.toBytes) :=
    BlockSegment.ofMessage_request srv.node trivial trivial
  have hcommand : r.toBytes.get 0
      = Request.command .blockDownload (Command.bit crc 2 ||| Command.bit true 1) := rfl
  have hlast : (BlockSegment.ofPayload r.toBytes).last = true := by
    rw [BlockSegment.ofPayload, hcommand]
    dsimp only
    cases crc <;> decide
  have hnot : ¬(BlockSegment.ofPayload r.toBytes).seqno.toNat = t.seqno.toNat + 1 := by
    rw [BlockSegment.ofPayload, hcommand, ht]
    dsimp only
    cases crc <;> decide
  have haccept : t.accept (BlockSegment.ofPayload r.toBytes) = t := if_neg hnot
  have hsame : (if t.seqno = srv.blockSize then .downloadBlock { t with seqno := 0 }
      else State.downloadBlock t) = .downloadBlock t := by
    rw [← ht, ite_self]
  rw [handle_eq_read hf (r.message_id srv.node), read]
  simp only [during]
  rw [if_neg hhead, readSegment, hsegment]
  refine (blockSegment_last hf (t := t) (.inr hlast)).trans ?_
  rw [haccept, if_neg fun h => hnot h.1, hsame, ht]
  rfl

end Server

namespace Client.Call

open Transfer

variable {x : Losses} {c : Call Line} {s : Session Line} {srv : Server} {data : List UInt8}
variable {F : Nat → Server.BlockDownload → Prop} {start length first n : Nat}

/-- A block download on a line that may lose anything, by what the server may have from frame
number `n` on. A download that starts by mistake matters if its answer can be lost. -/
structure Drifting (c : Call Line) (x : Losses) (srv : Server) (data : List UInt8)
    (F : Nat → Server.BlockDownload → Prop) (n : Nat) : Prop extends c.Exposed x srv where
  drifts : srv.Drifts data F
  restart : ∀ i, n ≤ i → x.answer i 0 = true → ∀ {start t}, F start t →
    start + t.seqno.toNat = segmentCount data → t.seqno.toNat ≤ srv.blockSize.toNat →
      Restarts t.seqno.toNat →
        F start (srv.restarted (blockSegment data (segmentCount data - 1) t.seqno))

def Acknowledges (srv : Server) (data : List UInt8) (F : Nat → Server.BlockDownload → Prop)
    (start length : Nat) (q : Response) (s : Server) : Prop :=
  ∀ y size, q = .confirmBlock y size → size = srv.blockSize ∧
    (y.toNat < length ∧ srv.Filling F start length s ∨
      y.toNat = length ∧ srv.Behind data F start length s)

theorem ends_checkBlockSize_lossy (hc : c.link = Line.link x) {value : UInt8}
    {Q : BlockSize → Session Line → Prop} (fits : ∀ b, b.value = value → Q b s) :
    Ends (c.checkBlockSize value) s Q fun _ _ => True := by
  rw [checkBlockSize, BlockSize.ofByte?]
  split
  · rename_i b hb
    split at hb
    · cases hb
      exact fits _ rfl
    · cases hb
  · exact ends_abandon hc _ _

theorem ends_sendBlockSegments_by (hc : c.link = Line.link x) {K : Nat → Nat → Server → Prop}
    {count : Nat}
    (step : ∀ q i t, first ≤ q → q < first + count → K q i t →
      (x.request i = true → K (q + 1) (i + 1) t) ∧
        (x.request i = false →
          let r := t.handle
            ((blockSegment data (start + q - 1) (UInt8.ofNat q)).message .client c.node)
          r.frames = [] ∧ K (q + 1) (i + 1) r.device))
    (hi : s.world.inbox = []) (hK : K first s.world.sent.length s.world.server)
    {Q : Unit → Session Line → Prop} {E : Stop → Session Line → Prop}
    (goes : ∀ w d, w.inbox = [] → K (first + count) w.sent.length w.server →
      Q () { s with world := w, deadline := d }) :
    Ends ((List.range' first count).forM (c.sendBlockSegment data start)) s Q E := by
  induction count generalizing first s with
  | zero => exact goes s.world s.deadline hi hK
  | succ count ih =>
    rw [List.range'_succ, List.forM_eq_forM, List.forM_cons, ends_bind, sendBlockSegment,
      sendSegment, ends_sendMessage hc]
    generalize hm : (blockSegment data (start + first - 1) (UInt8.ofNat first)).message .client
      c.node = m
    obtain ⟨hlost, htaken⟩ := step first _ _ (Nat.le_refl _) (by omega) hK
    rw [hm] at htaken
    have hsent : (s.world.send x m).inbox = [] ∧
        K (first + 1) (s.world.send x m).sent.length (s.world.send x m).server := by
      rw [Line.sent_send, List.length_append]
      cases hrequest : x.request s.world.sent.length with
      | true =>
        rw [Line.send_of_lost hrequest]
        exact ⟨hi, hlost hrequest⟩
      | false =>
        obtain ⟨ws, hsend⟩ := Line.send_delivered (m := m) hrequest
        obtain ⟨hframes, hnext⟩ := htaken hrequest
        rw [hsend, hframes, hi]
        exact ⟨rfl, hnext⟩
    refine ih (fun q i t hq hlt => step q i t (by omega) (by omega)) hsent.1 hsent.2
      fun w d hi' hK' => ?_
    have hcount : first + 1 + count = first + (count + 1) := by omega
    rw [hcount] at hK'
    exact goes w d hi' hK'

/-- A round of a block: the segments from number `first` on, and what is done about the answer. -/
theorem ends_downloadBlockFrom_round (hc : c.link = Line.link x)
    {K : Nat → Nat → Server → Prop} {P : Nat → Server → Prop} {G : Response → Nat → Server → Prop}
    {rounds : Nat} (hfirst : 1 ≤ first) (hle : first ≤ length)
    (step : ∀ q i t, first ≤ q → q < length → K q i t →
      (x.request i = true → K (q + 1) (i + 1) t) ∧
        (x.request i = false →
          let r := t.handle
            ((blockSegment data (start + q - 1) (UInt8.ofNat q)).message .client c.node)
          r.frames = [] ∧ K (q + 1) (i + 1) r.device))
    (last : ∀ i t, K length i t → P i t)
    (meets : ∀ i t, P i t → Line.Meets x c.node P G
      ((blockSegment data (start + length - 1) (UInt8.ofNat length)).message .client c.node) i t)
    (hi : s.world.inbox = []) (hK : K first s.world.sent.length s.world.server)
    {Q : BlockSize → Session Line → Prop}
    (again : ∀ y size w n d, w.inbox = [] → y.toNat < length →
      G (.confirmBlock y size) w.sent.length w.server →
        Ends (c.downloadBlockFrom data start length (y.toNat + 1) rounds)
          { s with world := w, retries := n, deadline := d } Q fun _ _ => True)
    (done : ∀ y next w n d, w.inbox = [] → y.toNat = length →
      G (.confirmBlock y (BlockSize.value next)) w.sent.length w.server →
        Q next { s with world := w, retries := n, deadline := d }) :
    Ends (c.downloadBlockFrom data start length first (rounds + 1)) s Q fun _ _ => True := by
  obtain ⟨j, rfl⟩ := Nat.exists_eq_add_of_le' hfirst
  have hcount : j + 1 + (length - 1 - j) = length := by omega
  rw [downloadBlockFrom, Traffic.forM_behind hle]
  simp only [ends_bind]
  refine ends_sendBlockSegments_by hc (fun q i t hq hlt => step q i t hq (by omega)) hi hK ?_
  intro w d hi' hK'
  rw [hcount] at hK'
  refine ends_ask_lossy (s := { s with world := w, deadline := d }) hc hi' (last _ _ hK') meets ?_
  intro q w n d hi'' hq
  cases q with
  | confirmBlock y size =>
    dsimp only
    split
    · exact ends_abandon hc _ _
    · split
      · rename_i heq
        refine ends_checkBlockSize_lossy hc fun next hnext => ?_
        rw [← hnext] at hq
        exact done y next w n d hi'' heq hq
      · rw [ends_bind, ends_note hc .debug]
        exact again y size w n d hi'' (by omega) hq
  | _ => exact ends_unexpected_lossy hc _

section
variable (h : c.Drifting x srv data F n) (hb : srv.blockSize.toNat ≤ 127)
  (hl : length = min srv.blockSize.toNat (segmentCount data - start)) (h0 : 0 < length)
include h hb hl h0

theorem filling_meets {i : Nat} {t : Server} (hi : n ≤ i) (ht : srv.Filling F start length t) :
    Line.Meets x c.node (fun i t => n ≤ i ∧ srv.Pending data F start length t)
      (fun q i t => n ≤ i ∧ Acknowledges srv data F start length q t)
      ((blockSegment data (start + length - 1) (UInt8.ofNat length)).message .client c.node)
      i t := by
  refine ⟨fun _ => ⟨Nat.le_succ_of_le hi, .inl ht⟩, fun _ => ?_⟩
  rw [h.node]
  obtain ⟨y, hframes, hpending, hy⟩ := ht.last h.drifts h.faults hb hl h0
  refine .inr ⟨_, hframes, fun _ => ⟨Nat.le_succ_of_le hi, hpending⟩, fun _ =>
    .inr ⟨.of_plain trivial, Nat.le_succ_of_le hi, ?_⟩⟩
  intro y' size hq
  cases hq
  exact ⟨rfl, hy⟩

theorem done_meets {i : Nat} {t : Server} (hi : n ≤ i) (hc : start + length = segmentCount data)
    (hdone : srv.Filled F start length t ∨ srv.Spent length t) :
    Line.Meets x c.node (fun i t => n ≤ i ∧ srv.Pending data F start length t)
      (fun q i t => n ≤ i ∧ Acknowledges srv data F start length q t)
      ((blockSegment data (start + length - 1) (UInt8.ofNat length)).message .client c.node)
      i t := by
  have hqn : (UInt8.ofNat length).toNat = length := UInt8.toNat_ofNat_of_lt (show _ < 256 by omega)
  have hlast : (blockSegment data (start + length - 1) (UInt8.ofNat length)).last = true :=
    decide_eq_true (by omega)
  have hnumber : (blockSegment data (start + length - 1) (UInt8.ofNat length)).seqno.toNat
      = length := hqn
  have hpast := Server.PastSegments.of_done hdone
  have hagain := Server.handle_last_again h.faults hlast (by omega) (by rwa [hnumber])
  rw [hpast.1.node, hnumber] at hagain
  refine ⟨fun _ => ⟨Nat.le_succ_of_le hi, .inr ⟨hc, hdone⟩⟩, fun _ => ?_⟩
  rw [h.node]
  rcases hagain with ⟨hframes, hdevice⟩ | ⟨q, hframes, hq, hdevice⟩
  · refine .inl ⟨hframes, Nat.le_succ_of_le hi, .inr ⟨hc, ?_⟩⟩
    rcases hdevice with hsame | hspent
    · rw [hsame]
      rcases hdone with ⟨t, k, rfl, ht⟩ | hspent
      · exact .inl ⟨t, k + 1, rfl, ht⟩
      · exact .inr (hspent.during _)
    · exact .inr hspent
  · refine .inr ⟨q, hframes, fun hunheard => ⟨Nat.le_succ_of_le hi, ?_⟩, fun _ =>
      hq.imp_right fun hq => ⟨hq.1, Nat.le_succ_of_le hi, fun y size hy => absurd hy (hq.2 y size)⟩⟩
    rcases hdevice with hspent | ⟨hrestarts, hrestart⟩
    · exact .inr ⟨hc, .inr hspent⟩
    · rcases hdone with ⟨t, k, rfl, ht, hseqno⟩ | hspent
      · have hrestarted := h.restart i hi hunheard ht (by omega) (by omega) (by rwa [hseqno])
        have hsegment : blockSegment data (start + length - 1) (UInt8.ofNat length)
            = blockSegment data (segmentCount data - 1) t.seqno := by
          rw [hc, ← hseqno, UInt8.ofNat_toNat]
        rw [hrestart, hsegment]
        exact .inl ⟨_, k + 1, rfl, hrestarted, h0⟩
      · exact absurd hrestarts hspent.goes

theorem pending_meets {i : Nat} {t : Server} (ht : n ≤ i ∧ srv.Pending data F start length t) :
    Line.Meets x c.node (fun i t => n ≤ i ∧ srv.Pending data F start length t)
      (fun q i t => n ≤ i ∧ Acknowledges srv data F start length q t)
      ((blockSegment data (start + length - 1) (UInt8.ofNat length)).message .client c.node)
      i t := by
  obtain ⟨hi, hfilling | ⟨hc, hdone⟩⟩ := ht
  · exact filling_meets h hb hl h0 hi hfilling
  · exact done_meets h hb hl h0 hi hc hdone

theorem ends_downloadBlockFrom_lossy {rounds : Nat} (hfirst : 1 ≤ first) (hle : first ≤ length)
    (hi : s.world.inbox = []) (hn : n ≤ s.world.sent.length)
    (hs : srv.Filling F start length s.world.server) :
    Ends (c.downloadBlockFrom data start length first rounds) s
      (fun next t => next.value = srv.blockSize ∧ t.world.inbox = [] ∧ n ≤ t.world.sent.length ∧
        srv.Behind data F start length t.world.server) fun _ _ => True := by
  -- On the rounds left. Wherever the client goes on, the server is filling the block.
  induction rounds generalizing first s with
  | zero => trivial
  | succ rounds ih =>
    refine ends_downloadBlockFrom_round h.link
      (K := fun _ i t => n ≤ i ∧ srv.Filling F start length t) hfirst hle ?_
      (fun i t ht => ⟨ht.1, .inl ht.2⟩) (fun i t => pending_meets h hb hl h0) hi ⟨hn, hs⟩ ?_ ?_
    · rintro q i t hq hlt ⟨hi, ht⟩
      refine ⟨fun _ => ⟨Nat.le_succ_of_le hi, ht⟩, fun _ => ?_⟩
      rw [h.node]
      have hinner := ht.inner (q := q) h.drifts h.faults hb hl (by omega) (by omega)
      exact ⟨hinner.1, Nat.le_succ_of_le hi, hinner.2⟩
    · rintro y size w r d hi' hlt ⟨hn', hy⟩
      obtain ⟨-, ⟨-, hfilling⟩ | ⟨heq, -⟩⟩ := hy y size rfl
      · exact ih (Nat.le_add_left 1 _) hlt hi' hn' hfilling
      · omega
    · rintro y next w r d hi' heq ⟨hn', hy⟩
      obtain ⟨hsize, ⟨hlt, -⟩ | ⟨-, hbehind⟩⟩ := hy y next.value rfl
      · omega
      · exact ⟨hsize, hi', hn', hbehind⟩

end

theorem ends_downloadBlocks_lossy (h : c.Drifting x srv data F n) {size : BlockSize}
    (hsize : size.value = srv.blockSize) (hlt : start < segmentCount data)
    (hi : s.world.inbox = []) (hn : n ≤ s.world.sent.length)
    (hs : srv.Filling F start (min srv.blockSize.toNat (segmentCount data - start))
      s.world.server) :
    Ends (c.downloadBlocks data start size) s
      (fun _ t => t.world.inbox = [] ∧ n ≤ t.world.sent.length ∧
        ∃ start length, start + length = segmentCount data ∧ 0 < length ∧
          length ≤ srv.blockSize.toNat ∧ srv.Filled F start length t.world.server)
      fun _ _ => True := by
  -- On the number of segments left.
  induction hk : segmentCount data - start using Nat.strongRecOn generalizing s start size with
  | ind k ih =>
    have hpos := size.pos
    have hle := size.le
    have hb : size.value.toNat = srv.blockSize.toNat := congrArg UInt8.toNat hsize
    generalize hlength : min srv.blockSize.toNat (segmentCount data - start) = length at hs
    refine ends_downloadBlocks_step h.link hlt (hb ▸ hlength) ?_
    refine Ends.mono (ends_downloadBlockFrom_lossy h (by omega) hlength.symm (by omega)
      (Nat.le_refl 1) (by omega) hi hn hs) ?_ fun _ _ he => he
    rintro next t ⟨hnext, hi', hn', hbehind⟩
    rw [Server.Behind] at hbehind
    split at hbehind
    · rename_i hend
      rw [ends_downloadBlocks_behind (Nat.le_of_eq hend.symm)]
      exact ⟨hi', hn', start, length, hend, by omega, by omega, hbehind⟩
    · rename_i hend
      exact ih _ (by omega) hnext (by omega) hi' hn' hbehind rfl

theorem ends_endBlockDownload_lossy (h : c.Exposed x srv) {t : Server.BlockDownload} {k : Nat}
    (hi : s.world.inbox = []) (hs : s.world.server = srv.during (.endDownloadBlock t) k)
    {unused : UInt8} {checksum : UInt16} (hr : (Request.endBlockDownload unused checksum).Regular) :
    Ends (c.exchange (.endBlockDownload unused checksum)) s
      (fun q u => q = .confirmBlockDownloadEnd → ∃ object k,
        object = t.buffer.take (t.buffer.length - unused.toNat) ∧
          t.size.all (· = object.length) = true ∧
            u.world.server = (srv.store t.target object).during .idle k) fun _ _ => True := by
  rw [exchange]
  simp only [ends_bind]
  refine ends_ask_lossy h.link
    (P := fun _ u => (∃ k, u = srv.during (.endDownloadBlock t) k) ∨ srv.Like u ∧ u.state = .idle)
    (G := fun q _ u => q = .confirmBlockDownloadEnd → ∃ object k,
      object = t.buffer.take (t.buffer.length - unused.toNat) ∧
        t.size.all (· = object.length) = true ∧
          u = (srv.store t.target object).during .idle k) hi (.inl ⟨k, hs⟩) ?_
    fun q w r d _ hq => hq
  intro i u hu
  refine ⟨fun _ => hu, fun _ => .inr ?_⟩
  -- The end comes for the first time, or again to a server that is idle since.
  rcases hu with ⟨k, rfl⟩ | ⟨hlike, hidle⟩
  · have hhandle : (srv.during (.endDownloadBlock t) k).handle
        ((Request.endBlockDownload unused checksum).message srv.node)
        = (srv.during .idle (k + 1)).endBlockDownload t unused checksum :=
      Server.handle_request h.faults (by simp) hr
    rw [h.node, hhandle, Server.endBlockDownload]
    have hlike := srv.like_during .idle (k + 1)
    split
    · exact ⟨_, rfl, fun _ => .inr ⟨⟨rfl, rfl⟩, rfl⟩, fun _ => .inl ⟨_, _, rfl⟩⟩
    · split
      · rename_i hsize
        exact ⟨_, rfl, fun _ => .inr ⟨⟨rfl, rfl⟩, rfl⟩,
          fun _ => .inr ⟨.of_plain trivial, fun _ => ⟨_, k + 1, rfl, hsize, rfl⟩⟩⟩
      · exact ⟨_, rfl, fun _ => .inr ⟨⟨rfl, rfl⟩, rfl⟩, fun _ => .inl ⟨_, _, rfl⟩⟩
  · have hfaults : u.faults = { switchProtocol := false } := hlike.faults.trans h.faults
    have hhandle : ∃ effects, u.handle ((Request.endBlockDownload unused checksum).message u.node) =
        { (u.during .idle (u.received + 1)).refuse ⟨0, 0⟩ .invalidCommandSpecifier with
          effects } := by
      rw [Server.handle_regular hfaults (by simp [hidle]) hr, hidle]
      exact ⟨_, rfl⟩
    obtain ⟨effects, hhandle⟩ := hhandle
    rw [h.node.trans hlike.node.symm, hhandle]
    exact ⟨_, rfl, fun _ => .inr ⟨⟨hlike.node, hlike.faults⟩, rfl⟩,
      fun _ => .inl ⟨_, _, rfl⟩⟩

/-- The start of a block download. Once the server has answered it, nothing else answers it so. -/
theorem ends_initiateBlockDownload_lossy (h : c.Exposed x srv) (hs : s.world.Rests srv .idle)
    (hd : data.length < sizeLimit)
    {Q : Response → Session Line → Prop}
    (heard : ∀ w n d k serverCrc a, w.inbox = [] → w.server = srv.during (.downloadBlock
        (.upTo c.target (c.config.useCrc && srv.crc) data 0 0)) k →
      Q (.confirmBlockDownload serverCrc a srv.blockSize)
        { s with world := w, retries := n, deadline := d })
    (other : ∀ q t, (∀ serverCrc a size, q ≠ .confirmBlockDownload serverCrc a size) → Q q t) :
    Ends (c.exchange (.initiateBlockDownload c.config.useCrc true c.target
      (UInt32.ofNat data.length))) s Q fun _ _ => True := by
  obtain ⟨hi, k, hk⟩ := hs
  rw [exchange]
  simp only [ends_bind]
  let started := Server.BlockDownload.upTo c.target (c.config.useCrc && srv.crc) data 0 0
  refine ends_ask_lossy h.link
    (P := fun _ t => ∃ k, t = srv.during .idle k ∨ t = srv.during (.downloadBlock started) k)
    (G := fun q _ t => (∃ serverCrc a, q = .confirmBlockDownload serverCrc a srv.blockSize) ∧
        (∃ k, t = srv.during (.downloadBlock started) k) ∨
      ∀ serverCrc a size, q ≠ .confirmBlockDownload serverCrc a size) hi ⟨k, .inl hk⟩ ?_ ?_
  · rintro n t ⟨k, ht⟩
    refine ⟨fun _ => ⟨k, ht⟩, fun _ => .inr ?_⟩
    rcases ht with rfl | rfl
    · rw [h.node, Server.handle_initiation h.faults hd]
      exact ⟨_, rfl, fun _ => ⟨k + 1, .inr rfl⟩,
        fun _ => .inr ⟨.of_plain trivial, .inl ⟨⟨_, _, rfl⟩, k + 1, rfl⟩⟩⟩
    · rw [h.node, Server.handle_initiation_again h.faults rfl]
      exact ⟨_, rfl, fun _ => ⟨k + 1, .inr rfl⟩,
        fun _ => .inr ⟨.of_plain trivial, .inr (by simp)⟩⟩
  · rintro q w n d hi' (⟨⟨serverCrc, a, rfl⟩, k, hk⟩ | hother)
    · exact heard w n d k serverCrc a hi' hk
    · exact other q _ hother

theorem ends_downloadBlock_lossy (h : c.Drifting x srv data F 0) (hs : s.world.Rests srv .idle)
    (hd : data.length < sizeLimit)
    (hstart : F 0 (.upTo c.target (c.config.useCrc && srv.crc) data 0 0)) :
    Ends (c.downloadBlock data) s
      (fun _ u => ∃ start length t object k, start + length = segmentCount data ∧ 0 < length ∧
        length ≤ srv.blockSize.toNat ∧ F start t ∧ t.seqno.toNat = length ∧
          object = t.buffer.take (t.buffer.length
            - (segmentCount data * segmentSize - data.length)) ∧
          t.size.all (· = object.length) = true ∧
            u.world.server = (srv.store t.target object).during .idle k)
      fun _ _ => True := by
  rw [downloadBlock]
  simp only [ends_bind, ends_modify]
  refine ends_initiateBlockDownload_lossy (s := { s with announced := some data.length })
    h.toExposed hs hd ?_ ?_
  · intro w n d k serverCrc a hi hk
    simp only [ends_bind]
    refine ends_checkBlockSize_lossy h.link fun size hsize => ?_
    have hpos := size.pos
    have hcount := segmentCount_pos data
    have hblock : size.value.toNat = srv.blockSize.toNat := congrArg UInt8.toNat hsize
    have hfilling : srv.Filling F 0 (min srv.blockSize.toNat (segmentCount data - 0)) w.server := by
      refine ⟨_, k, hk, hstart, ?_⟩
      show 0 < _
      omega
    refine (ends_downloadBlocks_lossy h hsize hcount hi (Nat.zero_le _) hfilling).mono ?_
      fun _ _ he => he
    rintro _ u ⟨hi', -, start, length, hend, h0, hle, t, k, hk, ht, hseqno⟩
    refine (ends_endBlockDownload_lossy h.toExposed hi' hk
      (Traffic.regular_endBlockDownload data _)).mono ?_ fun _ _ he => he
    intro q v hq
    cases q with
    | confirmBlockDownloadEnd =>
      obtain ⟨object, k, hobject, hfits, hserver⟩ := hq rfl
      rw [toNat_unused] at hobject
      exact ends_checkSize_lossy h.link fun _ =>
        ⟨start, length, t, object, k, hend, h0, hle, ht, hseqno, hobject, hfits, hserver⟩
    | _ => exact ends_unexpected_lossy h.link _
  · intro q t hq
    cases q with
    | confirmBlockDownload serverCrc a size => exact absurd rfl (hq serverCrc a size)
    | _ => exact ends_unexpected_lossy h.link _

end Client.Call
end Canopen
