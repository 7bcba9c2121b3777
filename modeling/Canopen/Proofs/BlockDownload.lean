import Canopen.Proofs.Downloads

/-!
Block downloads on a line that loses requests. The server takes the segments of a block in order
only, so that what it has is always a beginning of the object, and the client goes on behind the
last segment that the server has.
-/

set_option autoImplicit false

namespace Canopen

open Can (Message)
open Sdo

namespace Server

def BlockDownload.upTo (a : Address) (crc : Bool) (data : List UInt8) (start j : Nat) :
    BlockDownload :=
  { target := a, size := some data.length, crc, seqno := UInt8.ofNat j
    buffer := filled data (start + j) }

def State.behindBlock (a : Address) (crc : Bool) (data : List UInt8) (start length : Nat) :
    State :=
  if start + length = segmentCount data then .endDownloadBlock (.upTo a crc data start length)
  else .downloadBlock (.upTo a crc data (start + length) 0)

variable {s : Server} {switch : Bool} {k : Nat} {a : Address} {crc : Bool} {data : List UInt8}
variable {start length q j : Nat}

theorem BlockDownload.accept_upTo (h0 : 0 < q) (hq : q < 256) (hj : j < 256) :
    (BlockDownload.upTo a crc data start j).accept
        (Client.blockSegment data (start + q - 1) (UInt8.ofNat q)) =
      .upTo a crc data start (if q = j + 1 then q else j) := by
  have hqn : (UInt8.ofNat q).toNat = q := UInt8.toNat_ofNat_of_lt hq
  have hjn : (UInt8.ofNat j).toNat = j := UInt8.toNat_ofNat_of_lt hj
  simp only [accept, upTo, Client.blockSegment, hqn, hjn]
  by_cases h : q = j + 1
  · subst h
    have hi : start + (j + 1) - 1 = start + j := by omega
    rw [if_pos rfl, if_pos rfl, hi, ← Nat.add_assoc, filled_succ]
  · rw [if_neg h, if_neg h]

theorem proceed_endBlockDownload_upTo (h : start + length = segmentCount data) (useCrc : Bool) :
    (s.during (.endDownloadBlock (.upTo a (useCrc && s.crc) data start length)) k).proceed
        (.endBlockDownload (UInt8.ofNat (segmentCount data * segmentSize - data.length))
          (if s.crc && useCrc then Canopen.crc data else 0)) =
      { frames := [Response.confirmBlockDownloadEnd.message s.node]
        device := (s.store a data).during .idle k } := by
  refine proceed_endBlockDownload (trim_filled data ?_) rfl fun hcrc => ?_
  · rw [BlockDownload.upTo, h]
  · have hboth : (s.crc && useCrc) = true := (Bool.and_comm _ _).trans hcrc
    exact if_pos hboth

section
variable {t : BlockDownload} (hf : s.faults = { switchProtocol := switch })
  (hb : s.blockSize.toNat ≤ 127) (hl : length = min s.blockSize.toNat (segmentCount data - start))

include hl in
theorem blockSize_or_last (h0 : 0 < length) :
    UInt8.ofNat length = s.blockSize ∨ start + length = segmentCount data := by
  by_cases h : s.blockSize.toNat ≤ segmentCount data - start
  · left
    rw [hl, Nat.min_eq_left h, UInt8.ofNat_toNat]
  · right
    omega

include hf hb hl

theorem handle_segment_inside (h0 : 0 < q) (hq : q < length) :
    (s.during (.downloadBlock t) k).handle
        ((Client.blockSegment data (start + q - 1) (UInt8.ofNat q)).message .client s.node) =
      { device := s.during (.downloadBlock
          (t.accept (Client.blockSegment data (start + q - 1) (UInt8.ofNat q)))) (k + 1) } := by
  have hqn : (UInt8.ofNat q).toNat = q := UInt8.toNat_ofNat_of_lt (show _ < 256 by omega)
  have hne : UInt8.ofNat q ≠ s.blockSize := by
    intro he
    rw [he] at hqn
    omega
  have hlast : decide (start + q - 1 + 1 = segmentCount data) = false :=
    decide_eq_false (by omega)
  rw [handle_segment hf (by rw [Client.blockSegment, hqn]; exact h0)
    (by rw [Client.blockSegment, hqn]; omega), blockSegment_inner hf hne hlast]

theorem handle_segment_at_end (h0 : 0 < length) :
    let t' := t.accept (Client.blockSegment data (start + length - 1) (UInt8.ofNat length))
    (s.during (.downloadBlock t) k).handle
        ((Client.blockSegment data (start + length - 1) (UInt8.ofNat length)).message .client
          s.node) =
      { frames := [(Response.confirmBlock t'.seqno s.blockSize).message s.node]
        device := s.during
          (if length = t.seqno.toNat + 1 ∧ start + length = segmentCount data then
            .endDownloadBlock t'
          else if t'.seqno = s.blockSize then .downloadBlock { t' with seqno := 0 }
          else .downloadBlock t') (k + 1) } := by
  have hqn : (UInt8.ofNat length).toNat = length := UInt8.toNat_ofNat_of_lt (show _ < 256 by omega)
  have hlast : start + length - 1 + 1 = segmentCount data ↔ start + length = segmentCount data := by
    omega
  have hend : UInt8.ofNat length = s.blockSize ∨
      decide (start + length - 1 + 1 = segmentCount data) = true :=
    (blockSize_or_last hl h0).imp_right fun h => decide_eq_true (hlast.mpr h)
  have hlast' : (Client.blockSegment data (start + length - 1) (UInt8.ofNat length)).last = true ↔
      start + length = segmentCount data := by
    rw [Client.blockSegment, decide_eq_true_eq, hlast]
  have hnumber : (Client.blockSegment data (start + length - 1) (UInt8.ofNat length)).seqno.toNat
      = length := hqn
  rw [handle_segment hf (by rw [hnumber]; exact h0) (by rw [hnumber]; omega),
    blockSegment_last hf hend]
  simp only [hnumber, hlast']

end

theorem handle_inner_segment (hf : s.faults = { switchProtocol := switch })
    (hb : s.blockSize.toNat ≤ 127) (hl : length = min s.blockSize.toNat (segmentCount data - start))
    (h0 : 0 < q) (hq : q < length) (hj : j < length) :
    (s.during (.downloadBlock (.upTo a crc data start j)) k).handle
        ((Client.blockSegment data (start + q - 1) (UInt8.ofNat q)).message .client s.node) =
      { device := s.during
          (.downloadBlock (.upTo a crc data start (if q = j + 1 then q else j))) (k + 1) } := by
  rw [handle_segment_inside hf hb hl h0 hq,
    BlockDownload.accept_upTo h0 (by omega) (by omega)]

theorem handle_last_segment (hf : s.faults = { switchProtocol := switch })
    (hb : s.blockSize.toNat ≤ 127) (hl : length = min s.blockSize.toNat (segmentCount data - start))
    (hj : j < length) :
    (s.during (.downloadBlock (.upTo a crc data start j)) k).handle
        ((Client.blockSegment data (start + length - 1) (UInt8.ofNat length)).message .client
          s.node) =
      { frames := [(Response.confirmBlock (UInt8.ofNat (if length = j + 1 then length else j))
          s.blockSize).message s.node]
        device := s.during
          (if length = j + 1 then .behindBlock a crc data start length
            else .downloadBlock (.upTo a crc data start j)) (k + 1) } := by
  have hjn : (UInt8.ofNat j).toNat = j := UInt8.toNat_ofNat_of_lt (show _ < 256 by omega)
  have hseqno : (BlockDownload.upTo a crc data start j).seqno.toNat = j := hjn
  rw [handle_segment_at_end hf hb hl (by omega),
    BlockDownload.accept_upTo (by omega) (by omega) (by omega), hseqno]
  -- The last segment is the next one of the block, or one before it is missing.
  by_cases h : length = j + 1
  · simp only [if_pos h]
    by_cases hc : start + length = segmentCount data
    · rw [State.behindBlock, if_pos hc, if_pos ⟨h, hc⟩]
      rfl
    · have hseq : (BlockDownload.upTo a crc data start length).seqno = s.blockSize :=
        (blockSize_or_last hl (by omega)).resolve_right hc
      rw [State.behindBlock, if_neg hc, if_neg fun h' => hc h'.2, if_pos hseq]
      rfl
  · have hseq : (BlockDownload.upTo a crc data start j).seqno ≠ s.blockSize := by
      intro he
      rw [← he, hseqno] at hl
      omega
    simp only [if_neg h]
    rw [if_neg fun h' => h h'.1, if_neg hseq]
    rfl

end Server

namespace Client.Call

open Transfer

variable {lost : Nat → Bool} {c : Call Line} {s : Session Line}
variable {srv : Server} {state : Server.State} {switch crc : Bool} {data : List UInt8}
variable {start length q j : Nat}

theorem ends_sendBlockSegment (h : c.Setting lost srv switch) (hb : srv.blockSize.toNat ≤ 127)
    (hl : length = min srv.blockSize.toNat (segmentCount data - start))
    (hs : s.world.Rests srv (.downloadBlock (.upTo c.target crc data start j)))
    (h0 : 0 < q) (hq : q < length) (hj : j < length)
    {Q : Unit → Session Line → Prop} {E : Stop → Session Line → Prop}
    (goes : ∀ w d j', Line.Onward lost s.world s.retries w s.retries
        [(blockSegment data (start + q - 1) (UInt8.ofNat q)).message .client c.node] →
      w.Rests srv (.downloadBlock (.upTo c.target crc data start j')) → j' < length →
      (w.countLost lost = s.world.countLost lost → q = j + 1 → j' = q) →
      Q () { s with world := w, deadline := d }) :
    Ends (c.sendBlockSegment data start q) s Q E := by
  rw [sendBlockSegment, sendSegment, ends_sendMessage h.link]
  obtain ⟨hi, k, hk⟩ := hs
  have hhandle : s.world.server.handle
      ((blockSegment data (start + q - 1) (UInt8.ofNat q)).message .client c.node) =
      { device := srv.during (.downloadBlock
          (.upTo c.target crc data start (if q = j + 1 then q else j))) (k + 1) } := by
    rw [hk, h.node]
    exact Server.handle_inner_segment h.faults hb hl h0 hq hj
  have hon := Line.onward_send lost s.retries hhandle
  rcases Line.lost_or_answered lost hhandle with ⟨hsend, hcount⟩ | ⟨hsend, -⟩
  · refine goes _ _ j hon ?_ hj fun he => absurd he (by omega)
    rw [hsend]
    exact ⟨hi, k, hk⟩
  · refine goes _ _ (if q = j + 1 then q else j) hon ?_ ?_ fun _ he => if_pos he
    · rw [hsend]
      exact ⟨by rw [hi]; rfl, k + 1, rfl⟩
    · split
      · exact hq
      · exact hj

theorem ends_sendBlockSegments (h : c.Setting lost srv switch) (hb : srv.blockSize.toNat ≤ 127)
    (hl : length = min srv.blockSize.toNat (segmentCount data - start)) {n : Nat}
    (hs : s.world.Rests srv (.downloadBlock (.upTo c.target crc data start j)))
    (h0 : 0 < q) (hq : q + n ≤ length) (hj : j < length)
    {Q : Unit → Session Line → Prop} {E : Stop → Session Line → Prop}
    (goes : ∀ w d j', Line.Onward lost s.world s.retries w s.retries
        ((List.range' q n).map fun q =>
          (blockSegment data (start + q - 1) (UInt8.ofNat q)).message .client c.node) →
      w.Rests srv (.downloadBlock (.upTo c.target crc data start j')) → j' < length →
      (w.countLost lost = s.world.countLost lost → q = j + 1 → j' = j + n) →
      Q () { s with world := w, deadline := d }) :
    Ends ((List.range' q n).forM (c.sendBlockSegment data start)) s Q E := by
  induction n generalizing q j s with
  | zero => exact goes s.world s.deadline j .refl hs hj fun _ _ => rfl
  | succ n ih =>
    rw [List.range'_succ, List.forM_eq_forM, List.forM_cons, ends_bind]
    refine ends_sendBlockSegment h hb hl hs h0 (by omega) hj fun w d j' ho hr hj' hin => ?_
    refine ih hr (by omega) (by omega) hj' fun w' d' j'' ho' hr' hj'' hin' => ?_
    refine goes w' d' j'' (ho.trans ho') hr' hj'' fun he hjq => ?_
    have h1 := Line.countLost_le lost ho.sent
    have h2 : w.countLost lost ≤ w'.countLost lost := Line.countLost_le lost ho'.sent
    have he' : w'.countLost lost = w.countLost lost := by omega
    have hq' := hin (by omega) hjq
    have hn := hin' he' (by omega)
    omega

/-- A block is sent until the server has all of it. Each further round is due to a loss, of which
there are at most `total`. -/
theorem ends_downloadBlockFrom (h : c.Setting lost srv switch) {size : BlockSize}
    (hb : srv.blockSize = size.value) {total n : Nat}
    (htotal : ∀ l : Line, l.countLost lost ≤ total)
    (hl : length = min size.value.toNat (segmentCount data - start))
    (hstart : start % size.value.toNat = 0)
    (hs : s.world.Rests srv (.downloadBlock (.upTo c.target crc data start j))) (hj : j < length)
    (hn : total < n + s.world.countLost lost) :
    Ends (c.downloadBlockFrom data start length (j + 1) n) s
      (fun next t => next = size ∧
        s.Reached lost srv (.behindBlock c.target crc data start length)
          (Traffic.blockSegments c.node data size.value.toNat (start + j) (length - j)) t ∧
        t.announced = s.announced)
      (s.TimedOut lost srv.objects) := by
  have hle := size.le
  have hb' : srv.blockSize.toNat = size.value.toNat := congrArg UInt8.toNat hb
  -- On the rounds left: a round that does not end the block has cost a loss.
  induction n generalizing j s with
  | zero =>
    have hbound := htotal s.world
    omega
  | succ n ih =>
    have hframes := Traffic.blockSegments_behind c.node data hstart hj (by omega)
    rw [downloadBlockFrom, Traffic.forM_behind hj]
    simp only [ends_bind]
    refine ends_sendBlockSegments h (by omega) (by omega) hs (by omega) (by omega) hj
      fun w d j' ho hr hj' hin => ?_
    refine ends_ask h (s := { s with world := w, deadline := d }) hr
      (.confirmBlock (UInt8.ofNat (if length = j' + 1 then length else j')) srv.blockSize) srv
      (if length = j' + 1 then .behindBlock c.target crc data start length
        else .downloadBlock (.upTo c.target crc data start j')) (fun k => ?_)
      (fun w' r' d' hr' => ?_) ?_
    · rw [h.node]
      exact Server.handle_last_segment h.faults (by omega) (by omega) hj'
    · have hreached : s.Reached lost srv _ _ _ := hr'.trans ho
      rw [← hframes] at hreached
      rw [ends_readResponse (Response.ofMessage_message c.node (r := .confirmBlock _ _)
        trivial trivial) (by simp [Response.kind])]
      by_cases hlast : length = j' + 1
      · have hseq : (UInt8.ofNat length).toNat = length :=
          UInt8.toNat_ofNat_of_lt (show _ < 256 by omega)
        rw [if_pos hlast] at hreached
        simp only [if_pos hlast, hseq, Nat.lt_irrefl, if_false, if_true, hb, ends_checkBlockSize]
        exact ⟨trivial, hreached, trivial⟩
      · have hseq : (UInt8.ofNat j').toNat = j' :=
          UInt8.toNat_ofNat_of_lt (show _ < 256 by omega)
        have h1 := Line.countLost_le lost ho.sent
        have h2 : w.countLost lost ≤ w'.countLost lost := Line.countLost_le lost hr'.1.sent
        -- Had nothing been lost, the last segment would have been the next one.
        have hmore : s.world.countLost lost < w'.countLost lost := by
          refine Nat.lt_of_not_le fun hsame => ?_
          have hall := hin (by omega) rfl
          omega
        rw [if_neg hlast] at hreached
        simp only [if_neg hlast, hseq]
        rw [if_neg (by omega), if_neg (by omega), ends_bind,
          ends_note h.link .debug]
        refine Ends.after (ih hreached.2 hj' ?_) hreached.1 ?_
        · show total < n + w'.countLost lost
          omega
        · intro next t hq
          obtain ⟨hsize, ht, hann⟩ := hq
          have hall := ht.trans hreached.1
          refine ⟨hsize, ⟨hall.1.of_lost ?_, hall.2⟩, hann⟩
          exact Nat.lt_of_lt_of_le hmore (Line.countLost_le lost ht.1.sent)
    · intro e t he
      exact he.trans ho

theorem ends_downloadBlocks_step {x : Losses} (hc : c.link = Line.link x) {size : BlockSize}
    (hlt : start < segmentCount data)
    (hl : min size.value.toNat (segmentCount data - start) = length)
    {Q : Unit → Session Line → Prop} {E : Stop → Session Line → Prop}
    (h : Ends (c.downloadBlockFrom data start length 1 c.patience) s
      (fun next t => Ends (c.downloadBlocks data (start + length) next)
        { t with transferred := min ((start + length) * segmentSize) data.length } Q E) E) :
    Ends (c.downloadBlocks data start size) s Q E :=
  ends_downloadBlocks_next hlt hl fun text => (ends_note hc .debug (by decide) text).mpr h

theorem ends_downloadBlocks (h : c.Setting lost srv switch) {size : BlockSize}
    (hb : srv.blockSize = size.value) {total : Nat} (htotal : ∀ l : Line, l.countLost lost ≤ total)
    (hn : total < c.patience) (hstart : start % size.value.toNat = 0)
    (hlt : start < segmentCount data)
    (hs : s.world.Rests srv (.downloadBlock (.upTo c.target crc data start 0))) :
    Ends (c.downloadBlocks data start size) s
      (fun _ t => (∃ i j, i + j = segmentCount data ∧
          s.Reached lost srv (.endDownloadBlock (.upTo c.target crc data i j))
            (Traffic.blockSegments c.node data size.value.toNat start
              (segmentCount data - start)) t) ∧
        t.announced = s.announced ∧ t.transferred = data.length)
      (s.TimedOut lost srv.objects) := by
  -- On the number of segments left.
  induction hk : segmentCount data - start using Nat.strongRecOn generalizing s start with
  | ind k ih =>
    let length := min size.value.toNat (segmentCount data - start)
    have hpos := size.pos
    have hlength : 0 < length := by omega
    refine ends_downloadBlocks_step h.link hlt rfl
      (Ends.after (ends_downloadBlockFrom h hb htotal rfl hstart hs hlength
        (Nat.lt_add_right _ hn)) .refl ?_)
    intro next t hq
    obtain ⟨hnext, ht, hann⟩ := hq
    obtain rfl := hnext.symm
    by_cases hend : start + length = segmentCount data
    · have hall : segmentCount data - start = length := by omega
      have htransferred : min ((start + length) * segmentSize) data.length = data.length := by
        rw [hend, min_segmentCount]
      rw [Server.State.behindBlock, if_pos hend] at ht
      rw [ends_downloadBlocks_behind (Nat.le_of_eq hend.symm)]
      refine ⟨⟨start, length, hend, ?_⟩, hann, htransferred⟩
      rw [← hk, hall]
      exact ht
    · have hfull : length = size.value.toNat := by omega
      have hstart' : (start + length) % size.value.toNat = 0 := by
        rw [hfull, Nat.add_mod_right, hstart]
      have hsum : length + (segmentCount data - (start + length)) = segmentCount data - start := by
        omega
      rw [Server.State.behindBlock, if_neg hend] at ht
      refine Ends.after (ih (segmentCount data - (start + length)) (by omega) hstart' (by omega)
        ht.2 rfl) ht.1 ?_
      intro _ u hq
      obtain ⟨⟨i, j, hij, hu⟩, hann', hlen⟩ := hq
      refine ⟨⟨i, j, hij, ?_⟩, hann'.trans hann, hlen⟩
      rw [← hk, ← hsum, ← Traffic.blockSegments_append]
      exact hu.trans ht.1

theorem ends_downloadBlock (h : c.Setting lost srv switch) {size : BlockSize}
    (hb : srv.blockSize = size.value) {total : Nat} (htotal : ∀ l : Line, l.countLost lost ≤ total)
    (hn : total < c.patience) (hs : s.world.Rests srv state) (hst : ∀ t, state ≠ .downloadBlock t)
    (hd : data.length < sizeLimit) :
    Ends (c.downloadBlock data) s
      (fun _ t => s.Reached lost (srv.store c.target data) .idle
        (Traffic.blockDownload c.node c.target data c.config.useCrc srv.crc size.value.toNat) t)
      (s.TimedOut lost srv.objects) := by
  have hsize : (UInt32.ofNat data.length).toNat = data.length := UInt32.toNat_ofNat_of_lt hd
  let unused := segmentCount data * segmentSize - data.length
  let checksum := if srv.crc && c.config.useCrc then Canopen.crc data else 0
  have hend : (Request.endBlockDownload (UInt8.ofNat unused) checksum).Regular :=
    Traffic.regular_endBlockDownload data checksum
  rw [downloadBlock]
  simp only [ends_bind, ends_modify]
  refine ends_exchange h (s := { s with announced := some data.length }) hs hst
    (.of_plain trivial) (fun k => Server.proceed_initiateBlockDownload)
    (.of_plain trivial) (fun w n d hr => ?_) fun e t he => he
  rw [hsize] at hr
  simp only [ends_bind, hb, ends_checkBlockSize]
  refine Ends.after (ends_downloadBlocks h hb htotal hn (Nat.zero_mod _) (segmentCount_pos data)
    hr.2) hr.1 ?_
  intro _ t hq
  obtain ⟨⟨i, j, hij, ht⟩, hann, hlen⟩ := hq
  have ht' := ht.trans hr.1
  refine ends_exchange h ht.2 (by simp) hend
    (fun k => Server.proceed_endBlockDownload_upTo hij c.config.useCrc) (.of_plain trivial)
    (fun w' n' d' hr' => ?_) ?_
  · have hfinal := hr'.trans ht'.1
    rw [List.append_assoc] at hfinal
    rw [ends_checkSize (.inr (.inr (by rw [hann, hlen])))]
    exact hfinal
  · intro e u he
    exact he.trans ht'.1

theorem ends_downloadBlock_invalid (h : c.Setting lost srv switch)
    (hb : BlockSize.ofByte? srv.blockSize = none) (hs : s.world.Rests srv state)
    (hst : ∀ t, state ≠ .downloadBlock t) :
    Ends (c.downloadBlock data) s (fun _ _ => False)
      (fun e t => e = .failed (.invalidBlockSize srv.blockSize) ∧
          t.world.server.objects = srv.objects ∨ s.TimedOut lost srv.objects e t) := by
  rw [downloadBlock]
  simp only [ends_bind, ends_modify]
  refine ends_exchange h (s := { s with announced := some data.length }) hs hst
    (.of_plain trivial) (fun k => Server.proceed_initiateBlockDownload)
    (.of_plain trivial) (fun w n d hr => ?_) fun e t he => .inr he
  obtain ⟨-, -, k, hk⟩ := hr
  have hk' : w.server = srv.during _ k := hk
  simp only [ends_bind, checkBlockSize, hb, abandon, ends_fail]
  refine ends_abort h.link fun ws d' => .inl ⟨trivial, ?_⟩
  refine Line.objects_send_abort.trans ?_
  show w.server.objects = _
  rw [hk']
  rfl

end Client.Call

end Canopen
