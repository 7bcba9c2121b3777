import Canopen.Proofs.OverBus
import Canopen.Proofs.SegmentLoss
import Canopen.Proofs.UploadSafety

/-!
A block upload from a server that loses one segment, once. It comes to the object, unless the
segment is a block of its own behind others: then the client, to which nothing of the block has
come, sends the acknowledgement of the block before again, and that is taken for one of this block.
-/

set_option autoImplicit false

namespace Canopen

open Can (Message)
open Sdo

namespace Client

/-- A segment that is a block of its own, and not the first one. -/
def Isolated (blockSize total i : Nat) : Prop :=
  0 < i ∧ i % blockSize = 0 ∧ min blockSize (total - i) = 1

instance (blockSize total i : Nat) : Decidable (Isolated blockSize total i) :=
  inferInstanceAs (Decidable (_ ∧ _ ∧ _))

namespace Call

open Transfer

variable {c : Call Line} {s : Session Line} {srv : Server} {f : Option Nat} {crc : Bool}
variable {object : List UInt8} {start n i : Nat} {request : Request} {attempts : UInt32}
variable {R : List UInt8 → Nat → Prop}

def close (c : Call Line) (serverCrc : Bool) (unused : UInt8) (expected : UInt16) :
    Transfer Line (List UInt8) := do
  trim unused.toNat
  let computed := Canopen.crc (← get).buffer
  if serverCrc && c.config.useCrc && computed != expected then
    c.abandon .crcError (.crcMismatch expected computed)
  c.checkSize
  c.send .confirmBlockUploadEnd
  return (← get).buffer

theorem uploadBlocks_eq (c : Call Line) (serverCrc : Bool) :
    c.uploadBlocks serverCrc = (do
      c.send .startBlockUpload
      modify fun s => { s with seqno := 0 }
      c.receiveBlocks .startBlockUpload 1 c.patience
      match ← c.exchange (c.acknowledgement (← get).seqno) with
      | .endBlockUpload unused expected => c.close serverCrc unused expected
      | r => c.unexpected r) := rfl

def ending (c : Call Line) (srv : Server) (object : List UInt8) : Transfer Line (List UInt8) :=
  c.close srv.crc (UInt8.ofNat (segmentCount object * segmentSize - object.length))
    (if c.config.useCrc && srv.crc then Canopen.crc object else 0)

section
variable (h : c.Calm srv)
include h

theorem ends_uploadBlocks_losing (hcrc : crc = (c.config.useCrc && srv.crc))
    (hi : s.world.inbox = [])
    (hs : ∃ k, s.world.server =
      (srv.losing f).during (.uploadBlockInitiated (c.block crc object 0)) k)
    {B : List UInt8 → Nat → Prop} (hbuffer : B s.buffer 0)
    {Q : List UInt8 → Session Line → Prop} {E : Stop → Session Line → Prop}
    (run : ∀ t, Begins c srv f crc object B 0 t → t.announced = s.announced →
      t.retries = s.retries →
        Ends (c.receiveBlocks .startBlockUpload 1 c.patience) t
          (fun _ u => (∃ f, Through c srv f crc object R u) ∧ u.announced = s.announced) E)
    (closing : ∀ t, t.world.inbox = [] → R t.buffer (segmentCount object) →
      t.announced = s.announced → Ends (c.ending srv object) t Q E) :
    Ends (c.uploadBlocks srv.crc) s Q E := by
  have hregular : Request.startBlockUpload.Regular := .of_plain trivial
  obtain ⟨k, hk⟩ := hs
  have hhandle : s.world.server.handle (Request.startBlockUpload.message c.node) =
      ((srv.losing f).during .idle (k + 1)).sendBlock (c.block crc object 0) 1 := by
    rw [hk, h.node, Server.handle_losing (by simp) hregular]
    rfl
  rw [uploadBlocks_eq]
  simp only [ends_bind]
  rw [send, ends_sendMessage h.link, Line.send_calm (hhandle.trans rfl), hi]
  simp only [ends_modify]
  refine Ends.mono (run _ ?_ rfl rfl) ?_ fun _ _ he => he
  · exact ⟨⟨k + 1, rfl, rfl⟩, rfl, hbuffer, Nat.le_refl _⟩
  rintro _ t ⟨⟨f, hinbox, ⟨start, k, hstart, hend, hseqno, hk⟩, hbuffer'⟩, hann⟩
  have hanswer : t.world.server.handle ((c.acknowledgement t.seqno).message c.node) =
      { frames := [(Response.endBlockUpload
          (UInt8.ofNat (segmentCount object * segmentSize - object.length))
          (if c.config.useCrc && srv.crc then Canopen.crc object else 0)).message c.node]
        device := (srv.losing f).during .endUploadBlock (k + 1) } := by
    have hlast : ¬(c.block crc object start).start + (c.block crc object start).length
        < segmentCount (c.block crc object start).data := Nat.not_lt.mpr (Nat.le_of_eq hend.symm)
    have hconfirm := Server.confirmBlock_end (s := (srv.losing f).during .idle (k + 1))
      (t := c.block crc object start) rfl hseqno h.blockSize hlast
    rw [handle_acknowledgement h t.seqno hk, h.node, ← hcrc]
    exact hconfirm
  simp only [ends_get]
  refine ends_exchange_calm h.link h.patient hinbox hanswer
    (Response.regular_endBlockUpload object _) fun w d hw _ _ => ?_
  exact closing _ hw hbuffer' hann

theorem ends_uploadBlock_losing (hcrc : crc = (c.config.useCrc && srv.crc))
    (hs : s.world.inbox = [] ∧ ∃ k, s.world.server = (srv.losing f).during .idle k)
    (hobject : srv.objects.get? c.target = some object) (hd : object.length < sizeLimit)
    {Q : List UInt8 → Session Line → Prop} {E : Stop → Session Line → Prop}
    (blocks : ∀ t, t.world.inbox = [] →
      (∃ k, t.world.server =
        (srv.losing f).during (.uploadBlockInitiated (c.block crc object 0)) k) →
      t.buffer = s.buffer → t.announced = some object.length → t.retries = s.retries →
        Ends (c.uploadBlocks srv.crc) t Q E) :
    Ends c.uploadBlock s Q E := by
  have hregular : c.initiation.Regular := .of_plain trivial
  have hsize : (UInt32.ofNat object.length).toNat = object.length := UInt32.toNat_ofNat_of_lt hd
  obtain ⟨hi, k, hk⟩ := hs
  have hhandle : s.world.server.handle (c.initiation.message c.node) =
      { frames := [(Response.announceBlocks srv.crc c.target
          (some (UInt32.ofNat object.length))).message c.node]
        device := (srv.losing f).during (.uploadBlockInitiated (c.block crc object 0))
          (k + 1) } := by
    rw [hk, h.node, Server.handle_losing (by simp) hregular, hcrc]
    exact Server.proceed_initiateBlockUpload_plain (s := srv.losing f) rfl rfl hobject h.blockSize
  rw [uploadBlock]
  simp only [ends_bind]
  refine ends_exchange_calm h.link h.patient hi hhandle (.of_plain trivial)
    fun w d hw hserver _ => ?_
  simp only [Response.announceBlocks, Option.isSome_some, Option.getD_some, if_true, ends_bind,
    ends_modify, hsize]
  exact blocks _ hw ⟨k + 1, hserver⟩ rfl rfl rfl

theorem ends_ending_filled (hbuffer : s.buffer = filled object (segmentCount object))
    (hann : s.announced = some object.length) :
    Ends (c.ending srv object) s (fun v _ => v = object) fun _ _ => False := by
  rw [ending, close]
  simp only [ends_bind, trim, ends_modify, ends_get, trim_filled object hbuffer, checksum_stands,
    Bool.false_eq_true, if_false]
  rw [ends_checkSize (.inr (.inr (by rw [hann])))]
  simp only [send, ends_sendMessage h.link, ends_pure]

theorem ends_ending_short (hbuffer : s.buffer.length < segmentCount object * segmentSize)
    (hann : s.announced = some object.length) (hpos : 0 < object.length) :
    Ends (c.ending srv object) s (fun _ _ => False) fun _ _ => True := by
  have hspec := segmentCount_spec object
  obtain ⟨n, hn⟩ := Nat.exists_eq_add_of_le' hpos
  rw [ending]
  generalize (if c.config.useCrc && srv.crc then Canopen.crc object else 0) = checksum
  rw [close]
  simp only [ends_bind, trim, ends_modify, ends_get]
  split
  · simp only [ends_bind]
    exact ends_abandon h.link _ _
  · simp only [ends_bind]
    refine ends_checkSize_lossy h.link fun hsize => ?_
    have hfull : n + 1 = (s.buffer.take (s.buffer.length
        - (UInt8.ofNat (segmentCount object * segmentSize - object.length)).toNat)).length :=
      hsize n (by rw [hann, hn])
    rw [toNat_unused, List.length_take] at hfull
    omega

theorem ends_uploadBlock_recovered (hs : s.world.inbox = [] ∧
      ∃ k, s.world.server = (srv.losing (some i)).during .idle k)
    (hobject : srv.objects.get? c.target = some object) (hd : object.length < sizeLimit)
    (hbuffer : s.buffer = []) (hretries : 0 < s.retries)
    (hp : 2 * segmentCount object + 2 ≤ c.patience)
    (hnot : ¬Isolated c.config.blockSize.toNat (segmentCount object) i) :
    Ends c.uploadBlock s (fun v _ => v = object) fun _ _ => False := by
  have accept : ∀ {buffer k}, buffer = filled object k →
      buffer ++ (padTo 7 (segmentBytes object k)).toList = filled object (k + 1) :=
    fun hk => by rw [filled_succ, hk]
  have hstart : Request.startBlockUpload = c.awaiting 0 := (if_pos rfl).symm
  refine ends_uploadBlock_losing h rfl hs hobject hd fun t hi ht hbuffer' hann hretries' => ?_
  refine ends_uploadBlocks_losing (B := fun buffer k => buffer = filled object k)
    (R := fun buffer k => buffer = filled object k) h rfl hi ht (hbuffer'.trans hbuffer)
    (fun u hu hannu hretriesu => ?_) fun u _ hu hannu =>
      ends_ending_filled h hu (hannu.trans hann)
  rw [hstart]
  -- A segment with a number behind the last one is never sent, and so not lost either.
  by_cases hin : i < segmentCount object
  · refine ends_receiveBlocks_until h accept hin hu (Nat.zero_le _) (Nat.zero_mod _) rfl hp ?_
    intro start j v attempts n hsum haligned hj hv hframes hannv hretriesv hn
    refine ends_receiveBlocks_recovered h accept hv (by omega) hj hframes (by omega) ?_ hn
      fun w hw hannw => ⟨⟨_, hw⟩, hannw.trans (hannv.trans hannu)⟩
    intro hone
    refine Nat.eq_zero_of_not_pos fun hpos => hnot ?_
    rw [length_block] at hone hj
    have hij : i = start := by omega
    exact ⟨by omega, hij ▸ haligned, hij ▸ hone⟩
  · have hspared : ∀ n, 1 ≤ n → n ≤ (c.block (c.config.useCrc && srv.crc) object 0).length →
        some i ≠ some (0 + n - 1) := by
      intro n hn hle he
      have heq := Option.some.inj he
      rw [length_block] at hle
      omega
    obtain ⟨hmid, hframes⟩ := hu.spared h.node hspared
    refine ends_receiveBlocks_spared h accept hmid (segmentCount_pos object)
      (length_block_pos h.exposed (segmentCount_pos object)) hframes ?_ (by omega)
      fun w hw hannw => ⟨⟨_, hw⟩, hannw.trans hannu⟩
    intro k hk
    cases hk
    exact .inr (Nat.not_lt.mp hin)

theorem ends_receiveBlocks_ended (unused : UInt8) (checksum : UInt16)
    (hone : c.config.blockSize = 1)
    (hi : s.world.inbox = [(Response.endBlockUpload unused checksum).message c.node]) :
    Ends (c.receiveBlocks request attempts n) s (fun _ _ => False) fun _ _ => True := by
  have hhead : ((Response.endBlockUpload unused checksum).message c.node).data.get 0 ≠ 0x80 ∧
      (1 : UInt8) < ((Response.endBlockUpload unused checksum).message c.node).data.get 0
        &&& 0x7f := by
    have hall : Response.command .blockUpload ((unused &&& 7) <<< 2 ||| 1) ≠ 0x80 ∧
        (1 : UInt8) < Response.command .blockUpload ((unused &&& 7) <<< 2 ||| 1) &&& 0x7f := by
      refine UInt8.forall_of_lt unused unused.toNat_lt ?_
      decide +kernel
    rw [Response.message_head, Response.toBytes, get_padTo]
    exact hall
  cases n with
  | zero => trivial
  | succ n =>
    rw [receiveBlocks]
    simp only [ends_bind]
    refine ends_nextMessage_cons h.link hi (Response.message_id _ c.node) ?_ fun _ => trivial
    simp only [if_neg hhead.1, ends_bind]
    rw [readSegment]
    split
    · rw [malformed]
      simp only [ends_bind, ends_warn h.link]
      exact ends_abandon h.link _ _
    · rename_i segment hsegment
      have hbeyond : segment.seqno = 0 ∨ c.config.blockSize < segment.seqno := by
        rw [hone, BlockSegment.seqno_of_ofMessage hsegment]
        exact .inr hhead.2
      rw [if_pos hbeyond]
      exact ends_abandon h.link _ _

theorem ends_receiveBlocks_refused (a : Address) (code : UInt32)
    (hi : s.world.inbox = [(Response.abort a code).message c.node])
    {Q : Unit → Session Line → Prop} :
    Ends (c.receiveBlocks request attempts n) s Q fun _ _ => True := by
  have hhead : ((Response.abort a code).message c.node).data.get 0 = 0x80 := by
    rw [Response.message_head, Response.toBytes, addressed_head]
    rfl
  cases n with
  | zero => trivial
  | succ n =>
    rw [receiveBlocks]
    simp only [ends_bind]
    refine ends_nextMessage_cons h.link hi (Response.message_id _ c.node) ?_ fun _ => trivial
    simp only [if_pos hhead, ends_bind]
    rw [ends_readResponse_abort h.link
      (Response.ofMessage_message c.node (r := .abort a code) trivial trivial)]
    trivial

section
variable {w : Line} (hone : (c.block crc object i).length = 1)
  (hs : ∃ k, w.server = (srv.losing none).during (.uploadBlock (c.block crc object i)) k)
  (hi : w.inbox = [])
include hone hs hi

theorem acknowledgement_refused (hsize : 1 < c.config.blockSize.toNat) :
    (w.send {} ((c.acknowledgement c.config.blockSize).message c.node)).inbox =
      [(Response.abort c.target AbortCode.invalidSequenceNumber.code).message c.node] := by
  obtain ⟨k, hk⟩ := hs
  have hrefuse : ((srv.losing none).during .idle (k + 1)).confirmBlock (c.block crc object i)
      c.config.blockSize c.config.blockSize =
        ((srv.losing none).during .idle (k + 1)).refuse c.target .invalidSequenceNumber := by
    rw [Server.confirmBlock, if_pos (by omega)]
    rfl
  have hhandle := (handle_acknowledgement h c.config.blockSize hk).trans hrefuse
  rw [Line.send_calm (hhandle.trans rfl), hi, h.node]
  rfl

/-- The acknowledgement of the segment before is taken for one of the last segment. -/
theorem acknowledgement_closes (hsize : c.config.blockSize.toNat = 1)
    (hlast : ¬i + 1 < segmentCount object) :
    (w.send {} ((c.acknowledgement c.config.blockSize).message c.node)).inbox =
      [(Response.endBlockUpload
        (UInt8.ofNat (segmentCount object * segmentSize - object.length))
        (if crc then Canopen.crc object else 0)).message c.node] := by
  obtain ⟨k, hk⟩ := hs
  have hend := Server.confirmBlock_end (s := (srv.losing none).during .idle (k + 1))
    (t := c.block crc object i) rfl (hsize.trans hone.symm) h.blockSize (by rw [hone]; exact hlast)
  have hhandle := (handle_acknowledgement h c.config.blockSize hk).trans hend
  rw [Line.send_calm hhandle, hi, h.node]
  rfl

end

/-- Nothing comes of an isolated segment. The acknowledgement of the block before is refused, or
it is taken for one of this block, and the client is left behind by one segment. -/
theorem ends_receiveBlocks_isolated (hpos : 0 < i)
    (hone : (c.block crc object i).length = 1)
    (hs : Midway c srv none crc object (fun buffer k => buffer = filled object k) i 0 s)
    (hi : s.world.inbox = []) (hn : segmentCount object - i ≤ n) :
    Ends (c.receiveBlocks (c.awaiting i) attempts (n + 1)) s
      (fun _ t => (∃ f, Through c srv f crc object
        (fun buffer k => buffer.length < k * segmentSize) t) ∧ t.announced = s.announced)
      fun _ _ => True := by
  have hb := h.blockSize
  have hagain : c.awaiting i = c.acknowledgement c.config.blockSize := if_neg (by omega)
  obtain ⟨hserver, hseqno, hbuffer, -⟩ := hs
  have hzero : s.seqno = 0 := UInt8.toNat_inj.mp hseqno
  refine ends_receiveBlocks_nil h.link hi (fun now => ?_) fun _ _ => trivial
  refine ends_takeRetry_lossy h.link fun ws r => ?_
  simp only [if_neg (show ¬0 < s.seqno by rw [hzero]; decide), hagain]
  let w : Line := { s.world with now, warnings := ws }
  by_cases hsize : c.config.blockSize.toNat = 1
  · by_cases hmore : i + 1 < segmentCount object
    · have hshort : s.buffer.length < (i + c.config.blockSize.toNat) * segmentSize := by
        rw [hbuffer, length_filled]
        exact Nat.mul_lt_mul_of_pos_right (by omega) (by decide)
      have hbegins := begins_next (R := fun buffer k => buffer.length < k * segmentSize)
        (s := { s with world := w, retries := r }) h hserver hshort hi (by omega)
      rw [hsize] at hbegins
      obtain ⟨hmid, hframes⟩ := hbegins.spared h.node (by simp)
      simp only [hzero]
      refine ends_receiveBlocks_spared h ?_ hmid hmore (length_block_pos h.exposed hmore) hframes
        (by simp) (by omega) fun t ht hann => ⟨⟨none, ht⟩, hann⟩
      intro buffer k hlt
      rw [List.length_append, Vector.length_toList, Nat.succ_mul]
      exact Nat.add_lt_add_right hlt 7
    · exact (ends_receiveBlocks_ended h _ _ (UInt8.toNat_inj.mp hsize)
        (acknowledgement_closes (w := w) h hone hserver hi hsize hmore)).mono
          (fun _ _ hf => hf.elim) fun _ _ he => he
  · exact ends_receiveBlocks_refused h _ _
      (acknowledgement_refused (w := w) h hone hserver hi (by omega))

theorem ends_uploadBlock_isolated (hs : s.world.inbox = [] ∧
      ∃ k, s.world.server = (srv.losing (some i)).during .idle k)
    (hobject : srv.objects.get? c.target = some object) (hd : object.length < sizeLimit)
    (hbuffer : s.buffer = []) (hp : 2 * segmentCount object + 2 ≤ c.patience)
    (halone : Isolated c.config.blockSize.toNat (segmentCount object) i) :
    Ends c.uploadBlock s (fun _ _ => False) fun _ _ => True := by
  obtain ⟨hpos, haligned, hone⟩ := halone
  have hin : i < segmentCount object := by omega
  have hsome : 0 < object.length := by
    have hspec := segmentCount_spec object
    simp only [segmentSize] at hspec
    omega
  have hstart : Request.startBlockUpload = c.awaiting 0 := (if_pos rfl).symm
  refine ends_uploadBlock_losing h rfl hs hobject hd fun t hi ht hbuffer' hann _ => ?_
  refine ends_uploadBlocks_losing (B := fun buffer k => buffer = filled object k)
    (R := fun buffer k => buffer.length < k * segmentSize) h rfl hi ht (hbuffer'.trans hbuffer)
    (fun u hu hannu _ => ?_) fun u _ hu hannu =>
      ends_ending_short h hu (hannu.trans hann) hsome
  rw [hstart]
  refine ends_receiveBlocks_until h (fun hk => by rw [filled_succ, hk]) hin hu (Nat.zero_le _)
    (Nat.zero_mod _) rfl hp ?_
  intro start j v attempts n hsum haligned' hj hv hframes hannv _ hn
  -- The segment is the first one of its block.
  have hzero : j = 0 := by
    rw [← hsum, Nat.add_mod, haligned', Nat.zero_add, Nat.mod_mod] at haligned
    rw [length_block] at hj
    rw [Nat.mod_eq_of_lt (by omega)] at haligned
    exact haligned
  subst hzero
  obtain rfl : start = i := hsum
  have hnil : v.world.inbox = [] := by
    rw [hframes, Server.BlockUpload.frames_eq_nil _ _ (Nat.le_of_eq (length_block.trans hone))]
    rfl
  obtain ⟨m, rfl⟩ : ∃ m, n = m + 1 := Nat.exists_eq_add_of_le' (by omega)
  refine (ends_receiveBlocks_isolated h hpos (length_block.trans hone) hv hnil (by omega)).mono ?_
    fun _ _ he => he
  rintro _ w ⟨hthrough, hannw⟩
  exact ⟨hthrough, hannw.trans (hannv.trans hannu)⟩

end
end Call

section
variable {client : Client Line} {l : Line} {target : Address} {object : List UInt8} {i : Nat}
variable (hc : client.link = Line.link {}) (interval : 0 < client.config.pollInterval)
  (faults : l.server.faults = { loseUploadSegment := some i }) (idle : l.server.state = .idle)
  (stored : l.server.objects.get? target = some object) (small : object.length < sizeLimit)
  (patient : l.inbox.length + client.config.timeout + 2 * segmentCount object + 2
    ≤ client.patience)

include faults idle in
theorem eq_losing : l.server = (l.server.losing (some i)).during .idle l.server.received := by
  rw [Server.losing, ← faults, ← idle]
  rfl

include hc interval patient

theorem calm : (client.call l.server.node target .upload).Calm l.server where
  link := hc
  node := rfl
  interval := interval
  patient := by
    show client.config.timeout < client.patience
    omega
  blockSize := Config.blockSize_of_valid client.valid

include faults idle stored small

theorem uploadBlock_recovers (retries : 0 < client.config.retries.toNat)
    (hnot : ¬Isolated client.config.blockSize.toNat (segmentCount object) i) :
    (client.uploadBlock l.server.node.value target l).1 = .ok object := by
  let c := client.call l.server.node target .upload
  have hends := Call.ends_uploadBlock_recovered (s := c.start .block l)
    (calm hc interval patient) ⟨rfl, _, eq_losing faults idle⟩ stored small rfl retries
    (by show _ ≤ client.patience; omega) hnot
  rw [uploadBlock, transfer_node]
  rcases Call.run_of_ends hc hends with ⟨v, t, rfl, hrun⟩ | ⟨e, t, hfalse, -⟩ | ⟨hmany, -⟩
  · rw [hrun]
  · exact hfalse.elim
  · have hmany' : client.patience ≤ l.inbox.length := hmany
    omega

theorem uploadBlock_fails (halone : Isolated client.config.blockSize.toNat (segmentCount object) i)
    (v : List UInt8) : (client.uploadBlock l.server.node.value target l).1 ≠ .ok v := by
  let c := client.call l.server.node target .upload
  have hends := Call.ends_uploadBlock_isolated (s := c.start .block l)
    (calm hc interval patient) ⟨rfl, _, eq_losing faults idle⟩ stored small rfl
    (by show _ ≤ client.patience; omega) halone
  intro hok
  obtain ⟨t, hfalse, -⟩ := transfer_ends hc hends hok
  exact hfalse

end
end Client

namespace Network

open Client

/-- A block upload of which one segment is lost gives the object, unless the segment is a block of
its own behind others. Then it fails. -/
theorem lost_segment_recovered_unless_isolated {n : Network} {tap : Nat}
    {before after : List Server} {s : Server} (number : Nat) (h : n.Hosts tap before s after)
    (config : Config) (valid : config.Valid) (retries : 1 ≤ config.retries.toNat)
    (interval : 1 ≤ config.pollInterval)
    {i : Nat} (faults : s.faults = { loseUploadSegment := some i }) (idle : s.state = .idle)
    {target : Address} {object : List UInt8} (stored : s.objects.get? target = some object)
    (small : object.length < UInt32.size) :
    ∃ p, ∀ patience, p ≤ patience →
      let o := (client tap number config valid patience).perform s.node.value target .uploadBlock n
      (¬Isolated config.blockSize.toNat (segmentCount object) i → o.1 = .ok (.bytes object)) ∧
        (Isolated config.blockSize.toNat (segmentCount object) i → ∀ v, o.1 ≠ .ok v) := by
  refine ⟨(n.line tap s).inbox.length + config.timeout + 2 * segmentCount object + 2,
    fun patience hp => ?_⟩
  have hfollows : Follows (Shows s.node tap number before after (n.requests s.node) n.warnings)
      ((client tap number config valid patience).perform s.node.value target .uploadBlock n)
      ((Line.client {} config valid patience).perform s.node.value target .uploadBlock
        (n.line tap s)) :=
    perform_follows (simulates h.alone) (h.shows number) target .uploadBlock
  have hlink : (Line.client {} config valid patience).link = Line.link {} := rfl
  dsimp only
  rw [hfollows.1]
  constructor
  · intro hnot
    exact congrArg (Except.map Value.bytes) (uploadBlock_recovers (l := n.line tap s) hlink
      interval faults idle stored small hp retries hnot)
  · intro halone v hok
    obtain ⟨data, hdata, -⟩ := Outcome.map_ok hok
    exact uploadBlock_fails (l := n.line tap s) hlink interval faults idle stored small hp halone
      data hdata

theorem lost_segment_recovered_in_first_block :
    ∃ p, ∀ patience, p ≤ patience →
      let s : Server :=
        { node := ⟨5, by decide, by decide⟩
          objects := ⟨[(⟨0x2000, 0⟩, [1, 2, 3, 4, 5, 6, 7, 8])]⟩
          faults := { loseUploadSegment := some 1 } }
      let n : Network := { bus := { queues := [[]], devices := [.server s] } }
      ((client 0 0 {} (by decide) patience).perform 5 ⟨0x2000, 0⟩ .uploadBlock n).1
        = .ok (.bytes [1, 2, 3, 4, 5, 6, 7, 8]) := by
  let s : Server :=
    { node := ⟨5, by decide, by decide⟩
      objects := ⟨[(⟨0x2000, 0⟩, [1, 2, 3, 4, 5, 6, 7, 8])]⟩
      faults := { loseUploadSegment := some 1 } }
  let n : Network := { bus := { queues := [[]], devices := [.server s] } }
  have h : n.Hosts 0 [] s [] := ⟨rfl, by decide, rfl, by decide⟩
  have hstored : s.objects.get? ⟨0x2000, 0⟩ = some [1, 2, 3, 4, 5, 6, 7, 8] := by decide
  obtain ⟨p, hp⟩ := lost_segment_recovered_unless_isolated 0 h {} (by decide) (by decide)
    (by decide) rfl rfl hstored (by decide)
  exact ⟨p, fun patience hle => (hp patience hle).1 (by decide)⟩

/-- With one segment to a block, the end of the upload comes where the lost segment should. -/
theorem upload_fails_after_isolated_segment :
    let s : Server :=
      { node := ⟨5, by decide, by decide⟩
        objects := ⟨[(⟨0x2000, 0⟩, [1, 2, 3, 4, 5, 6, 7, 8])]⟩
        faults := { loseUploadSegment := some 1 } }
    let n : Network := { bus := { queues := [[]], devices := [.server s] } }
    let config : Config := { blockSize := 1, timeoutMs := 1, pollIntervalUs := 1000 }
    ((client 0 0 config (by decide) 20).perform 5 ⟨0x2000, 0⟩ .uploadBlock n).1
      = .error (.failed (.sequence 0x59)) := by
  decide +kernel

end Network
end Canopen
