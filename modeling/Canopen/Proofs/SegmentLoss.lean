import Canopen.Proofs.LossyBlockUploads
import Mathlib.Data.List.Basic

/-!
A server that loses a segment of a block upload, once. The client acknowledges the segments in
front of the gap, when it has come to the end of the block or the deadline has passed, and the
server goes on behind them.
-/

set_option autoImplicit false

namespace Canopen

open Can (Message)
open Sdo

namespace Server

def losing (s : Server) (f : Option Nat) : Server :=
  { s with faults := { loseUploadSegment := f } }

variable {s : Server} {f : Option Nat} {state : State} {k j first : Nat} {t : BlockUpload}
variable {seqno blockSize : UInt8}

theorem attentive_losing (s : Server) (f : Option Nat) : (s.losing f).faults.Attentive :=
  ⟨rfl, rfl, rfl⟩

theorem handle_losing (hs : ∀ t, state ≠ .downloadBlock t) {r : Request} (hr : r.Regular) :
    ((s.losing f).during state k).handle (r.message s.node)
      = ((s.losing f).during state (k + 1)).proceed r :=
  handle_request_of_attentive (s.attentive_losing f) hs hr

theorem blockUploadSegment_losing (n : Nat) :
    ((s.losing f).during state k).blockUploadSegment t n =
      if f = some (t.start + n - 1) then none
      else some ((Client.blockSegment t.data (t.start + n - 1) (UInt8.ofNat n)).message .server
        s.node) := rfl

theorem filterMap_losing {ns : List Nat} (h : ∀ n ∈ ns, f ≠ some (t.start + n - 1)) :
    ns.filterMap (((s.losing f).during state k).blockUploadSegment t) = ns.map fun n =>
      (Client.blockSegment t.data (t.start + n - 1) (UInt8.ofNat n)).message .server s.node := by
  refine List.filterMap_eq_map_iff_forall_eq_some.mpr fun n hn => ?_
  rw [blockUploadSegment_losing, if_neg (h n hn)]

theorem sendBlock_spared (h : ∀ n, first ≤ n → n ≤ t.length → f ≠ some (t.start + n - 1)) :
    ((s.losing f).during state k).sendBlock t first =
      { frames := t.frames s.node first, device := (s.losing f).during (.uploadBlock t) k } := by
  have hall : ∀ n ∈ List.range' first (t.length + 1 - first), f ≠ some (t.start + n - 1) := by
    intro n hn
    obtain ⟨i, hi, rfl⟩ := List.mem_range'.mp hn
    exact h _ (by omega) (by omega)
  have hany : ((List.range' first (t.length + 1 - first)).any fun n =>
      f = some (t.start + n - 1)) = false :=
    List.any_eq_false.mpr fun n hn => by simpa using hall n hn
  rw [sendBlock]
  dsimp only
  rw [filterMap_losing hall]
  have hfaults : ((s.losing f).during state k).faults.loseUploadSegment = f := rfl
  simp only [hfaults, hany, Bool.false_eq_true, if_false]
  rfl

theorem sendBlock_losing (hj : j < t.length) (hf : f = some (t.start + j)) :
    ((s.losing f).during state k).sendBlock t 1 =
      { frames := t.segments s.node 1 j ++ t.frames s.node (j + 2)
        device := (s.losing none).during (.uploadBlock t) k } := by
  have hsplit : List.range' 1 (t.length + 1 - 1)
      = List.range' 1 j ++ (j + 1) :: List.range' (j + 2) (t.length + 1 - (j + 2)) := by
    have hlength : t.length + 1 - 1 = j + (t.length + 1 - (j + 2) + 1) := by omega
    rw [hlength, ← List.range'_append, List.range'_succ, Nat.one_mul, Nat.add_comm 1 j]
  have hbefore : ∀ n ∈ List.range' 1 j, f ≠ some (t.start + n - 1) := by
    intro n hn he
    obtain ⟨i, hi, rfl⟩ := List.mem_range'.mp hn
    have heq := Option.some.inj (hf.symm.trans he)
    omega
  have hbehind : ∀ n ∈ List.range' (j + 2) (t.length + 1 - (j + 2)),
      f ≠ some (t.start + n - 1) := by
    intro n hn he
    obtain ⟨i, hi, rfl⟩ := List.mem_range'.mp hn
    have heq := Option.some.inj (hf.symm.trans he)
    omega
  have hlost : ((s.losing f).during state k).blockUploadSegment t (j + 1) = none := by
    rw [blockUploadSegment_losing]
    exact if_pos hf
  have hany : ((List.range' 1 j ++ (j + 1) :: List.range' (j + 2) (t.length + 1 - (j + 2))).any
      fun n => f = some (t.start + n - 1)) = true := by
    refine List.any_eq_true.mpr ⟨j + 1, List.mem_append_right _ List.mem_cons_self, ?_⟩
    exact decide_eq_true hf
  rw [sendBlock, hsplit]
  dsimp only
  rw [List.filterMap_append, List.filterMap_cons, hlost, filterMap_losing hbefore]
  dsimp only
  rw [filterMap_losing hbehind]
  have hfaults : ((s.losing f).during state k).faults.loseUploadSegment = f := rfl
  simp only [hfaults, hany, if_true]
  rfl

theorem confirmBlock_some (h : seqno.toNat < t.length) :
    s.confirmBlock t seqno blockSize = s.sendBlock t (seqno.toNat + 1) := by
  rw [confirmBlock, if_neg (by omega), if_pos h]

theorem confirmBlock_next (h : seqno.toNat = t.length)
    (hb : 0 < blockSize.toNat ∧ blockSize.toNat ≤ 127)
    (hmore : t.start + t.length < segmentCount t.data) :
    s.confirmBlock t seqno blockSize = s.sendBlock (t.next blockSize) 1 := by
  rw [confirmBlock, if_neg (by omega), if_neg (by omega), if_neg (not_invalid hb)]
  exact if_pos hmore

theorem confirmBlock_end (hcrc : s.faults.invertCrc = false) (h : seqno.toNat = t.length)
    (hb : 0 < blockSize.toNat ∧ blockSize.toNat ≤ 127)
    (hlast : ¬t.start + t.length < segmentCount t.data) :
    s.confirmBlock t seqno blockSize =
      { frames := [(Response.endBlockUpload
          (UInt8.ofNat (segmentCount t.data * segmentSize - t.data.length))
          (if t.crc then Canopen.crc t.data else 0)).message s.node]
        device := { s with state := .endUploadBlock } } := by
  rw [confirmBlock, if_neg (by omega), if_neg (by omega), if_neg (not_invalid hb)]
  dsimp only
  rw [if_neg hlast, hcrc]
  rfl

theorem proceed_initiateBlockUpload_plain (hswitch : s.faults.switchProtocol = false)
    (hsize : s.faults.announcedSize = none) {a : Address} {object : List UInt8} {crc : Bool}
    {threshold : UInt8} (h : s.objects.get? a = some object)
    (hb : 0 < blockSize.toNat ∧ blockSize.toNat ≤ 127) :
    (s.during state k).proceed (.initiateBlockUpload crc a blockSize threshold) =
      { frames := [(Response.announceBlocks s.crc a (some (UInt32.ofNat object.length))).message
          s.node]
        device := s.during (.uploadBlockInitiated
          (.blockAt a (crc && s.crc) blockSize object 0)) k } := by
  have hobject : (s.during .idle k).objects.get? a = some object := h
  have hswitch' : (s.during .idle k).faults.switchProtocol = false := hswitch
  have hannounced : (s.during .idle k).announcement object = UInt32.ofNat object.length := by
    have hsize' : (s.during .idle k).faults.announcedSize = none := hsize
    rw [announcement, hsize']
    rfl
  show (s.during .idle k).initiateBlockUpload crc a blockSize threshold = _
  rw [initiateBlockUpload, hobject, hswitch']
  dsimp only
  rw [if_neg (by simp), if_neg (not_invalid hb), hannounced]
  rfl

end Server

namespace Line

theorem send_calm {l : Line} {m : Message} {frames : List Message} {s : Server}
    (hs : l.server.handle m = { frames, device := s }) :
    l.send {} m =
      { l with server := s, inbox := l.inbox ++ frames, sent := l.sent ++ [m] } :=
  send_answered rfl hs

end Line

namespace Client.Call

open Transfer

variable {c : Call Line} {s : Session Line} {srv : Server} {f : Option Nat} {crc : Bool}
variable {object : List UInt8} {start j n : Nat} {request : Request} {attempts : UInt32}

/-- A call on a line that loses nothing. There is patience until the deadline, and time passes. -/
structure Calm (c : Call Line) (srv : Server) : Prop where
  link : c.link = Line.link {}
  node : c.node = srv.node
  interval : 0 < c.config.pollInterval
  patient : c.config.timeout < c.patience
  blockSize : 0 < c.config.blockSize.toNat ∧ c.config.blockSize.toNat ≤ 127

theorem ends_exchange_calm (hc : c.link = Line.link {}) (hpatient : c.config.timeout < c.patience)
    (hi : s.world.inbox = []) {r : Request}
    {q : Response} {srv' : Server}
    (hhandle : s.world.server.handle (r.message c.node) =
      { frames := [q.message c.node], device := srv' })
    (hq : q.Regular) {Q : Response → Session Line → Prop} {E : Stop → Session Line → Prop}
    (heard : ∀ w d, w.inbox = [] → w.server = srv' → w.now = s.world.now →
      Q q { s with world := w, deadline := d }) :
    Ends (c.exchange r) s Q E := by
  rw [exchange, send]
  simp only [ends_bind]
  rw [ends_sendMessage hc, Line.send_calm hhandle, hi, await]
  simp only [ends_bind, ends_get]
  refine ends_awaitRounds hc (Nat.le_refl _) ?_ (fun hnil => by cases hnil) ?_
  · rintro a rest ha
    obtain ⟨rfl, rfl⟩ := List.cons.inj ha
    refine ⟨q.message_id c.node, ?_⟩
    rw [ends_readResponse (Response.ofMessage_message c.node hq.fits hq.tidy) hq.goes]
    exact heard _ _ rfl rfl rfl
  · rintro t (⟨hnil, -⟩ | hp)
    · cases hnil
    · omega

/-- Client and server have come to segment number `j` of the block that begins at `start`. -/
structure Midway (c : Call Line) (srv : Server) (f : Option Nat) (crc : Bool)
    (object : List UInt8) (R : List UInt8 → Nat → Prop) (start j : Nat) (s : Session Line) :
    Prop where
  server : ∃ k, s.world.server = (srv.losing f).during (.uploadBlock (c.block crc object start)) k
  seqno : s.seqno.toNat = j
  buffer : R s.buffer (start + j)
  timely : s.deadline ≤ s.world.now + c.config.timeout

structure Through (c : Call Line) (srv : Server) (f : Option Nat) (crc : Bool)
    (object : List UInt8) (R : List UInt8 → Nat → Prop) (s : Session Line) : Prop where
  inbox : s.world.inbox = []
  server : ∃ start k, start < segmentCount object ∧
    start + (c.block crc object start).length = segmentCount object ∧
    s.seqno.toNat = (c.block crc object start).length ∧
    s.world.server = (srv.losing f).during (.uploadBlock (c.block crc object start)) k
  buffer : R s.buffer (segmentCount object)

structure Begins (c : Call Line) (srv : Server) (f : Option Nat) (crc : Bool)
    (object : List UInt8) (R : List UInt8 → Nat → Prop) (start : Nat) (s : Session Line) :
    Prop where
  sent : ∃ k, let r := ((srv.losing f).during .idle k).sendBlock (c.block crc object start) 1
    s.world.inbox = r.frames ∧ s.world.server = r.device
  seqno : s.seqno = 0
  buffer : R s.buffer start
  timely : s.deadline ≤ s.world.now + c.config.timeout

variable {R : List UInt8 → Nat → Prop}

/-- What the client sends again when nothing comes of the block that begins at `start`. -/
def awaiting (c : Call Line) (start : Nat) : Request :=
  if start = 0 then .startBlockUpload else c.acknowledgement c.config.blockSize

theorem length_block_le : (c.block crc object start).length ≤ c.config.blockSize.toNat :=
  Nat.min_le_left _ _

theorem Begins.spared (h : Begins c srv f crc object R start s) (hnode : c.node = srv.node)
    (hf : ∀ n, 1 ≤ n → n ≤ (c.block crc object start).length → f ≠ some (start + n - 1)) :
    Midway c srv f crc object R start 0 s ∧
      s.world.inbox = (c.block crc object start).frames c.node 1 := by
  obtain ⟨⟨k, hi, hserver⟩, hseqno, hbuffer, htimely⟩ := h
  rw [Server.sendBlock_spared hf] at hi hserver
  refine ⟨⟨⟨k, hserver⟩, ?_, hbuffer, htimely⟩, hnode ▸ hi⟩
  rw [hseqno]
  rfl

theorem Begins.losing (h : Begins c srv f crc object R start s) (hnode : c.node = srv.node)
    (hj : j < (c.block crc object start).length) (hf : f = some (start + j)) :
    Midway c srv none crc object R start 0 s ∧
      s.world.inbox = (c.block crc object start).segments c.node 1 j
        ++ (c.block crc object start).frames c.node (j + 2) := by
  obtain ⟨⟨k, hi, hserver⟩, hseqno, hbuffer, htimely⟩ := h
  rw [Server.sendBlock_losing hj hf] at hi hserver
  refine ⟨⟨⟨k, hserver⟩, ?_, hbuffer, htimely⟩, hnode ▸ hi⟩
  rw [hseqno]
  rfl

section
variable (h : c.Calm srv) (accept : ∀ {buffer k}, R buffer k →
  R (buffer ++ (padTo 7 (segmentBytes object k)).toList) (k + 1))
include h

theorem handle_acknowledgement {w : Line} {k : Nat} (seqno : UInt8)
    (hk : w.server = (srv.losing f).during (.uploadBlock (c.block crc object start)) k) :
    w.server.handle ((c.acknowledgement seqno).message c.node) =
      ((srv.losing f).during .idle (k + 1)).confirmBlock (c.block crc object start) seqno
        c.config.blockSize := by
  have hregular : (c.acknowledgement seqno).Regular := .of_plain trivial
  rw [hk, h.node, Server.handle_losing (by simp) hregular]
  rfl

theorem begins_next
    (hs : ∃ k, s.world.server = (srv.losing f).during (.uploadBlock (c.block crc object start)) k)
    (hbuffer : R s.buffer (start + c.config.blockSize.toNat)) (hi : s.world.inbox = [])
    (hmore : start + c.config.blockSize.toNat < segmentCount object) :
    let w := s.world.send {} ((c.acknowledgement c.config.blockSize).message c.node)
    Begins c srv f crc object R (start + c.config.blockSize.toNat)
      { s with world := w, seqno := 0, deadline := w.now + c.config.timeout } := by
  have hlength : (c.block crc object start).length = c.config.blockSize.toNat := by
    rw [length_block]
    omega
  obtain ⟨k, hk⟩ := hs
  have hnext := Server.confirmBlock_next (s := (srv.losing f).during .idle (k + 1))
    (t := c.block crc object start) hlength.symm h.blockSize (by rw [hlength]; exact hmore)
  rw [Server.BlockUpload.next, hlength] at hnext
  have hhandle := (handle_acknowledgement h c.config.blockSize hk).trans hnext
  dsimp only
  rw [Line.send_calm (hhandle.trans rfl), hi]
  exact ⟨⟨k + 1, rfl, rfl⟩, rfl, hbuffer, Nat.le_refl _⟩

include accept

theorem ends_restOfBlock (hs : Midway c srv f crc object R start j s)
    (hstart : start < segmentCount object) (hj : j < (c.block crc object start).length)
    (hi : s.world.inbox = (c.block crc object start).frames c.node (j + 1))
    {Q : Unit → Session Line → Prop} {E : Stop → Session Line → Prop}
    (through : start + (c.block crc object start).length = segmentCount object → ∀ t,
      Through c srv f crc object R t → t.announced = s.announced → Q () t)
    (next : start + c.config.blockSize.toNat < segmentCount object → ∀ t,
      Begins c srv f crc object R (start + c.config.blockSize.toNat) t →
      t.announced = s.announced → t.retries = s.retries →
        Ends (c.receiveBlocks (c.acknowledgement c.config.blockSize) 1 n) t Q E) :
    Ends (c.receiveBlocks request attempts (n + ((c.block crc object start).length - j))) s Q
      E := by
  have hpatient := h.patient
  have hb := h.blockSize
  have hle : (c.block crc object start).length ≤ c.config.blockSize.toNat := length_block_le
  have hseqno : (UInt8.ofNat (c.block crc object start).length).toNat
      = (c.block crc object start).length := UInt8.toNat_ofNat_of_lt (show _ < 256 by omega)
  obtain ⟨m, hm⟩ : ∃ m, (c.block crc object start).length - j = m + 1 :=
    Nat.exists_eq_add_of_le' (by omega)
  obtain ⟨⟨k, hk⟩, hseq, hbuffer, htimely⟩ := hs
  rw [hm]
  refine ends_receiveBlock (t := c.block crc object start) h.link (by omega) hb.2 rfl accept
    (by omega) hi hseq hbuffer htimely fun buffer transferred hbuffer' => ?_
  by_cases hend : start + (c.block crc object start).length = segmentCount object
  · rw [if_pos hend, ends_pure]
    exact through hend _ ⟨rfl, ⟨start, k, hstart, hend, hseqno, hk⟩, hend ▸ hbuffer'⟩ rfl
  · have hfull : (c.block crc object start).length = c.config.blockSize.toNat := by
      rw [length_block] at hend ⊢
      omega
    have hmore : start + c.config.blockSize.toNat < segmentCount object := by
      rw [length_block] at hend
      omega
    have hsize : UInt8.ofNat (c.block crc object start).length = c.config.blockSize := by
      rw [hfull, UInt8.ofNat_toNat]
    rw [if_neg hend, ends_bind, hsize]
    refine ends_acknowledge h.link ?_
    rw [if_pos rfl]
    refine next hmore _ (begins_next (s := { s with
        world := { s.world with inbox := [] }
        deadline := s.world.now + c.config.timeout
        seqno := c.config.blockSize
        buffer
        transferred }) h ⟨k, hk⟩ (hfull ▸ hbuffer') rfl hmore) rfl rfl

theorem ends_receiveBlocks_spared (hs : Midway c srv f crc object R start j s)
    (hstart : start < segmentCount object) (hj : j < (c.block crc object start).length)
    (hi : s.world.inbox = (c.block crc object start).frames c.node (j + 1))
    (hf : ∀ i, f = some i → i < start + (c.block crc object start).length ∨ segmentCount object ≤ i)
    (hn : segmentCount object - start ≤ n)
    {Q : Unit → Session Line → Prop} {E : Stop → Session Line → Prop}
    (through : ∀ t, Through c srv f crc object R t → t.announced = s.announced → Q () t) :
    Ends (c.receiveBlocks request attempts n) s Q E := by
  -- On the number of segments left.
  induction hleft : segmentCount object - start using Nat.strongRecOn
    generalizing s start j request attempts n with
  | ind left ih =>
    have hb := h.blockSize
    have hlength : (c.block crc object start).length
      = min c.config.blockSize.toNat (segmentCount object - start) := length_block
    obtain ⟨m, rfl⟩ : ∃ m, n = m + ((c.block crc object start).length - j) :=
      Nat.exists_eq_add_of_le' (by omega)
    refine ends_restOfBlock h accept hs hstart hj hi (fun _ => through) fun hmore t ht hann _ => ?_
    have hspared : ∀ n, 1 ≤ n →
        n ≤ (c.block crc object (start + c.config.blockSize.toNat)).length →
          f ≠ some (start + c.config.blockSize.toNat + n - 1) := by
      intro n hn hle he
      rw [length_block] at hle
      rcases hf _ he with hbefore | hbeyond
      · omega
      · omega
    obtain ⟨hmid, hframes⟩ := ht.spared h.node hspared
    refine ih _ (by omega) hmid hmore ?_ hframes ?_ (by omega)
      (fun u hu hann' => through u hu (hann'.trans hann)) rfl
    · rw [length_block]
      omega
    · intro i hi
      rcases hf i hi with hbefore | hbeyond
      · exact .inl (by omega)
      · exact .inr hbeyond

theorem ends_receiveBlocks_until {i : Nat} (hi : i < segmentCount object)
    (hs : Begins c srv (some i) crc object R start s) (hle : start ≤ i)
    (haligned : start % c.config.blockSize.toNat = 0)
    (hrequest : request = c.awaiting start)
    (hn : 2 * (segmentCount object - start) + 2 ≤ n)
    {Q : Unit → Session Line → Prop} {E : Stop → Session Line → Prop}
    (hit : ∀ start j t attempts n, start + j = i → start % c.config.blockSize.toNat = 0 →
      j < (c.block crc object start).length → Midway c srv none crc object R start 0 t →
      t.world.inbox = (c.block crc object start).segments c.node 1 j
        ++ (c.block crc object start).frames c.node (j + 2) →
      t.announced = s.announced → t.retries = s.retries →
      2 * (segmentCount object - start) + 2 ≤ n →
        Ends (c.receiveBlocks (c.awaiting start) attempts n) t Q E) :
    Ends (c.receiveBlocks request attempts n) s Q E := by
  -- On the number of segments left.
  induction hleft : segmentCount object - start using Nat.strongRecOn
    generalizing s start request attempts n with
  | ind left ih =>
    have hb := h.blockSize
    have hlength : (c.block crc object start).length
      = min c.config.blockSize.toNat (segmentCount object - start) := length_block
    subst hrequest
    by_cases hin : i < start + (c.block crc object start).length
    · obtain ⟨j, rfl⟩ := Nat.exists_eq_add_of_le hle
      obtain ⟨hmid, hframes⟩ := hs.losing h.node (by omega) rfl
      exact hit start j s attempts n rfl haligned (by omega) hmid hframes rfl rfl hn
    · have hspared : ∀ n, 1 ≤ n → n ≤ (c.block crc object start).length →
          some i ≠ some (start + n - 1) := by
        intro n hn hle he
        have heq := Option.some.inj he
        omega
      obtain ⟨hmid, hframes⟩ := hs.spared h.node hspared
      obtain ⟨m, rfl⟩ : ∃ m, n = m + ((c.block crc object start).length - 0) :=
        Nat.exists_eq_add_of_le' (by omega)
      refine ends_restOfBlock h accept hmid (by omega) (by omega) hframes (by omega)
        fun hmore t ht hann hretries => ?_
      have hnext : c.acknowledgement c.config.blockSize
          = c.awaiting (start + c.config.blockSize.toNat) := (if_neg (by omega)).symm
      refine ih _ (by omega) ht (by omega) (by rw [Nat.add_mod_right, haligned]) hnext (by omega)
        (fun start j u attempts n hsum hal hj hu hframes' hann' hretries' hn' => ?_) rfl
      exact hit start j u attempts n hsum hal hj hu hframes' (hann'.trans hann)
        (hretries'.trans hretries) hn'

omit accept

theorem Calm.exposed : c.Exposed {} (srv.losing none) := ⟨h.link, h.node, rfl, h.blockSize⟩

theorem ends_dropSegment {p : Nat} (hp : p < (c.block crc object start).length)
    (hgap : s.seqno.toNat < p)
    (hi : s.world.inbox = (c.block crc object start).frames c.node (p + 1))
    {Q : Unit → Session Line → Prop} {E : Stop → Session Line → Prop}
    (goes : Ends (if p + 1 = (c.block crc object start).length then
          do c.receiveBlocks (← c.acknowledge) 1 n
        else c.receiveBlocks request 1 n)
      { s with world := { s.world with inbox := (c.block crc object start).frames c.node (p + 2) } }
      Q E) :
    Ends (c.receiveBlocks request attempts (n + 1)) s Q E := by
  have hb := h.blockSize
  have hpatient := h.patient
  have hle : (c.block crc object start).length ≤ c.config.blockSize.toNat := length_block_le
  let segment := blockSegment object (start + p) (UInt8.ofNat (p + 1))
  have hnumber : segment.seqno.toNat = p + 1 := toNat_segmentNumber h.exposed hp
  have hi' : s.world.inbox = segment.message .server c.node
      :: (c.block crc object start).frames c.node (p + 2) :=
    hi.trans ((c.block crc object start).frames_eq_cons c.node hp)
  refine ends_receiveBlocks_segment h.link hi' (by omega) (by omega) (by omega)
    (fun hseq => by omega) (fun _ => ?_) fun hp => by omega
  have hsegment : segment = blockSegment object (start + p) (UInt8.ofNat (p + 1)) := rfl
  have hends := ends_block h.exposed hsegment hp
  rw [afterSegment]
  simp only [hends]
  exact goes

/-- Segments behind a gap are dropped. At the end of the block it is acknowledged what there is. -/
theorem ends_dropSegments {m p : Nat} (hm : p + (m + 1) = (c.block crc object start).length)
    (hgap : s.seqno.toNat < p)
    (hi : s.world.inbox = (c.block crc object start).frames c.node (p + 1))
    {Q : Unit → Session Line → Prop} {E : Stop → Session Line → Prop}
    (goes : Ends (do c.receiveBlocks (← c.acknowledge) 1 n)
      { s with world := { s.world with inbox := [] } } Q E) :
    Ends (c.receiveBlocks request attempts (n + (m + 1))) s Q E := by
  induction m generalizing p s attempts with
  | zero =>
    refine ends_dropSegment h (by omega) hgap hi ?_
    rw [if_pos hm, Server.BlockUpload.frames_eq_nil _ _ (by omega)]
    exact goes
  | succ m ih =>
    refine ends_dropSegment h (by omega) hgap hi ?_
    rw [if_neg (by omega)]
    exact ih (by omega) (Nat.lt_succ_of_lt hgap) rfl goes

theorem Midway.resent (hs : Midway c srv none crc object R start j s) (hi : s.world.inbox = [])
    {m : Message} {k : Nat}
    (hhandle : s.world.server.handle m =
      ((srv.losing none).during .idle k).sendBlock (c.block crc object start) (j + 1)) :
    let t := { s with
      world := s.world.send {} m
      deadline := (s.world.send {} m).now + c.config.timeout }
    Midway c srv none crc object R start j t ∧
      t.world.inbox = (c.block crc object start).frames c.node (j + 1) := by
  obtain ⟨-, hseqno, hbuffer, -⟩ := hs
  rw [Server.sendBlock_spared (by simp)] at hhandle
  dsimp only
  rw [Line.send_calm hhandle, hi, List.nil_append, ← h.node]
  exact ⟨⟨⟨k, rfl⟩, hseqno, hbuffer, Nat.le_refl _⟩, rfl⟩

theorem Midway.acknowledged (hs : Midway c srv none crc object R start j s)
    (hi : s.world.inbox = []) (hj : j < (c.block crc object start).length) :
    let m := (c.acknowledgement s.seqno).message c.node
    let t := { s with
      world := s.world.send {} m
      deadline := (s.world.send {} m).now + c.config.timeout }
    Midway c srv none crc object R start j t ∧
      t.world.inbox = (c.block crc object start).frames c.node (j + 1) := by
  obtain ⟨k, hk⟩ := hs.server
  have hless : s.seqno.toNat < (c.block crc object start).length := hs.seqno.symm ▸ hj
  refine hs.resent h hi (k := k + 1) ?_
  rw [handle_acknowledgement h s.seqno hk, Server.confirmBlock_some hless, hs.seqno]

theorem Midway.restarted (hs : Midway c srv none crc object R start 0 s)
    (hi : s.world.inbox = []) :
    let m := Request.startBlockUpload.message c.node
    let t := { s with
      world := s.world.send {} m
      deadline := (s.world.send {} m).now + c.config.timeout }
    Midway c srv none crc object R start 0 t ∧
      t.world.inbox = (c.block crc object start).frames c.node 1 := by
  have hregular : Request.startBlockUpload.Regular := .of_plain trivial
  obtain ⟨k, hk⟩ := hs.server
  refine hs.resent h hi (k := k + 1) ?_
  rw [hk, h.node, Server.handle_losing (by simp) hregular]
  rfl

include accept

theorem ends_gap_at_end (hs : Midway c srv none crc object R start j s) (hi : s.world.inbox = [])
    (hstart : start < segmentCount object) (hlast : j + 1 = (c.block crc object start).length)
    (hretries : 0 < s.retries) (hfirst : j = 0 → start = 0) (hn : segmentCount object - start ≤ n)
    {Q : Unit → Session Line → Prop} {E : Stop → Session Line → Prop}
    (through : ∀ t, Through c srv none crc object R t → t.announced = s.announced → Q () t) :
    Ends (c.receiveBlocks (c.awaiting start) attempts (n + 1)) s Q E := by
  have hj : j < (c.block crc object start).length := by omega
  obtain ⟨r, hretries⟩ := Nat.exists_eq_add_of_le' hretries
  refine ends_receiveBlocks_nil h.link hi (fun now => ?_) fun t ht => ?_
  · refine ends_takeRetry_succ h.link (by exact hretries) fun ws => ?_
    have hv : Midway c srv none crc object R start j
        { s with world := { s.world with now, warnings := ws }, retries := r, deadline := 0 } :=
      ⟨hs.server, hs.seqno, hs.buffer, Nat.zero_le _⟩
    by_cases hsome : 0 < s.seqno
    · obtain ⟨hmid, hframes⟩ := hv.acknowledged h hi hj
      simp only [if_pos hsome]
      exact ends_receiveBlocks_spared h accept hmid hstart hj hframes (by simp) hn through
    · have hzero : j = 0 := by
        rw [UInt8.lt_iff_toNat_lt, hs.seqno] at hsome
        exact Nat.eq_zero_of_not_pos hsome
      subst hzero
      have hagain : c.awaiting start = .startBlockUpload := if_pos (hfirst rfl)
      obtain ⟨hmid, hframes⟩ := hv.restarted h hi
      simp only [if_neg hsome, hagain]
      exact ends_receiveBlocks_spared h accept hmid hstart hj hframes (by simp) hn through
  · have htimely := hs.timely
    have hinterval := h.interval
    have hpatient := h.patient
    omega

/-- What comes behind a gap is dropped, and the end of the block makes the client acknowledge what
there is in front. -/
theorem ends_gap_inside (hs : Midway c srv none crc object R start j s)
    (hi : s.world.inbox = (c.block crc object start).frames c.node (j + 2))
    (hstart : start < segmentCount object) (hlast : j + 1 < (c.block crc object start).length)
    (hn : segmentCount object - start + (c.block crc object start).length ≤ n + j + 1)
    {Q : Unit → Session Line → Prop} {E : Stop → Session Line → Prop}
    (through : ∀ t, Through c srv none crc object R t → t.announced = s.announced → Q () t) :
    Ends (c.receiveBlocks request attempts n) s Q E := by
  have hb := h.blockSize
  have hlength : (c.block crc object start).length ≤ c.config.blockSize.toNat := length_block_le
  obtain ⟨l, hl⟩ : ∃ l, j + 1 + (l + 1) = (c.block crc object start).length :=
    ⟨(c.block crc object start).length - (j + 2), by omega⟩
  obtain ⟨m, rfl⟩ : ∃ m, n = m + (l + 1) := Nat.exists_eq_add_of_le' (by omega)
  refine ends_dropSegments h hl (by rw [hs.seqno]; exact Nat.lt_succ_self j) hi ?_
  have hv : Midway c srv none crc object R start j
      { s with world := { s.world with inbox := [] } } :=
    ⟨hs.server, hs.seqno, hs.buffer, hs.timely⟩
  have hless : s.seqno ≠ c.config.blockSize := by
    intro he
    have hseqno := hs.seqno
    rw [he] at hseqno
    omega
  obtain ⟨hmid, hframes⟩ := hv.acknowledged h rfl (by omega)
  rw [ends_bind]
  refine ends_acknowledge h.link ?_
  rw [if_neg hless]
  exact ends_receiveBlocks_spared h accept hmid hstart (by omega) hframes (by simp) (by omega)
    through

/-- A block of which one segment is lost comes in the end, unless that is all of it and the server
knows the block before to have come. -/
theorem ends_receiveBlocks_recovered (hs : Midway c srv none crc object R start 0 s)
    (hstart : start < segmentCount object) (hj : j < (c.block crc object start).length)
    (hi : s.world.inbox = (c.block crc object start).segments c.node 1 j
      ++ (c.block crc object start).frames c.node (j + 2))
    (hretries : 0 < s.retries) (hfirst : (c.block crc object start).length = 1 → start = 0)
    (hn : 2 * (segmentCount object - start) + 2 ≤ n)
    {Q : Unit → Session Line → Prop} {E : Stop → Session Line → Prop}
    (through : ∀ t, Through c srv none crc object R t → t.announced = s.announced → Q () t) :
    Ends (c.receiveBlocks (c.awaiting start) attempts n) s Q E := by
  have hb := h.blockSize
  have hlength : (c.block crc object start).length
    = min c.config.blockSize.toNat (segmentCount object - start) := length_block
  have hpatient := h.patient
  obtain ⟨m, rfl⟩ : ∃ m, n = m + 1 + j := ⟨n - j - 1, by omega⟩
  obtain ⟨⟨k, hk⟩, hseq, hbuffer, htimely⟩ := hs
  have hnumber : (UInt8.ofNat (0 + j)).toNat = j := by
    rw [Nat.zero_add]
    exact UInt8.toNat_ofNat_of_lt (show _ < 256 by omega)
  -- The segments in front of the gap come first.
  refine ends_receiveInner (t := c.block crc object start) (j := 0) h.link (by omega) hb.2 rfl
    accept (by omega) hi hseq hbuffer htimely fun buffer transferred attempts d hbuffer' hd => ?_
  rw [Nat.zero_add] at hbuffer'
  have hu : Midway c srv none crc object R start j
      { s with
        world := { s.world with inbox := (c.block crc object start).frames c.node (j + 2) }
        deadline := d
        seqno := UInt8.ofNat (0 + j)
        buffer
        transferred } := ⟨⟨k, hk⟩, hnumber, hbuffer', hd⟩
  by_cases hlast : j + 1 = (c.block crc object start).length
  · have hnil : (c.block crc object start).frames c.node (j + 2) = [] :=
      Server.BlockUpload.frames_eq_nil _ _ (Nat.le_of_eq hlast.symm)
    exact ends_gap_at_end h accept hu hnil hstart hlast hretries
      (fun hzero => hfirst (by omega)) (by omega) through
  · exact ends_gap_inside h accept hu rfl hstart (by omega) (by omega) through

end
end Client.Call
end Canopen
