import Canopen.Proofs.BlockReceiver
import Canopen.Proofs.BlockUpload
import Canopen.Proofs.ForeignTraffic
import Canopen.Proofs.Prompt
import Canopen.Proofs.Punctuality
import Mathlib.Data.List.Chain

set_option autoImplicit false

namespace Canopen

open Can (Message TransportError)
open Sdo

namespace Script

variable {ε : Type}

abbrev Brisk (timeout : Nat) (times : List Nat) : Prop :=
  times.IsChain fun time next => next < time + timeout

/-- The reply to a message brings these frames, each of them less than the timeout behind the one
before, and the first one behind the message. -/
def Brings (timeout : Nat) (reply : Except ε (List Cue)) (ms : List Message) : Prop :=
  ∃ frames : List (Nat × Message), ms = frames.map (·.2) ∧
    reply = .ok (frames.map fun f => .event (.frame f.2) f.1 1) ∧
    Brisk timeout (0 :: frames.map (·.1))

/-- These frames are on their way to the client and nothing else is, and these will follow on its
next messages. -/
structure Due (timeout : Nat) (ms : List Message) (replies : List (List Message))
    (sent : List Message) (w : Script ε) : Prop where
  calm : w.cancelled = false
  queue : w.queue.map (·.2) = ms.map .frame
  brisk : Brisk timeout (w.now :: w.queue.map (·.1))
  replies : List.Forall₂ (Brings timeout) w.replies replies
  sent : w.sent.toList.map (·.2) = sent

theorem Brisk.behind {timeout time time' : Nat} {times : List Nat}
    (h : Brisk timeout (time :: times)) (hle : time ≤ time') : Brisk timeout (time' :: times) := by
  cases times with
  | nil => exact .singleton _
  | cons next times =>
    obtain ⟨hnext, hrest⟩ := List.isChain_cons_cons.mp h
    exact .cons_cons (by omega) hrest

theorem Brisk.shift {timeout : Nat} {times : List Nat} (h : Brisk timeout times) (now : Nat) :
    Brisk timeout (times.map (now + ·)) := by
  rw [Brisk, List.isChain_map]
  exact h.imp fun _ _ hnext => by omega

theorem enqueue_delayed (frames : List (Nat × Message)) (w : Script ε) :
    w.enqueue (frames.map fun f => .event (.frame f.2) f.1 1)
      = { w with queue := w.queue ++ frames.map fun f => (w.now + f.1, .frame f.2) } := by
  induction frames generalizing w with
  | nil => simp [enqueue]
  | cons f frames ih =>
    have hrest := ih (w.enqueueCue (.event (.frame f.2) f.1 1))
    rw [enqueue] at hrest ⊢
    rw [List.map_cons, List.foldl_cons, hrest]
    simp [enqueueCue]

variable {timeout : Nat} {ms next : List Message} {replies : List (List Message)}
  {sent : List Message} {w : Script ε}

theorem Due.cons {m : Message} (h : w.Due timeout (m :: ms) replies sent) :
    ∃ ready rest, w.queue = (ready, .frame m) :: rest ∧ ready < w.now + timeout := by
  have hqueue := h.queue
  have hbrisk := h.brisk
  cases hw : w.queue with
  | nil => simp [hw] at hqueue
  | cons entry rest =>
    obtain ⟨ready, e⟩ := entry
    rw [hw, List.map_cons, List.map_cons] at hqueue
    obtain ⟨rfl, -⟩ := List.cons.inj hqueue
    rw [hw] at hbrisk
    exact ⟨ready, rest, rfl, (List.isChain_cons_cons.mp hbrisk).1⟩

theorem receive_frame {ready : Nat} {m : Message} {rest : List (Nat × Event)}
    (hw : w.queue = (ready, .frame m) :: rest) :
    w.receive =
      let now := w.now + w.receiveCost
      if ready ≤ now then
        (.ok (some m), { w with now, queue := rest, looks := w.looks + 1 })
      else (.ok none, { w with now, looks := w.looks + 1 }) := by
  dsimp only
  split
  · rename_i hready
    have hnext : Script.next (w.now + w.receiveCost) w.queue = (some (.frame m), false, rest) := by
      rw [hw]
      simp only [Script.next, if_pos hready]
    simp only [receive, hnext, Bool.or_false]
  · rename_i hwaits
    have hnext : Script.next (w.now + w.receiveCost) w.queue = (none, false, w.queue) := by
      rw [hw]
      simp only [Script.next, if_neg hwaits]
    simp only [receive, hnext, Bool.or_false]

theorem receive_of_nil (hw : w.queue = []) :
    w.receive = (.ok none, { w with now := w.now + w.receiveCost, looks := w.looks + 1 }) := by
  have hnext : Script.next (w.now + w.receiveCost) w.queue = (none, false, w.queue) := by
    rw [hw]
    rfl
  simp only [receive, hnext, Bool.or_false]

theorem Due.waited (h : w.Due timeout ms replies sent) {now : Nat} (hle : w.now ≤ now)
    (looks : Nat) (log : Array Record) :
    ({ w with now, looks, log } : Script ε).Due timeout ms replies sent :=
  ⟨h.calm, h.queue, h.brisk.behind hle, h.replies, h.sent⟩

theorem Due.taken {m : Message} (h : w.Due timeout (m :: ms) replies sent) {ready : Nat}
    {rest : List (Nat × Event)} (hw : w.queue = (ready, .frame m) :: rest) {now : Nat}
    (hready : ready ≤ now) (looks : Nat) (log : Array Record) :
    ({ w with now, queue := rest, looks, log } : Script ε).Due timeout ms replies sent := by
  have hqueue := h.queue
  have hbrisk := h.brisk
  rw [hw] at hqueue hbrisk
  have hrest : Brisk timeout (ready :: rest.map (·.1)) := (List.isChain_cons_cons.mp hbrisk).2
  exact ⟨h.calm, (List.cons.inj hqueue).2, hrest.behind hready, h.replies, h.sent⟩

theorem steady : Client.Link.Steady link where
  send m w := Nat.le_of_eq (stock_send m w).2.symm
  receive _ := Nat.le_add_right _ _
  note _ _ := Nat.le_refl _
  sleep _ _ := Nat.le_add_right _ _

theorem Due.send (h : w.Due timeout [] replies sent) (m : Message) :
    ∃ v, w.send m = (.ok (), v) ∧
      v.Due timeout (replies.headD []) replies.tail (sent ++ [m]) := by
  obtain ⟨calm, queue, brisk, replies, sent⟩ := h
  have hempty : w.queue = [] := List.map_eq_nil_iff.mp queue
  generalize hreplies : w.replies = actual at replies
  cases replies with
  | nil =>
    exact ⟨_, send_of_nil hreplies m, calm, queue, brisk, hreplies ▸ .nil, by simp [sent]⟩
  | cons hreply hrest =>
    obtain ⟨frames, rfl, rfl, hframes⟩ := hreply
    refine ⟨_, send_of_ok hreplies m, ?_⟩
    rw [enqueue_delayed, hempty]
    refine ⟨calm, ?_, ?_, hrest, ?_⟩
    · simp
    · have hshift := hframes.shift w.now
      simpa [Function.comp_def] using hshift
    · simp [sent]

end Script

namespace Client

open Transfer

def segmentFrame (node : NodeId) (data : List UInt8) (start j : Nat) : Message :=
  (blockSegment data (start + j) (UInt8.ofNat (j + 1))).message .server node

def blockFrames (node : NodeId) (data : List UInt8) (blockSize start : Nat) : List Message :=
  (List.range (min blockSize (segmentCount data - start))).map (segmentFrame node data start)

def blocksFrom (node : NodeId) (data : List UInt8) (blockSize : Nat) :
    (start : Nat) → Nat → List (List Message)
  | _, 0 => []
  | start, m + 1 =>
    blockFrames node data blockSize start :: blocksFrom node data blockSize (start + blockSize) m

/-- How a server gives an object in blocks. What it fills the last segment up with is of no matter,
and a size of zero says nothing. -/
structure Rendition (config : Config) where
  object : List UInt8
  stuffing : List UInt8 := []
  fits : (object ++ stuffing).length ≤ segmentCount object * segmentSize
  checked : Bool
  checksum : UInt16
  sound : (checked && config.useCrc) = true → checksum = crc object
  sized : Bool
  size : UInt32
  announced : sized = true → size = 0 ∨ size.toNat = object.length

namespace Rendition

variable {config : Config} (r : Rendition config)

def data : List UInt8 := r.object ++ r.stuffing

def inner : Nat := (segmentCount r.data - 1) / config.blockSize.toNat

def replies (node : NodeId) (target : Address) : List (List Message) :=
  [(Response.confirmBlockUpload r.checked r.sized target r.size).message node]
    :: blocksFrom node r.data config.blockSize.toNat 0 (r.inner + 1)
    ++ [[(Response.endBlockUpload
      (UInt8.ofNat (segmentCount r.object * segmentSize - r.object.length)) r.checksum).message
        node]]

/-- What a client has to send for it. -/
def requests (node : UInt8) (target : Address) : List Message :=
  [Fetching.openingFrame config node target, startFrame node]
    ++ List.replicate r.inner (acknowledgementFrame node config.blockSize config.blockSize.toNat)
    ++ [acknowledgementFrame node config.blockSize
        (segmentCount r.data - r.inner * config.blockSize.toNat),
      Fetching.completionFrame node]

theorem segmentCount_data : segmentCount r.data = segmentCount r.object := by
  have hfits := r.fits
  rw [data]
  simp only [List.length_append, segmentCount, segmentSize] at *
  omega

theorem inner_spec (hb : 0 < config.blockSize.toNat) :
    r.inner * config.blockSize.toNat < segmentCount r.data ∧
      segmentCount r.data ≤ (r.inner + 1) * config.blockSize.toNat := by
  have hpos := segmentCount_pos r.data
  have hdivides := Nat.div_add_mod (segmentCount r.data - 1) config.blockSize.toNat
  have hrest := Nat.mod_lt (segmentCount r.data - 1) hb
  rw [Nat.mul_comm] at hdivides
  rw [Nat.succ_mul, inner]
  omega

theorem take_filled_data :
    (filled r.data (segmentCount r.data)).take
      ((filled r.data (segmentCount r.data)).length
        - (segmentCount r.object * segmentSize - r.object.length)) = r.object := by
  have hspec := segmentCount_spec r.object
  have hlength : segmentCount r.data * segmentSize
      - (segmentCount r.object * segmentSize - r.object.length) = r.object.length := by
    rw [segmentCount_data]
    omega
  have hle : r.object.length ≤ r.data.length := by simp [data]
  have hfilled := congrArg (List.take r.object.length) (take_filled r.data)
  rw [List.take_take, Nat.min_eq_left hle] at hfilled
  rw [length_filled, hlength, hfilled, data, List.take_left]

end Rendition

/-- A call over a script, with patience for a whole timeout. -/
structure Call.OverScript (c : Call (Script TransportError)) : Prop where
  link : c.link = Script.link
  interval : 0 < c.config.pollInterval
  patient : c.config.timeout < c.patience

namespace Call

variable {c : Call (Script TransportError)} {s : Session (Script TransportError)}
  {ms next : List Message} {replies : List (List Message)} {sent : List Message}

structure Awaits (c : Call (Script TransportError)) (ms : List Message)
    (replies : List (List Message)) (sent : List Message) (s : Session (Script TransportError)) :
    Prop where
  due : s.world.Due c.config.timeout ms replies sent
  deadline : s.deadline = s.world.now + c.config.timeout

structure Reads (c : Call (Script TransportError)) (data : List UInt8) (k : Nat)
    (announced : Option Nat) (ms : List Message) (replies : List (List Message))
    (sent : List Message) (s : Session (Script TransportError)) : Prop
    extends c.Awaits ms replies sent s where
  buffer : s.buffer = filled data k
  announced : s.announced = announced

namespace OverScript

variable (h : c.OverScript)
include h

theorem due_note {w : Script TransportError} (hw : w.Due c.config.timeout ms replies sent)
    (r : Record) : (c.link.note r w).Due c.config.timeout ms replies sent := by
  rw [h.link]
  exact hw.waited (Nat.le_refl _) w.looks (w.log.push r)

theorem ends_poll {m : Message} (hm : m.id = c.node.responseId)
    (hs : s.world.Due c.config.timeout (m :: ms) replies sent)
    (hready : ∀ entry ∈ s.world.queue.head?, entry.1 < s.deadline) {n : Nat}
    (hn : s.deadline - s.world.now < n) :
    Ends (c.poll n) s
      (fun received t => received = some m ∧
        ∃ w, t = { s with world := w } ∧ w.Due c.config.timeout ms replies sent)
      fun _ _ => False := by
  -- On the looks left: there are enough of them to sleep until the deadline.
  induction n generalizing s with
  | zero => exact absurd hn (Nat.not_lt_zero _)
  | succ n ih =>
    obtain ⟨ready, rest, hqueue, -⟩ := hs.cons
    have hcancelled : c.link.cancelled s.world = false := by rw [h.link]; exact hs.calm
    have hlink : c.link.receive s.world = s.world.receive := by rw [h.link]; rfl
    have hin : ready < s.deadline := hready (ready, .frame m) (by simp [hqueue])
    have hinterval := h.interval
    have hreceive := Script.receive_frame hqueue
    rw [poll, ends_bind, ends_get, hcancelled, if_neg Bool.false_ne_true, ends_bind, receive,
      ends_bind, ends_act, hlink]
    by_cases hnow : ready ≤ s.world.now + s.world.receiveCost
    · rw [hreceive, if_pos hnow]
      simp only [ends_pure, if_pos hm, ends_bind, note, ends_act]
      rw [h.link]
      exact ⟨trivial, _, rfl, hs.taken hqueue hnow _ _⟩
    · rw [hreceive, if_neg hnow]
      let v : Script TransportError :=
        { s.world with now := s.world.now + s.world.receiveCost, looks := s.world.looks + 1 }
      let w : Script TransportError :=
        { v with now := s.world.now + s.world.receiveCost + c.config.pollInterval }
      have hearly : ¬ s.deadline ≤ Script.link.now v := by
        show ¬ s.deadline ≤ s.world.now + s.world.receiveCost
        omega
      have hlater : w.Due c.config.timeout (m :: ms) replies sent :=
        hs.waited (by omega) (s.world.looks + 1) s.world.log
      have hfewer : s.deadline - w.now < n := by
        show s.deadline - (s.world.now + s.world.receiveCost + c.config.pollInterval) < n
        omega
      simp only [ends_pure, ends_bind, overdue, ends_get, h.link]
      rw [if_neg (by simpa using hearly), ends_bind, ends_act]
      exact ih (s := { s with world := w }) hlater hready hfewer

theorem ends_nextMessage {m : Message} (hm : m.id = c.node.responseId)
    (hs : c.Awaits (m :: ms) replies sent s) :
    Ends c.nextMessage s
      (fun received t => received = some m ∧
        ∃ w, t = { s with world := w } ∧ w.Due c.config.timeout ms replies sent)
      fun _ _ => False := by
  obtain ⟨hdue, hdeadline⟩ := hs
  obtain ⟨ready, rest, hqueue, hready⟩ := hdue.cons
  have hpatient := h.patient
  refine h.ends_poll hm hdue ?_ (by omega)
  rw [hqueue, hdeadline]
  rintro _ ⟨⟩
  exact hready

theorem ends_sendMessage (m : Message) (hs : s.world.Due c.config.timeout [] replies sent) :
    Ends (c.sendMessage m) s
      (fun _ t => ∃ w, t = { s with world := w, deadline := w.now + c.config.timeout } ∧
        w.Due c.config.timeout (replies.headD []) replies.tail (sent ++ [m]))
      fun _ _ => False := by
  obtain ⟨v, hsend, hv⟩ := (h.due_note hs ⟨.trace, s!"SDO tx: {m}"⟩).send m
  have hlink : c.link.send m (c.link.note ⟨.trace, s!"SDO tx: {m}"⟩ s.world) = (.ok (), v) := by
    rw [h.link] at hsend ⊢
    exact congrArg (fun p => (p.1.mapError id, p.2)) hsend
  simp only [sendMessage, trySend, note, ends_bind, ends_act, hlink]
  exact ⟨v, by rw [h.link]; rfl, hv⟩

theorem ends_ask (m : Message) (resend : Transfer (Script TransportError) Unit) {q : Response}
    (hq : q.Regular)
    (hs : s.world.Due c.config.timeout [] ([q.message c.node] :: replies) sent) :
    Ends (do c.sendMessage m; c.await resend) s
      (fun a t => a = q ∧ ∃ w d, t = { s with world := w, deadline := d } ∧
        w.Due c.config.timeout [] replies (sent ++ [m]))
      fun _ _ => False := by
  rw [ends_bind]
  refine (h.ends_sendMessage m hs).mono (fun _ t ht => ?_) fun _ _ he => he
  obtain ⟨w, rfl, hw⟩ := ht
  have hw : w.Due c.config.timeout [q.message c.node] replies (sent ++ [m]) := hw
  rw [await, ends_bind, ends_get, awaitRounds, ends_bind, nextResponse, ends_bind]
  refine (h.ends_nextMessage (q.message_id c.node) ⟨hw, rfl⟩).mono (fun received t ht => ?_)
    fun _ _ he => he
  obtain ⟨rfl, v, rfl, hv⟩ := ht
  dsimp only
  rw [ends_map, ends_readResponse (Response.ofMessage_message c.node hq.fits hq.tidy) hq.goes]
  exact ⟨rfl, v, _, rfl, hv⟩

theorem ends_exchange (r : Request) {q : Response} (hq : q.Regular)
    (hs : s.world.Due c.config.timeout [] ([q.message c.node] :: replies) sent) :
    Ends (c.exchange r) s
      (fun a t => a = q ∧ ∃ w d, t = { s with world := w, deadline := d } ∧
        w.Due c.config.timeout [] replies (sent ++ [r.message c.node]))
      fun _ _ => False :=
  h.ends_ask (r.message c.node) (c.send r) hq hs

section
variable {data : List UInt8} {start j n : Nat} {announced : Option Nat}
  (hb : c.config.blockSize.toNat ≤ 127)
include hb

theorem ends_receiveSegment
    (hj : j < min c.config.blockSize.toNat (segmentCount data - start))
    (hs : c.Reads data (start + j) announced (segmentFrame c.node data start j :: ms) replies sent
      s)
    (hseq : s.seqno.toNat = j) {request : Request} {attempts : UInt32}
    {Q : Unit → Session (Script TransportError) → Prop}
    (goes : ∀ t, c.Reads data (start + (j + 1)) announced ms replies sent t →
      t.seqno = UInt8.ofNat (j + 1) →
      Ends (if j + 1 = min c.config.blockSize.toNat (segmentCount data - start) then
          if start + min c.config.blockSize.toNat (segmentCount data - start)
              = segmentCount data then pure ()
          else do c.receiveBlocks (← c.acknowledge) 1 n
        else c.receiveBlocks request 1 n) t Q fun _ _ => False) :
    Ends (c.receiveBlocks request attempts (n + 1)) s Q fun _ _ => False := by
  refine ends_receiveBlocks_next data start j hb hj
    (P := fun t => ∃ w, t = { s with world := w } ∧ w.Due c.config.timeout ms replies sent)
    ((h.ends_nextMessage (BlockSegment.message_server_id _ c.node) hs.toAwaits).mono
      (fun received t ht => ?_) fun _ _ he => he) ?_
  · obtain ⟨rfl, w, rfl, hw⟩ := ht
    exact ⟨rfl, hseq, w, rfl, hw⟩
  · rintro _ transferred ⟨w, rfl, hw⟩
    refine goes _ ⟨⟨hw, by rw [h.link]; rfl⟩, ?_, hs.announced⟩ rfl
    rw [hs.buffer]
    exact (filled_succ data (start + j)).symm

theorem ends_receiveSegments {m : Nat}
    (hm : j + (m + 1) = min c.config.blockSize.toNat (segmentCount data - start))
    (hs : c.Reads data (start + j) announced
      ((List.range' j (m + 1)).map (segmentFrame c.node data start)) replies sent s)
    (hseq : s.seqno.toNat = j) {request : Request} {attempts : UInt32}
    {Q : Unit → Session (Script TransportError) → Prop}
    (goes : ∀ t, c.Reads data (start + (j + (m + 1))) announced [] replies sent t →
      t.seqno = UInt8.ofNat (j + (m + 1)) →
      Ends (if start + (j + (m + 1)) = segmentCount data then pure ()
        else do c.receiveBlocks (← c.acknowledge) 1 n) t Q fun _ _ => False) :
    Ends (c.receiveBlocks request attempts (n + (m + 1))) s Q fun _ _ => False := by
  induction m generalizing j s attempts with
  | zero =>
    refine h.ends_receiveSegment hb (by omega) hs hseq fun t ht hseqno => ?_
    rw [if_pos hm, ← hm]
    exact goes t ht hseqno
  | succ m ih =>
    have hnumber : (UInt8.ofNat (j + 1)).toNat = j + 1 :=
      UInt8.toNat_ofNat_of_lt (show _ < 256 by omega)
    have hsum : j + (m + 1 + 1) = j + 1 + (m + 1) := by omega
    refine h.ends_receiveSegment (n := n + (m + 1)) hb (by omega) hs hseq fun t ht hseqno => ?_
    rw [hsum] at hm goes
    rw [if_neg (by omega)]
    exact ih hm ht (by rw [hseqno, hnumber]) goes

theorem ends_receiveBlock {length : Nat} (hpos : 0 < length)
    (hlength : length = min c.config.blockSize.toNat (segmentCount data - start))
    (hs : c.Reads data start announced (blockFrames c.node data c.config.blockSize.toNat start)
      replies sent s)
    (hseq : s.seqno = 0) {request : Request} {attempts : UInt32}
    {Q : Unit → Session (Script TransportError) → Prop}
    (goes : ∀ t, c.Reads data (start + length) announced [] replies sent t →
      t.seqno = UInt8.ofNat length →
      Ends (if start + length = segmentCount data then pure ()
        else do c.receiveBlocks (← c.acknowledge) 1 n) t Q fun _ _ => False) :
    Ends (c.receiveBlocks request attempts (n + length)) s Q fun _ _ => False := by
  obtain ⟨m, rfl⟩ : ∃ m, length = m + 1 := Nat.exists_eq_add_of_le' hpos
  have hzero : s.seqno.toNat = 0 := by
    rw [hseq]
    rfl
  rw [blockFrames, ← hlength, List.range_eq_range'] at hs
  refine h.ends_receiveSegments (j := 0) hb (by omega) hs hzero fun t ht hseqno => ?_
  rw [Nat.zero_add] at ht hseqno ⊢
  exact goes t ht hseqno

omit hb in
theorem ends_acknowledge {k : Nat}
    (hs : c.Reads data k announced [] (ms :: replies) sent s)
    (hseq : s.seqno = c.config.blockSize) :
    Ends c.acknowledge s
      (fun _ t => c.Reads data k announced ms replies
        (sent ++ [acknowledgementFrame c.node.value c.config.blockSize c.config.blockSize.toNat])
        t ∧ t.seqno = 0)
      fun _ _ => False := by
  have hmessage := message_confirmBlock c.node c.config.blockSize c.config.blockSize
  refine ends_acknowledge_of_send fun text => ?_
  refine (h.ends_sendMessage _ (h.due_note hs.due _)).mono (fun _ t ht => ?_) fun _ _ he => he
  obtain ⟨w, rfl, hw⟩ := ht
  rw [acknowledgement, hseq, hmessage] at hw
  exact ⟨⟨⟨hw, rfl⟩, hs.buffer, hs.announced⟩, if_pos hseq⟩

theorem ends_receiveBlocks {m : Nat} (hpos : 0 < c.config.blockSize.toNat)
    (hmore : start + m * c.config.blockSize.toNat < segmentCount data)
    (hlast : segmentCount data ≤ start + (m + 1) * c.config.blockSize.toNat)
    (hs : c.Reads data start announced (blockFrames c.node data c.config.blockSize.toNat start)
      (blocksFrom c.node data c.config.blockSize.toNat (start + c.config.blockSize.toNat) m
        ++ replies) sent s)
    (hseq : s.seqno = 0) (hn : segmentCount data - start ≤ n) {request : Request}
    {attempts : UInt32} :
    Ends (c.receiveBlocks request attempts n) s
      (fun _ t => c.Reads data (segmentCount data) announced [] replies
        (sent ++ List.replicate m
          (acknowledgementFrame c.node.value c.config.blockSize c.config.blockSize.toNat)) t ∧
        t.seqno = UInt8.ofNat (segmentCount data - (start + m * c.config.blockSize.toNat)))
      fun _ _ => False := by
  -- On the number of full blocks in front of the last one.
  induction m generalizing start n s sent request attempts with
  | zero =>
    obtain ⟨left, rfl⟩ : ∃ left, n = left + (segmentCount data - start) :=
      Nat.exists_eq_add_of_le' hn
    have hall : start + (segmentCount data - start) = segmentCount data := by omega
    have hcount : start + 0 * c.config.blockSize.toNat = start := by omega
    refine h.ends_receiveBlock hb (by omega) (by omega) hs hseq fun t ht hseqno => ?_
    rw [if_pos hall, ends_pure, hcount]
    rw [hall] at ht
    exact ⟨by simpa [blocksFrom] using ht, hseqno⟩
  | succ m ih =>
    have hshift : start + c.config.blockSize.toNat + m * c.config.blockSize.toNat
        = start + (m + 1) * c.config.blockSize.toNat := by
      rw [Nat.succ_mul]
      omega
    have hshift' : start + c.config.blockSize.toNat + (m + 1) * c.config.blockSize.toNat
        = start + (m + 1 + 1) * c.config.blockSize.toNat := by
      rw [Nat.succ_mul (m + 1)]
      omega
    have hmore' := hshift ▸ hmore
    obtain ⟨left, rfl⟩ : ∃ left, n = left + c.config.blockSize.toNat :=
      Nat.exists_eq_add_of_le' (by omega)
    refine h.ends_receiveBlock hb hpos (by omega) hs hseq fun t ht hseqno => ?_
    rw [if_neg (by omega), ends_bind]
    rw [UInt8.ofNat_toNat] at hseqno
    refine (h.ends_acknowledge ht hseqno).mono (fun request u hu => ?_) fun _ _ he => he
    refine (ih hmore' (hshift' ▸ hlast) hu.1 hu.2 (by omega)).mono (fun _ v hv => ?_)
      fun _ _ he => he
    rw [hshift, List.append_assoc] at hv
    exact hv

end

variable (r : Rendition c.config)

theorem ends_uploadBlocks
    (hb : 0 < c.config.blockSize.toNat ∧ c.config.blockSize.toNat ≤ 127)
    (hp : segmentCount r.object ≤ c.patience)
    (hs : s.world.Due c.config.timeout [] (r.replies c.node c.target).tail sent)
    (hbuffer : s.buffer = [])
    (hannounced : s.announced = none ∨ s.announced = some 0 ∨
      s.announced = some r.object.length) :
    Ends (c.uploadBlocks r.checked) s
      (fun v t => v = r.object ∧ t.world.Due c.config.timeout [] []
        (sent ++ (r.requests c.node.value c.target).tail))
      fun _ _ => False := by
  obtain ⟨hmore, hlast⟩ := r.inner_spec hb.1
  rw [← Nat.zero_add (r.inner * _)] at hmore
  rw [← Nat.zero_add ((r.inner + 1) * _)] at hlast
  rw [uploadBlocks, ends_bind]
  refine (h.ends_sendMessage (Request.startBlockUpload.message c.node) hs).mono (fun _ t ht => ?_)
    fun _ _ he => he
  obtain ⟨w, rfl, hw⟩ := ht
  rw [ends_bind, ends_modify, ends_bind]
  have hreads : c.Reads r.data 0 s.announced _ _ _
      { s with world := w, deadline := w.now + c.config.timeout, seqno := 0 } :=
    ⟨⟨hw, rfl⟩, hbuffer, rfl⟩
  refine (h.ends_receiveBlocks hb.2 hb.1 hmore hlast hreads rfl ?_).mono (fun _ t ht => ?_)
    fun _ _ he => he
  · rw [r.segmentCount_data]
    omega
  obtain ⟨ht, hseqno⟩ := ht
  have hfew : segmentCount r.data - r.inner * c.config.blockSize.toNat < 256 := by
    rw [Nat.succ_mul] at hlast
    omega
  have hnumber : t.seqno.toNat = segmentCount r.data - r.inner * c.config.blockSize.toNat := by
    rw [hseqno, Nat.zero_add]
    exact UInt8.toNat_ofNat_of_lt hfew
  have hacknowledgement := message_confirmBlock c.node t.seqno c.config.blockSize
  rw [hnumber] at hacknowledgement
  rw [ends_bind, ends_get, ends_bind]
  refine (h.ends_exchange (c.acknowledgement t.seqno) (Response.regular_endBlockUpload r.object _)
    ht.due).mono (fun a u hu => ?_) fun _ _ he => he
  obtain ⟨rfl, v, d, rfl, hv⟩ := hu
  have hobject : t.buffer.take (t.buffer.length
      - (UInt8.ofNat (segmentCount r.object * segmentSize - r.object.length)).toNat)
      = r.object := by
    rw [ht.buffer, toNat_unused]
    exact r.take_filled_data
  have hchecked : (r.checked && c.config.useCrc && crc r.object != r.checksum) = false := by
    cases hboth : r.checked && c.config.useCrc with
    | false => rfl
    | true => simp [r.sound hboth]
  simp only [ends_bind, trim, ends_modify, ends_get, hobject, hchecked, Bool.false_eq_true,
    if_false]
  rw [ends_checkSize (ht.announced.symm ▸ hannounced)]
  refine (h.ends_sendMessage (Request.confirmBlockUploadEnd.message c.node) hv).mono
    (fun _ u hu => ?_) fun _ _ he => he
  obtain ⟨x, rfl, hx⟩ := hu
  rw [acknowledgement, hacknowledgement, message_startBlockUpload,
    message_confirmBlockUploadEnd] at hx
  exact ⟨rfl, by simpa [Rendition.requests] using hx⟩

theorem ends_uploadBlock (hb : 0 < c.config.blockSize.toNat ∧ c.config.blockSize.toNat ≤ 127)
    (hp : segmentCount r.object ≤ c.patience)
    (hs : s.world.Due c.config.timeout [] (r.replies c.node c.target) sent)
    (hbuffer : s.buffer = []) (hannounced : s.announced = none) :
    Ends c.uploadBlock s
      (fun v t => v = r.object ∧ t.world.Due c.config.timeout [] []
        (sent ++ r.requests c.node.value c.target))
      fun _ _ => False := by
  rw [uploadBlock, ends_bind]
  have hregular : (Response.confirmBlockUpload r.checked r.sized c.target r.size).Regular :=
    .of_plain trivial
  refine (h.ends_exchange (.initiateBlockUpload c.config.useCrc c.target c.config.blockSize
    c.threshold) hregular hs).mono (fun a t ht => ?_) fun _ _ he => he
  obtain ⟨rfl, w, d, rfl, hw⟩ := ht
  rw [message_initiateBlockUpload] at hw
  have hrest : ∀ announced : Option Nat,
      announced = none ∨ announced = some 0 ∨ announced = some r.object.length →
      Ends (c.uploadBlocks r.checked) { s with world := w, deadline := d, announced }
        (fun v t => v = r.object ∧ t.world.Due c.config.timeout [] []
          (sent ++ r.requests c.node.value c.target)) fun _ _ => False := by
    intro announced hfits
    refine (h.ends_uploadBlocks (s := { s with world := w, deadline := d, announced }) r hb hp hw
      hbuffer hfits).mono (fun _ _ ht => ?_) fun _ _ he => he
    rw [List.append_assoc] at ht
    exact ht
  cases hsized : r.sized with
  | true =>
    dsimp only
    rw [if_pos rfl, ends_bind, ends_modify]
    refine hrest (some r.size.toNat) (.inr ?_)
    exact (r.announced hsized).imp (fun hzero => by rw [hzero]; rfl) fun hlength => by rw [hlength]
  | false =>
    have hnone := hrest s.announced (.inl hannounced)
    exact hnone

omit r in
theorem ends_prepare (mode : Mode) (hs : s.world.Due c.config.timeout [] replies sent) :
    Ends (c.prepare mode) s
      (fun _ t => ∃ w, t = { s with world := w } ∧ w.Due c.config.timeout [] replies sent)
      fun _ _ => False := by
  obtain ⟨n, hn⟩ : ∃ n, c.patience = n + 1 :=
    Nat.exists_eq_succ_of_ne_zero (Nat.ne_of_gt (Nat.zero_lt_of_lt h.patient))
  simp only [prepare, hn, flush, note, ends_bind, ends_act, receive]
  generalize hw : c.link.note _ s.world = w
  have hdue : w.Due c.config.timeout [] replies sent := hw ▸ h.due_note hs _
  have hreceive : c.link.receive w = w.receive := by rw [h.link]; rfl
  rw [hreceive, Script.receive_of_nil (List.map_eq_nil_iff.mp hdue.queue)]
  exact ⟨_, rfl, hdue.waited (Nat.le_add_right _ _) _ _⟩

end OverScript

theorem run_returns {σ α : Type} {c : Call σ} {mode : Mode} {work : Transfer σ α} {w : σ}
    {Q : α → Session σ → Prop}
    (h : Ends (c.prepare mode >>= fun _ => work) (c.session mode (c.link.resume w)) Q
      fun _ _ => False) :
    ∃ a t text, Q a t ∧ c.run mode work w = (.ok a, c.link.note ⟨.debug, text⟩ t.world) := by
  rw [ends_bind] at h
  rw [run]
  unfold Ends at h
  generalize c.prepare mode (c.session mode (c.link.resume w)) = prepared at h
  cases prepared with
  | error e t => exact h.elim
  | ok _ t =>
    dsimp only at h ⊢
    generalize work t = worked at h
    cases worked with
    | error e u => exact h.elim
    | ok a u => exact ⟨a, u, _, h, rfl⟩

end Call

/-- However long an upload in blocks takes, a server that keeps up is not hurried: the object
comes, and the client sends nothing but what it has to, without any retry. -/
theorem steady_upload_returns {config : Config} (valid : config.Valid)
    (interval : 0 < config.pollInterval) (node : NodeId) (target : Address) (r : Rendition config)
    {w : Script TransportError} (hqueue : w.queue = [])
    (hreplies : List.Forall₂ (Script.Brings config.timeout) w.replies (r.replies node target)) :
    ∃ p, ∀ patience, p ≤ patience →
      let o := (Script.client config valid patience).uploadBlock node.value target w
      o.1 = .ok r.object ∧
        o.2.sent.toList.map (·.2) = w.sent.toList.map (·.2) ++ r.requests node.value target := by
  refine ⟨config.timeout + segmentCount r.object + 1, fun patience hp => ?_⟩
  let c := (Script.client config valid patience).call node target .upload
  have h : c.OverScript :=
    ⟨rfl, interval, show config.timeout < patience by omega⟩
  have hdue : (c.session .block (c.link.resume w)).world.Due c.config.timeout []
      (r.replies node target) (w.sent.toList.map (·.2)) := by
    refine ⟨rfl, ?_, ?_, hreplies, rfl⟩
    · show w.queue.map (·.2) = _
      rw [hqueue]
      rfl
    · show Script.Brisk _ (w.now :: w.queue.map (·.1))
      rw [hqueue]
      exact .singleton _
  have hends : Ends (c.prepare .block >>= fun _ => c.uploadBlock)
      (c.session .block (c.link.resume w))
      (fun v t => v = r.object ∧ t.world.Due c.config.timeout [] []
        (w.sent.toList.map (·.2) ++ r.requests node.value target)) fun _ _ => False := by
    rw [ends_bind]
    refine (h.ends_prepare .block hdue).mono (fun _ t ht => ?_) fun _ _ he => he
    obtain ⟨v, rfl, hv⟩ := ht
    exact h.ends_uploadBlock r (Config.blockSize_of_valid valid)
      (show segmentCount r.object ≤ patience by omega) hv rfl rfl
  obtain ⟨v, t, text, ⟨rfl, ht⟩, hrun⟩ := Call.run_returns hends
  intro o
  have ho : o = (.ok r.object, c.link.note ⟨.debug, text⟩ t.world) := by
    rw [← hrun]
    exact transfer_node ..
  rw [ho]
  exact ⟨rfl, ht.sent⟩

/-- Who keeps up is not hurried, and who is silent is not either before all the time is over that it
was given: a timeout from the last message on, and within a stream from the last segment in
order. -/
theorem servers_get_their_time :
    (∀ {config : Config} (valid : config.Valid) (node : NodeId) (target : Address)
        (r : Rendition config) (w : Script TransportError), 0 < config.pollInterval →
      w.queue = [] →
      List.Forall₂ (Script.Brings config.timeout) w.replies (r.replies node target) →
      ∃ p, ∀ patience, p ≤ patience →
        let o := (Script.client config valid patience).uploadBlock node.value target w
        o.1 = .ok r.object ∧
          o.2.sent.toList.map (·.2)
            = w.sent.toList.map (·.2) ++ r.requests node.value target) ∧
      ∀ {σ : Type} (client : Client σ), client.link.Steady →
        ∀ (node : UInt8) (target : Address) (op : Operation) (w : σ),
          Punctual client.config node op.direction (client.observe node target op w).2 :=
  ⟨fun valid node target r _ interval hqueue hreplies =>
      steady_upload_returns valid interval node target r hqueue hreplies,
    fun _ hsteady node target op w => observe_punctual hsteady node target op w⟩

/-- A block of two segments takes almost twice the timeout, and then another one comes. A server
that says nothing is asked again when a timeout has passed. -/
theorem servers_get_their_time_when_slow :
    let node : NodeId := ⟨5, by decide, by decide⟩
    let config : Config := { timeoutMs := 1, retries := 0, pollIntervalUs := 300, blockSize := 2 }
    let object : List UInt8 := [1, 2, 3, 4, 5, 6, 7, 8, 9, 10, 11, 12, 13, 14, 15]
    let slow : Script TransportError :=
      { replies := [[(900, (Response.confirmBlockUpload true true ⟨0x2000, 0⟩ 0).message node)],
          [(900, segmentFrame node object 0 0), (1800, segmentFrame node object 0 1)],
          [(900, segmentFrame node object 2 0)],
          [(900, (Response.endBlockUpload 6 (crc object)).message node)]].map fun b =>
            .ok (b.map fun f => .event (.frame f.2) f.1 1)
        receiveCost := 250 }
    let silent : Client (Script TransportError) :=
      { link := Script.link, config := { timeoutMs := 1, retries := 1 }, valid := by decide
        patience := 10 }
    let events := (silent.observe 5 ⟨0x2000, 0⟩ .upload {}).2
    (∃ p, ∀ patience, p ≤ patience →
      let o := (Script.client config (by decide) patience).uploadBlock 5 ⟨0x2000, 0⟩ slow
      o.1 = .ok object ∧
        o.2.sent.toList.map (·.2)
          = [Fetching.openingFrame config 5 ⟨0x2000, 0⟩, startFrame 5, acknowledgementFrame 5 2 2,
            acknowledgementFrame 5 2 1, Fetching.completionFrame 5]) ∧
      ∃ before m outcome since, events = before ++ ⟨.sent m outcome, 1000⟩ :: since ∧
        silence 5 before = some true ∧ TimeOver silent.config 5 .upload before 1000 := by
  intro node config object slow silent events
  let r : Rendition config :=
    { object, fits := by decide, checked := true, checksum := crc object, sound := fun _ => rfl
      sized := true, size := 0, announced := fun _ => .inl rfl }
  have hrequests : r.requests 5 ⟨0x2000, 0⟩ = [Fetching.openingFrame config 5 ⟨0x2000, 0⟩,
      startFrame 5, acknowledgementFrame 5 2 2, acknowledgementFrame 5 2 1,
      Fetching.completionFrame 5] := by
    decide +kernel
  have hreplies :
      List.Forall₂ (Script.Brings config.timeout) slow.replies (r.replies node ⟨0x2000, 0⟩) := by
    have honce : Script.Brisk config.timeout [0, 900] := by
      simp [Script.Brisk, Config.timeout, config]
    have htwice : Script.Brisk config.timeout [0, 900, 1800] := by
      simp [Script.Brisk, Config.timeout, config]
    have hframes : r.replies node ⟨0x2000, 0⟩ =
        [[(Response.confirmBlockUpload true true ⟨0x2000, 0⟩ 0).message node],
          [segmentFrame node object 0 0, segmentFrame node object 0 1],
          [segmentFrame node object 2 0],
          [(Response.endBlockUpload 6 (crc object)).message node]] := by
      decide +kernel
    rw [hframes]
    refine .cons ?_ (.cons ?_ (.cons ?_ (.cons ?_ .nil)))
    · exact ⟨[(900, _)], rfl, rfl, honce⟩
    · exact ⟨[(900, _), (1800, _)], rfl, rfl, htwice⟩
    · exact ⟨[(900, _)], rfl, rfl, honce⟩
    · exact ⟨[(900, _)], rfl, rfl, honce⟩
  have hsteady := servers_get_their_time.1 (by decide) node ⟨0x2000, 0⟩ r slow (by decide) rfl
    hreplies
  rw [hrequests] at hsteady
  refine ⟨hsteady, ?_⟩
  have hsplit : events = events.take 11
      ++ ⟨.sent ((Request.initiateUpload ⟨0x2000, 0⟩).message node) (.ok ()), 1000⟩
        :: events.drop 12 := by
    decide +kernel
  have hsilence : silence 5 (events.take 11) = some true := by decide +kernel
  exact ⟨_, _, _, _, hsplit, hsilence,
    servers_get_their_time.2 silent Script.steady 5 ⟨0x2000, 0⟩ .upload {} _ _ _ _ _ hsplit hsilence
      (by decide +kernel)⟩

end Client

end Canopen
