import Canopen.Proofs.Fetching

/-!
The stream of segments of an upload in blocks, seen from within the call. What the session remembers
of it, the number of the last segment and the buffer, is what the course of events has come to.
-/

set_option autoImplicit false

namespace Canopen.Client

open Can (Message TransportError)
open Sdo
open Transfer Fetching

variable {σ : Type}

theorem toList_lastSeven (p : Payload) : (lastSeven p).toList = p.toList.drop 1 := by
  obtain ⟨⟨l⟩, h⟩ := p
  match l, h with
  | [_, _, _, _, _, _, _, _], _ => rfl

def Tally.take (d : Tally) (m : Message) : Tally :=
  { d with
    seqno := m.data.get 0 &&& 0x7F
    buffer := d.buffer ++ m.data.toList.drop 1
    transferred := d.transferred + (m.data.toList.drop 1).length }

def Tally.acknowledge (d : Tally) (blockSize : UInt8) : Tally :=
  { d with seqno := if d.seqno = blockSize then 0 else d.seqno }

theorem Tally.toNat_seqno_acknowledge (d : Tally) (blockSize : UInt8) :
    (d.acknowledge blockSize).seqno.toNat
      = if d.seqno.toNat = blockSize.toNat then 0 else d.seqno.toNat := by
  rw [acknowledge, apply_ite UInt8.toNat]
  simp only [UInt8.toNat_inj]
  rfl

def Tally.trim (d : Tally) (unused : Nat) : Tally :=
  let buffer := d.buffer.take (d.buffer.length - unused)
  { d with buffer, transferred := buffer.length }

namespace Call

section
variable {c : Call σ} {k : Conduct Fetching} {course : Course Fetching} {st : Fetching}
  {checked : Bool} {size : Option Nat} {count : Nat} {taken : List Message} {frame : Message}
  {d : Tally} {s : Session (σ × List Event)}

theorem ends_readSegment_course {m : Message} (hid : m.id = c.node.responseId)
    (hhead : m.data.get 0 ≠ 0x80)
    (hs : c.OnCourse k (Conduct.after c.node.value c.target
      (hearSegment c.config c.node.value checked size count taken frame m)) s.world) :
    Ends (c.traced.readSegment m) s
      (fun _ t => t = s ∧ c.OnCourse k (Conduct.after c.node.value c.target
        (advance c.config c.node.value checked size count taken frame m)) t.world)
      fun e t => c.FailsOnCourse k e t.world := by
  rw [hearSegment] at hs
  rw [readSegment]
  by_cases hdlc : m.dlc = 8
  · rw [BlockSegment.ofMessage_of_responseId hid hdlc]
    dsimp only at hs ⊢
    rw [if_neg (not_not_intro hdlc), if_neg hhead] at hs
    show Ends (if m.data.get 0 &&& 0x7F = 0 ∨ c.config.blockSize < m.data.get 0 &&& 0x7F then _
      else _) s _ _
    by_cases hnumber : m.data.get 0 &&& 0x7F = 0 ∨ c.config.blockSize < m.data.get 0 &&& 0x7F
    · rw [if_pos hnumber] at hs
      rw [if_pos hnumber]
      exact (ends_abandon_course rfl hs).mono (fun _ _ h => h.elim) fun _ _ h => h
    · rw [if_neg hnumber] at hs
      rw [if_neg hnumber]
      exact ⟨rfl, hs⟩
  · rw [BlockSegment.ofMessage_of_dlc hdlc]
    rw [if_pos hdlc] at hs
    exact (ends_malformed_course _ hs).mono (fun _ _ h => h.elim) fun _ _ h => h

theorem ends_takeSegment_course {m : Message} (hs : c.OnCourse k course s.world)
    (hd : s.tally = d) :
    Ends (c.traced.takeSegment (.ofPayload m.data)) s
      (fun inOrder t => c.OnCourse k course t.world ∧
        inOrder = decide ((m.data.get 0 &&& 0x7F).toNat = d.seqno.toNat + 1) ∧
        t.tally = if inOrder then d.take m else d)
      fun e t => c.FailsOnCourse k e t.world := by
  have hseqno : s.seqno = d.seqno := congrArg Tally.seqno hd
  have hdata : (BlockSegment.ofPayload m.data).data.toList = m.data.toList.drop 1 :=
    toList_lastSeven m.data
  rw [takeSegment, ends_bind, ends_get, hseqno]
  show Ends (if (m.data.get 0 &&& 0x7F).toNat = d.seqno.toNat + 1 then _ else _) s _ _
  by_cases hnext : (m.data.get 0 &&& 0x7F).toNat = d.seqno.toNat + 1
  · rw [if_pos hnext, hdata]
    refine ⟨hs, (decide_eq_true hnext).symm, ?_⟩
    exact congrArg (fun d : Tally => d.take m) hd
  · rw [if_neg hnext]
    exact ⟨hs.noted _, (decide_eq_false hnext).symm, hd⟩

theorem ends_acknowledge_course (hs : c.OnCourse k
      ⟨[acknowledgementFrame c.node.value c.config.blockSize d.seqno.toNat], .waits st⟩ s.world)
    (hd : s.tally = d) :
    Ends c.traced.acknowledge s
      (fun request t => request = c.acknowledgement d.seqno ∧
        c.OnCourse k ⟨[], .waits st⟩ t.world ∧
        t.tally = d.acknowledge c.config.blockSize)
      fun e t => c.FailsOnCourse k e t.world := by
  subst hd
  refine ends_acknowledge_of_send fun text => ?_
  have hnoted := hs.noted ⟨.debug, text⟩
  rw [← message_confirmBlock] at hnoted
  refine ((ends_sendMessage_due (s := { s with world := _ }) (by simp) hnoted).and
    (keeps_sendMessage_tally _ _ rfl)).mono (fun _ t ht => ⟨rfl, ht.1, ?_⟩) fun _ _ he => he.1
  have hsame : t.tally = s.tally := ht.2
  show ({ t.tally with seqno := if s.seqno = c.config.blockSize then 0 else t.tally.seqno } : Tally)
    = s.tally.acknowledge c.config.blockSize
  rw [hsame]
  rfl

end

variable (c : Call σ)

abbrev receiver : Conduct Fetching := blockReceiver c.config c.node.value c.target

/-- The session remembers the segments that it took, and the request that is to be sent again while
it has none of the block. -/
structure Retains (taken : List Message) (frame : Message) (request : Request) (d : Tally)
    (s : Session (σ × List Event)) : Prop where
  tally : s.tally = d
  buffer : d.buffer = carried taken
  request : d.seqno.toNat = 0 → request.message c.node = frame
  head : frame.data.get 0 ≠ 0x80

structure Remembers (checked : Bool) (taken : List Message) (frame : Message) (request : Request)
    (d : Tally) (s : Session (σ × List Event)) : Prop
    extends c.Retains taken frame request d s where
  course : c.OnCourse c.receiver
    ⟨[], .waits (.stream checked d.announced d.seqno.toNat taken frame)⟩ s.world

/-- The call has taken the last segment, and is about to tell so. -/
def Streamed (checked : Bool) (s : Session (σ × List Event)) : Prop :=
  ∃ taken d, d.buffer = carried taken ∧
    c.Stands c.receiver
      ⟨[acknowledgementFrame c.node.value c.config.blockSize d.seqno.toNat],
        .waits (.closing checked d.announced d.seqno.toNat taken)⟩ d s

variable {c} {checked : Bool} {taken : List Message} {frame : Message} {d : Tally}
  {s : Session (σ × List Event)} {request : Request}

theorem Remembers.ends_again (hs : c.Remembers checked taken frame request d s)
    (hlate : (c.seen s.world).late = true) :
    let again := if 0 < s.seqno then c.acknowledgement s.seqno else request
    Ends (c.traced.send again) s (fun _ t => c.Remembers checked taken frame again d t)
      fun e t => c.FailsOnCourse c.receiver e t.world := by
  have hseqno : s.seqno = d.seqno := congrArg Tally.seqno hs.tally
  rw [hseqno]
  intro again
  have hagain : again.message c.node
      = c.receiver.again (.stream checked d.announced d.seqno.toNat taken frame) := by
    show _ = if 0 < d.seqno.toNat then _ else _
    by_cases hpos : 0 < d.seqno.toNat
    · have hpos' : 0 < d.seqno := hpos
      rw [if_pos hpos]
      simp only [again, if_pos hpos', acknowledgement]
      exact message_confirmBlock ..
    · have hpos' : ¬ 0 < d.seqno := hpos
      rw [if_neg hpos]
      simp only [again, if_neg hpos']
      exact hs.request (Nat.eq_zero_of_not_pos hpos)
  have hhead : (c.receiver.again
      (.stream checked d.announced d.seqno.toNat taken frame)).data.get 0 ≠ 0x80 := by
    show (if 0 < d.seqno.toNat then _ else _ : Message).data.get 0 ≠ 0x80
    split
    · show (0xA2 : UInt8) ≠ 0x80
      decide
    · exact hs.head
  have hsend := (ends_sendMessage_again hhead hlate hs.course).and
    (keeps_sendMessage_tally _ s hs.tally)
  rw [← hagain] at hsend
  refine hsend.mono (fun _ t ht => ⟨⟨ht.2, hs.buffer, fun hzero => ?_, hs.head⟩, ht.1⟩)
    fun _ _ he => he.1
  have hnot : ¬ 0 < d.seqno := Nat.not_lt.mpr (Nat.le_of_eq hzero)
  simp only [again, if_neg hnot]
  exact hs.request hzero

theorem head_acknowledgementFrame (node blockSize : UInt8) (count : Nat) :
    (acknowledgementFrame node blockSize count).data.get 0 ≠ 0x80 := by
  show (0xA2 : UInt8) ≠ 0x80
  decide

theorem ends_readResponse_ending {m : Message} (hs : c.Hears request m s)
    (hhead : m.data.get 0 = 0x80) {size : Option Nat} {count : Nat}
    (hcourse : c.OnCourse c.receiver (Conduct.after c.node.value c.target
      (hearSegment c.config c.node.value checked size count taken frame m)) s.world) :
    Ends (c.traced.readResponse m) s (fun _ _ => False)
      fun e t => c.FailsAt c.receiver e t.world := by
  obtain ⟨st, hheard, -⟩ := hs
  have hturn := (hheard.waits fun st' _ h => by
    have hcount := h.2
    rw [hhead] at hcount
    cases hcount).toTurn
  rw [hearSegment] at hcourse
  rw [readResponse]
  by_cases hdlc : m.dlc = 8
  · rw [Response.ofMessage_abort hheard.id hdlc hhead]
    rw [if_neg (not_not_intro hdlc), if_pos hhead] at hcourse
    exact ⟨(hturn.noted _).inTime.failsDuly (by simp), (hcourse.noted _).fails (by simp)⟩
  · rw [Response.ofMessage_of_dlc hdlc]
    rw [if_pos hdlc] at hcourse
    exact ((ends_malformed_turn _ hturn).and (ends_malformed_course _ hcourse)).mono
      (fun _ _ h => h.1) fun _ _ he => ⟨he.1, he.2⟩

theorem Retains.of_tally (hs : c.Retains taken frame request d s) {t : Session (σ × List Event)}
    (ht : t.tally = d) : c.Retains taken frame request d t :=
  ⟨ht, hs.buffer, hs.request, hs.head⟩

theorem Retains.take (hs : c.Retains taken frame request d s) {m : Message}
    (hnext : (m.data.get 0 &&& 0x7F).toNat = d.seqno.toNat + 1) {t : Session (σ × List Event)}
    (ht : t.tally = d.take m) : c.Retains (taken ++ [m]) frame request (d.take m) t where
  tally := ht
  buffer := by
    show d.buffer ++ m.data.toList.drop 1 = _
    rw [hs.buffer, carried, carried, List.flatMap_append]
    simp
  request hzero := by
    have hseqno : (m.data.get 0 &&& 0x7F).toNat = 0 := hzero
    omega
  head := hs.head

theorem Retains.ends_takeSegment {m : Message} (hs : c.Retains taken frame request d s)
    (hcourse : c.OnCourse c.receiver (Conduct.after c.node.value c.target
      (advance c.config c.node.value checked d.announced d.seqno.toNat taken frame m)) s.world) :
    let segment := BlockSegment.ofPayload m.data
    Ends (c.traced.takeSegment segment) s
      (fun inOrder t => ∃ taken d,
        if (inOrder && segment.last) = true then
          d.buffer = carried taken ∧ t.tally = d ∧
            c.OnCourse c.receiver
              ⟨[acknowledgementFrame c.node.value c.config.blockSize d.seqno.toNat],
                .waits (.closing checked d.announced d.seqno.toNat taken)⟩ t.world
        else
          c.Retains taken frame request d t ∧
            c.OnCourse c.receiver (Conduct.after c.node.value c.target
              (goOn c.config c.node.value checked d.announced d.seqno.toNat taken frame m)) t.world)
      fun e t => c.FailsOnCourse c.receiver e t.world := by
  intro segment
  refine (ends_takeSegment_course hcourse hs.tally).mono (fun inOrder t ht => ?_) fun _ _ he => he
  obtain ⟨hcourse, hinOrder, htally⟩ := ht
  rw [advance] at hcourse
  cases inOrder with
  | false =>
    rw [if_neg (of_decide_eq_false hinOrder.symm)] at hcourse
    exact ⟨taken, d, hs.of_tally htally, hcourse⟩
  | true =>
    have hnext := of_decide_eq_true hinOrder.symm
    rw [if_pos hnext] at hcourse
    have hretains := hs.take hnext htally
    have hcount : (d.take m).seqno.toNat = d.seqno.toNat + 1 := hnext
    rw [← hcount] at hcourse
    refine ⟨taken ++ [m], d.take m, ?_⟩
    by_cases hlast : Command.flag (m.data.get 0) 7 = true
    · have hdone : (true && segment.last) = true := hlast
      rw [if_pos hlast] at hcourse
      rw [if_pos hdone]
      exact ⟨hretains.buffer, htally, hcourse⟩
    · have hmore : ¬ (true && segment.last) = true := hlast
      rw [if_neg hlast] at hcourse
      rw [if_neg hmore]
      exact ⟨hretains, hcourse⟩

section
variable {m : Message} (hs : c.Retains taken frame request d s)
  (hcourse : c.OnCourse c.receiver (Conduct.after c.node.value c.target
    (goOn c.config c.node.value checked d.announced d.seqno.toNat taken frame m)) s.world)
include hs hcourse

theorem Retains.ends_acknowledge
    (htells : m.data.get 0 &&& 0x7F = c.config.blockSize ∨ Command.flag (m.data.get 0) 7 = true) :
    Ends c.traced.acknowledge s
      (fun request t => ∃ frame d, c.Remembers checked taken frame request d t)
      fun e t => c.FailsOnCourse c.receiver e t.world := by
  rw [goOn, if_pos htells] at hcourse
  refine (ends_acknowledge_course hcourse hs.tally).mono (fun request' t ht => ?_) fun _ _ he => he
  obtain ⟨rfl, hcourse, htally⟩ := ht
  rw [← Tally.toNat_seqno_acknowledge] at hcourse
  exact ⟨_, _, ⟨htally, hs.buffer, fun _ => message_confirmBlock ..,
    head_acknowledgementFrame _ _ _⟩, hcourse⟩

theorem Retains.remembers
    (hgoes : ¬ (m.data.get 0 &&& 0x7F = c.config.blockSize ∨
      Command.flag (m.data.get 0) 7 = true)) : c.Remembers checked taken frame request d s := by
  rw [goOn, if_neg hgoes] at hcourse
  exact ⟨hs, hcourse⟩

end

theorem Retains.ends_segment (hb : 0 < c.config.blockSize.toNat) {m : Message}
    (hs : c.Retains taken frame request d s) (hhears : c.Hears request m s)
    (hhead : m.data.get 0 ≠ 0x80)
    (hcourse : c.OnCourse c.receiver (Conduct.after c.node.value c.target
      (hearSegment c.config c.node.value checked d.announced d.seqno.toNat taken frame m))
      s.world) :
    Ends (c.traced.readSegment m) s
      (fun segment t => Ends (c.traced.takeSegment segment) t
        (fun inOrder u =>
          if (inOrder && segment.last) = true then c.Streamed checked u
          else if segment.seqno = c.config.blockSize ∨ segment.last = true then
            Ends c.traced.acknowledge u
              (fun request v => c.Streams request v ∧
                ∃ taken frame d, c.Remembers checked taken frame request d v)
              fun e v => c.FailsAt c.receiver e v.world
          else c.Streams request u ∧ ∃ taken frame d, c.Remembers checked taken frame request d u)
        fun e u => c.FailsAt c.receiver e u.world)
      fun e t => c.FailsAt c.receiver e t.world := by
  obtain ⟨st, hheard, -⟩ := id hhears
  refine ends_segment_beside hb hhears
    ((ends_readSegment_course hheard.id hhead hcourse).mono (fun _ _ h => h.2)
      fun _ _ he hduly => ⟨hduly, he⟩)
    (fun hcourse => (hs.ends_takeSegment hcourse).mono (fun _ _ h => h)
      fun _ _ he hduly => ⟨hduly, he⟩) ?_ ?_ ?_
  · rintro inOrder u ⟨taken, d, htaken⟩ hlast hturn
    rw [if_pos hlast] at htaken
    obtain ⟨hbuffer, htally, hcourse⟩ := htaken
    exact ⟨taken, d, hbuffer, hturn, hcourse, htally⟩
  · rintro inOrder u ⟨taken, d, htaken⟩ hmore htells
    rw [if_neg hmore] at htaken
    obtain ⟨hretains, hcourse⟩ := htaken
    exact (hretains.ends_acknowledge hcourse htells).mono
      (fun _ _ hv hstreams => ⟨hstreams, taken, hv⟩) fun _ _ he hduly => ⟨hduly, he⟩
  · rintro inOrder u ⟨taken, d, htaken⟩ hmore hinner hgoes
    rw [if_neg hmore] at htaken
    obtain ⟨hretains, hcourse⟩ := htaken
    exact ⟨hgoes, taken, frame, d, hretains.remembers hcourse hinner⟩

theorem ends_receiveBlocks_streaming (hb : 0 < c.config.blockSize.toNat) (attempts : UInt32)
    (n : Nat) (hstreams : c.Streams request s) (hs : c.Remembers checked taken frame request d s) :
    Ends (c.traced.receiveBlocks request attempts n) s (fun _ t => c.Streamed checked t)
      fun e t => c.FailsAt c.receiver e t.world := by
  -- What is to be sent again and what was taken are followed side by side.
  refine ends_receiveBlocks_of_next (c := c.traced) (K := c.FailsAt c.receiver)
    (W := fun _ request t => c.Streams request t ∧
      ∃ taken frame d, c.Remembers checked taken frame request d t)
    (L := fun _ request t => c.Starves request t ∧
      ∃ taken frame d, c.Remembers checked taken frame request d t)
    (M := fun _ request m t => c.Hears request m t ∧
      ∃ taken frame d, c.Retains taken frame request d t ∧
        c.OnCourse c.receiver (Conduct.after c.node.value c.target
          (hearSegment c.config c.node.value checked d.announced d.seqno.toNat taken frame m))
          t.world) ?_ ?_ ?_ ?_ ?_ attempts n ⟨hstreams, taken, frame, d, hs⟩
  · rintro request s ⟨⟨st, hst, -⟩, taken, frame, d, hs⟩
    exact ⟨hst.inTime.failsDuly (by simp), _, hs.course, _, rfl⟩
  · rintro _ request s ⟨hstreams, taken, frame, d, hs⟩
    obtain ⟨st, hst, -⟩ := id hstreams
    refine (((ends_nextMessage_stream hstreams).and (ends_nextMessage_course hst.toWaits
      hs.course)).and (keeps_nextMessage_tally s hs.tally)).mono (fun received t ht => ?_)
      fun _ _ he => ⟨he.1.1, he.1.2⟩
    obtain ⟨⟨hduly, hcourse⟩, htally⟩ := ht
    have hretains := hs.toRetains.of_tally htally
    cases received with
    | none => exact ⟨hduly, taken, frame, d, hretains, hcourse⟩
    | some m => exact ⟨hduly, taken, frame, d, hretains, hcourse⟩
  · rintro attempts _ request s ⟨hstarves, taken, frame, d, hs⟩
    refine (((ends_retry_stream attempts hstarves).and (ends_takeRetry_course attempts
      hs.course)).and (keeps_takeRetry_tally attempts s hs.tally)).mono (fun _ t ht => ?_)
      fun _ _ he => ⟨he.1.1, he.1.2⟩
    obtain ⟨⟨⟨hlate, hsend⟩, hcourse⟩, htally⟩ := ht
    have hremembers : c.Remembers checked taken frame request d t :=
      ⟨hs.toRetains.of_tally htally, hcourse⟩
    exact (hsend.and (hremembers.ends_again hlate)).mono
      (fun _ _ hu => ⟨hu.1, taken, frame, d, hu.2⟩) fun _ _ he => ⟨he.1, he.2⟩
  · rintro _ request m s ⟨hhears, taken, frame, d, hs, hcourse⟩ hhead
    exact (ends_readResponse_ending hhears hhead hcourse).mono (fun _ _ h => h.elim)
      fun _ _ he => he
  · rintro _ request m s ⟨hhears, taken, frame, d, hs, hcourse⟩ hhead
    exact hs.ends_segment hb hhears hhead hcourse

theorem carries_stream_streamed (checked : Bool) (hu : c.direction = .upload)
    (hb : 0 < c.config.blockSize.toNat) (hd : d.buffer = []) :
    Carries
      (c.Stands c.receiver ⟨[startFrame c.node.value],
        .waits (.stream checked d.announced 0 [] (startFrame c.node.value))⟩ d)
      (c.FailsAt c.receiver)
      (do
        c.traced.send .startBlockUpload
        modify fun s => { s with seqno := 0 }
        c.traced.receiveBlocks .startBlockUpload 1 c.patience) fun _ => c.Streamed checked := by
  intro s hs
  have hcourse := hs.course
  rw [← message_startBlockUpload] at hcourse
  rw [ends_bind]
  refine (((ends_start_stream hu hb hs.turn).and (ends_sendMessage_due (by simp) hcourse)).and
    (keeps_sendMessage_tally _ s hs.tally)).mono (fun _ t ht => ?_) fun _ _ he => ⟨he.1.1, he.1.2⟩
  obtain ⟨⟨hstreams, hcourse⟩, htally⟩ := ht
  have hhead : (startFrame c.node.value).data.get 0 ≠ 0x80 := by
    show (0xA3 : UInt8) ≠ 0x80
    decide
  have hnone : d.buffer = carried [] := hd
  rw [message_startBlockUpload] at hcourse
  exact ends_receiveBlocks_streaming (d := { d with seqno := 0 }) hb 1 c.patience hstreams
    ⟨⟨congrArg (fun d : Tally => { d with seqno := 0 }) htally, hnone,
      fun _ => message_startBlockUpload c.node, hhead⟩, hcourse⟩

theorem message_initiateBlockUpload (c : Call σ) :
    (Request.initiateBlockUpload c.config.useCrc c.target c.config.blockSize c.threshold).message
        c.node
      = openingFrame c.config c.node.value c.target := by
  have hhead : ∀ useCrc : Bool,
      Request.command .blockUpload (Command.bit useCrc 2) = if useCrc then 0xA4 else 0xA0 := by
    decide
  have hregular : (Request.initiateBlockUpload c.config.useCrc c.target c.config.blockSize
      c.threshold).Regular := .of_plain trivial
  have hbytes : ∀ head blockSize threshold : UInt8,
      addressed head c.target #v[blockSize, threshold, 0, 0]
        = #v[head, byteAt c.target.index.toNat 0, byteAt c.target.index.toNat 1, c.target.sub,
          blockSize, threshold, 0, 0] :=
    fun _ _ _ => rfl
  rw [Request.message_eq c.node hregular.fits hregular.tidy, Request.toBytes, hhead, hbytes,
    openingFrame, threshold]

theorem message_confirmBlockUploadEnd (node : NodeId) :
    Request.confirmBlockUploadEnd.message node = completionFrame node.value :=
  Request.message_eq node trivial trivial

theorem carries_checkCrc_stands {α : Type} {checked : Bool} {expected : UInt16}
    {move : Move Fetching} {rest : Transfer (σ × List Event) α}
    {G : α → Session (σ × List Event) → Prop}
    (hrest : Carries (c.Stands c.receiver (Conduct.after c.node.value c.target move) d)
      (c.FailsAt c.receiver) rest G) :
    Carries
      (c.Stands c.receiver (Conduct.after c.node.value c.target
        (if checked ∧ crc d.buffer ≠ expected then .fails (.crcMismatch expected (crc d.buffer))
          else move)) d)
      (c.FailsAt c.receiver) (do
        let computed := crc (← get).buffer
        if checked && computed != expected then
          c.traced.abandon .crcError (.crcMismatch expected computed)
        rest) G := by
  intro s hs
  have hbuffer : s.buffer = d.buffer := congrArg Tally.buffer hs.tally
  have hwrong : (checked && crc d.buffer != expected) = true
      ↔ checked = true ∧ crc d.buffer ≠ expected := by
    rw [Bool.and_eq_true, bne_iff_ne]
  rw [ends_bind, ends_get, hbuffer]
  show Ends (if (checked && crc d.buffer != expected) = true then _ else _) s _ _
  by_cases hcrc : checked = true ∧ crc d.buffer ≠ expected
  · rw [if_pos hcrc] at hs
    rw [if_pos (hwrong.mpr hcrc)]
    exact carries_bind (carries_abandon_stands (G := fun _ _ => False) rfl)
      (fun _ _ h => h.elim) s hs
  · rw [if_neg hcrc] at hs
    rw [if_neg fun h => hcrc (hwrong.mp h)]
    exact hrest s hs

theorem carries_uploadBlocks_stands (hu : c.direction = .upload)
    (hb : 0 < c.config.blockSize.toNat) (serverCrc : Bool) (hd : d.buffer = []) :
    Carries
      (c.Stands c.receiver ⟨[startFrame c.node.value], .waits
        (.stream (serverCrc && c.config.useCrc) d.announced 0 [] (startFrame c.node.value))⟩ d)
      (c.FailsAt c.receiver) (c.traced.uploadBlocks serverCrc) fun object s =>
        ∃ d, c.Stands c.receiver ⟨[], .ended (.bytes object)⟩ d s := by
  -- The stream is followed as a whole, so all that comes before the acknowledgement stays together.
  have hstream := carries_stream_streamed (serverCrc && c.config.useCrc) hu hb hd
  rw [← bind_assoc] at hstream
  rw [uploadBlocks, ← bind_assoc, ← bind_assoc]
  refine carries_bind hstream fun _ => ?_
  rintro s ⟨taken, d, hbuffer, hs⟩
  have hseqno : s.seqno = d.seqno := congrArg Tally.seqno hs.tally
  have hack := message_confirmBlock c.node d.seqno c.config.blockSize
  have hregular : (c.acknowledgement d.seqno).Regular := .of_plain trivial
  rw [← hack] at hs
  rw [ends_bind, ends_get, hseqno]
  refine carries_bind (carries_exchange_stands
    (finish c.node.value (serverCrc && c.config.useCrc) d.announced taken) hregular
    (by simp [acknowledgement]) hack.symm fun _ => rfl) (fun r => ?_) s hs
  cases r with
  | endBlockUpload unused expected =>
    have hfinish : finish c.node.value (serverCrc && c.config.useCrc) d.announced taken
          (.endBlockUpload unused expected)
        = if (serverCrc && c.config.useCrc) = true ∧ crc (d.trim unused.toNat).buffer ≠ expected
          then
            .fails (.crcMismatch expected (crc (d.trim unused.toNat).buffer))
          else
            .sized (d.trim unused.toNat).announced (d.trim unused.toNat).transferred
              (.ends [completionFrame c.node.value] (.bytes (d.trim unused.toNat).buffer)) := by
      rw [finish, ← hbuffer]
      rfl
    rw [hfinish]
    refine carries_bind (carries_modify_stands (·.trim unused.toNat) (fun _ => rfl) (fun _ => rfl)
      fun _ => rfl) fun _ => ?_
    generalize d.trim unused.toNat = d
    refine carries_checkCrc_stands ?_
    refine carries_bind (carries_checkSize_stands _) fun _ => ?_
    have hplain : c.Plain (Request.confirmBlockUploadEnd.message c.node) :=
      plain_of_ne (.of_plain trivial) (by simp)
    rw [← message_confirmBlockUploadEnd]
    exact carries_bind (carries_sendMessage_stands hplain (by simp)) fun _ => carries_buffer_stands
  | _ => exact carries_unexpected_stands _

theorem carries_uploadBlock_stands (hu : c.direction = .upload)
    (hb : 0 < c.config.blockSize.toNat) :
    Carries (c.Stands c.receiver c.receiver.start {}) (c.FailsAt c.receiver) c.traced.uploadBlock
      fun object s => ∃ d, c.Stands c.receiver ⟨[], .ended (.bytes object)⟩ d s := by
  have hopening := message_initiateBlockUpload c
  have hregular : (Request.initiateBlockUpload c.config.useCrc c.target c.config.blockSize
      c.threshold).Regular := .of_plain trivial
  have hstart : c.receiver.start = ⟨[(Request.initiateBlockUpload c.config.useCrc c.target
      c.config.blockSize c.threshold).message c.node], .waits .opening⟩ := by
    rw [hopening]
    rfl
  rw [uploadBlock, hstart]
  refine carries_bind (carries_exchange_stands (beginBlocks c.config c.node.value) hregular
    (by simp) hopening.symm fun _ => rfl) fun r => ?_
  cases r with
  | confirmBlockUpload serverCrc sized a size =>
    cases sized with
    | true =>
      refine carries_bind (carries_modify_stands (fun d => { d with announced := some size.toNat })
        (fun _ => rfl) (fun _ => rfl) fun _ => rfl) fun _ => ?_
      exact carries_uploadBlocks_stands (d := { announced := some size.toNat }) hu hb serverCrc rfl
    | false => exact carries_uploadBlocks_stands (d := {}) hu hb serverCrc rfl
  | confirmUpload unused expedited sized a data =>
    have hjoins : c.receiver.Joins c.node.value := ⟨fun _ _ _ _ => rfl, fun _ _ _ => rfl⟩
    exact carries_bind (carries_note_stands _ _) fun _ => carries_continueUpload_stands hjoins _
  | _ => exact carries_unexpected_stands _

end Call

/-- What the message that ends an upload in blocks has to be, where it is awaited. The stream of
segments itself gives no object, and the server may have chosen a normal upload. -/
def Fetching.Completes : Fetching → Message → List UInt8 → Prop
  | .opening, m, _ =>
    ∃ unused sized a data, Response.ofMessage m = .ok (.confirmUpload unused true sized a data)
  | .segments .., m, _ =>
    ∃ toggle unused data, Response.ofMessage m = .ok (.uploadSegment toggle unused true data)
  | .stream .., _, _ => False
  | .closing checked size _ taken, m, object =>
    ∃ unused checksum, Response.ofMessage m = .ok (.endBlockUpload unused checksum) ∧
      object = (carried taken).take ((carried taken).length - unused.toNat) ∧
      (checked = true → crc object = checksum) ∧ ∀ n, size = some n → 0 < n → object.length = n

theorem hearSegment_ne_ends {config : Config} {node : UInt8} {checked : Bool} {size : Option Nat}
    {count : Nat} {taken : List Message} {request m : Message} {due : List Message} {v : Value} :
    hearSegment config node checked size count taken request m ≠ .ends due v := by
  have hgoOn : ∀ count taken,
      goOn config node checked size count taken request m ≠ .ends due v := by
    intro count taken
    rw [goOn]
    split <;> simp
  rw [hearSegment]
  split
  · simp
  split
  · simp
  split
  · simp
  rw [advance]
  split
  · split
    · simp
    · exact hgoOn _ _
  · exact hgoOn _ _

theorem completes_of_hear {config : Config} {node : UInt8} {target : Address} {st : Fetching}
    {m : Message} {due : List Message} {object : List UInt8}
    (h : (blockReceiver config node target).hear st m = .ends due (.bytes object)) :
    st.Completes m object := by
  cases st with
  | opening =>
    obtain ⟨r, hr, hmove⟩ := reading_eq_ends h
    match r, hmove with
    | .confirmUpload unused true sized a data, _ => exact ⟨unused, sized, a, data, hr⟩
  | stream checked size count taken request => exact hearSegment_ne_ends h
  | closing checked size count taken =>
    obtain ⟨r, hr, hmove⟩ := reading_eq_ends h
    match r, hmove with
    | .endBlockUpload unused checksum, hmove =>
      rw [finish] at hmove
      split at hmove
      · cases hmove
      · rename_i hcrc
        obtain ⟨hends, hsize⟩ := sized_eq_ends hmove
        cases hends
        refine ⟨unused, checksum, hr, rfl, fun hchecked => ?_, hsize⟩
        exact Decidable.of_not_not fun hne => hcrc ⟨hchecked, hne⟩
  | segments toggle size bytes =>
    obtain ⟨r, hr, hmove⟩ := reading_eq_ends h
    match r, hmove with
    | .uploadSegment t unused last data, hmove =>
      rw [join] at hmove
      split at hmove
      · cases last with
        | true => exact ⟨t, unused, data, hr⟩
        | false => cases hmove
      · cases hmove

/-- The client takes the segments that come in order, tells how many it has where the stream calls
for it, and gives the object that they carry. -/
theorem block_upload_follows_stream (client : Client σ) (node : NodeId) (target : Address) (w : σ) :
    let k := blockReceiver client.config node.value target
    let events := (client.observe node.value target .uploadBlock w).2
    let result := (client.perform node.value target .uploadBlock w).1
    k.Explains node.value target client.config .upload events result ∧
      ∀ object, result = .ok (.bytes object) →
        ∃ before m time since st, events = before ++ ⟨.received (.ok (some m)), time⟩ :: since ∧
          k.follow node.value target before = ⟨[], .waits st⟩ ∧ st.Completes m object := by
  intro k events result
  have hblockSize := (Config.blockSize_of_valid client.valid).1
  have hperform : client.traced.perform node.value target .uploadBlock (w, [])
      = Outcome.map .bytes ((client.call node target .upload).traced.run .block
          (client.call node target .upload).traced.uploadBlock (w, [])) := by
    rw [perform, uploadBlock, transfer_node]
    rfl
  have hk : k.Explains node.value target client.config .upload events result :=
    explained_of_perform client hperform (Call.carries_uploadBlock_stands rfl hblockSize)
  refine ⟨hk, fun object hobject => ?_⟩
  have hended := (hk.ok_iff _).mp hobject
  obtain ⟨before, m, time, since, st, due, hsplit, hbefore, -, hmove⟩ :=
    Conduct.ended_of_follow (congrArg Course.standing hended)
  exact ⟨before, m, time, since, st, hsplit, hbefore, completes_of_hear hmove⟩

/-- Of two segments the first gets lost, so that both are sent once more. -/
theorem block_upload_follows_stream_of_script :
    let node : NodeId := ⟨5, by decide, by decide⟩
    let object : List UInt8 := [1, 2, 3, 4, 5, 6, 7, 8, 9, 10]
    let first := (blockSegment object 0 1).message .server node
    let second := (blockSegment object 1 2).message .server node
    let replies : List (List Message) :=
      [[(Response.confirmBlockUpload true true ⟨0x2000, 0⟩ 10).message node], [second],
        [first, second], [(Response.endBlockUpload 4 (crc object)).message node]]
    let client : Client (Script TransportError) := { link := Script.link, patience := 10 }
    let s : Script TransportError :=
      { replies := replies.map fun ms => .ok (ms.map fun m => .event (.frame m) 0 1) }
    let k := blockReceiver client.config 5 ⟨0x2000, 0⟩
    let events := (client.observe 5 ⟨0x2000, 0⟩ .uploadBlock s).2
    let result := (client.perform 5 ⟨0x2000, 0⟩ .uploadBlock s).1
    result = .ok (.bytes object) ∧
      (events.filterMap fun e => match e.act with | .sent m _ => some m | _ => none)
        = [openingFrame client.config 5 ⟨0x2000, 0⟩, startFrame 5, acknowledgementFrame 5 127 0,
          acknowledgementFrame 5 127 2, completionFrame 5] ∧
      ∃ before m time since st, events = before ++ ⟨.received (.ok (some m)), time⟩ :: since ∧
        k.follow 5 ⟨0x2000, 0⟩ before = ⟨[], .waits st⟩ ∧ st.Completes m object := by
  intro node object first second replies client s k events result
  have hresult : result = .ok (.bytes object) := by decide +kernel
  refine ⟨hresult, ?_, (block_upload_follows_stream client node ⟨0x2000, 0⟩ s).2 object hresult⟩
  decide +kernel

end Canopen.Client
