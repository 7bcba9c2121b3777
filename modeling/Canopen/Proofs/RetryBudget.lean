import Canopen.Proofs.Outcomes
import Canopen.Proofs.Reading
import Canopen.Proofs.Trace
import Canopen.Proofs.Upholding
import Canopen.Script

/-!
What a client sends because a deadline has passed can be told from its trace alone: the clock is
read at known moments, and the deadline is known from what was sent and taken. A call has so many
retries for all its waits together, and each of them repeats what was left unanswered.
-/

set_option autoImplicit false

namespace Canopen.Client

open Can (Message TransportError)
open Sdo
open Transfer

variable {σ : Type}

def startFrame (node : UInt8) : Message where
  id := .std (0x600 + node.toUInt16)
  data := #v[0xA3, 0, 0, 0, 0, 0, 0, 0]
  dlc := 8
  rtr := false

def acknowledgementFrame (node blockSize : UInt8) (count : Nat) : Message where
  id := .std (0x600 + node.toUInt16)
  data := #v[0xA2, UInt8.ofNat count, blockSize, 0, 0, 0, 0, 0]
  dlc := 8
  rtr := false

structure Stream where
  taken : Nat := 0
  acknowledged : Option Message := none

/-- A frame sent because a deadline had passed, the frame sent before it, and where the stream
stood if there was one. -/
structure Repetition where
  frame : Message
  previous : Option Message
  stream : Option Stream

/-- Outside of a stream the same frame is sent again. Inside, the server is told how many segments
have come in order. If there are none, the last acknowledgement is repeated, or the frame that
asked for the stream. -/
def Repetition.Faithful (config : Config) (node : UInt8) (r : Repetition) : Prop :=
  match r.stream with
  | none => r.previous = some r.frame
  | some st =>
    r.frame =
      if 0 < st.taken then acknowledgementFrame node config.blockSize st.taken
      else st.acknowledged.getD (startFrame node)

/-- What the clock is read for once a message is logged: whether the deadline has passed, or to set
it anew. -/
inductive Due where
  | nothing | look | restart
  deriving DecidableEq

/-- What an observer of the trace knows. -/
structure Watch where
  deadline : Option Nat := none
  due : Due := .nothing
  /-- The deadline was found to have passed, and nothing has been sent since. -/
  late : Bool := false
  last : Option Message := none
  stream : Option Stream := none
  repeats : List Repetition := []

namespace Watch

def overdue (v : Watch) (time : Nat) : Bool := v.deadline.any (· ≤ time)

def look (v : Watch) (time : Nat) : Watch := { v with late := v.late || v.overdue time }

/-- A message with another ID is logged, and then the clock is read. -/
def ignore (v : Watch) : Watch := { v with due := .look }

section
variable (config : Config) (node : UInt8) (direction : Direction)

def streamAfter (m : Message) : Option Stream → Option Stream
  | none => if direction = .upload ∧ m = startFrame node then some {} else none
  | some st =>
    if m = acknowledgementFrame node config.blockSize st.taken then
      some
        { taken := if st.taken = config.blockSize.toNat then 0 else st.taken
          acknowledged := some m }
    else some st

/-- What is sent when the deadline has passed is a repetition. What could be sent restarts the
deadline. -/
def send (v : Watch) (m : Message) (sent : Bool) (time : Nat) : Watch :=
  { v with
    deadline := if sent then some (time + config.timeout) else v.deadline
    late := false
    last := some m
    stream := streamAfter config node direction m v.stream
    repeats := if v.late then v.repeats ++ [⟨m, v.last, v.stream⟩] else v.repeats }

/-- The next segment of a stream restarts the deadline. With the last one the stream ends. -/
def take (v : Watch) (m : Message) : Watch :=
  match v.stream with
  | none => v
  | some st =>
    if m.dlc = 8 ∧ (m.data.get 0 &&& 0x7F).toNat = st.taken + 1 then
      { v with
        due := .restart
        stream :=
          if Command.flag (m.data.get 0) 7 then none else some { st with taken := st.taken + 1 } }
    else v

def note (v : Watch) (time : Nat) : Watch :=
  match v.due with
  | .nothing => v
  | .look => { v.look time with due := .nothing }
  | .restart => { v with due := .nothing, deadline := some (time + config.timeout) }

def step (v : Watch) (e : Event) : Watch :=
  match e.act with
  | .sent m outcome => v.send config node direction m outcome.isOk e.time
  | .received outcome =>
    match v.deadline, outcome with
    | some _, .ok none => v.look e.time
    | some _, .ok (some m) =>
      if m.id = .std (0x580 + node.toUInt16) then v.take m else v.ignore
    | _, _ => v
  | .noted _ => v.note config e.time
  | .slept _ => v

end

end Watch

def watch (config : Config) (node : UInt8) (direction : Direction) (events : List Event) : Watch :=
  events.foldl (Watch.step config node direction) {}

theorem watch_append (config : Config) (node : UInt8) (direction : Direction)
    (events : List Event) (e : Event) :
    watch config node direction (events ++ [e])
      = (watch config node direction events).step config node direction e := by
  simp [watch]

theorem message_startBlockUpload (node : NodeId) :
    Request.startBlockUpload.message node = startFrame node.value :=
  Request.message_eq node trivial trivial

theorem message_confirmBlock (node : NodeId) (seqno blockSize : UInt8) :
    (Request.confirmBlock seqno blockSize).message node
      = acknowledgementFrame node.value blockSize seqno.toNat := by
  rw [acknowledgementFrame, UInt8.ofNat_toNat]
  exact Request.message_eq node trivial trivial

theorem streamAfter_none_of_plain {c : Call σ} {m : Message} (hm : c.Plain m) :
    Watch.streamAfter c.config c.node.value c.direction m none = none := by
  refine if_neg fun ⟨hu, heq⟩ => hm hu ?_
  rw [heq, message_startBlockUpload]

structure Watch.Sound (config : Config) (node : UInt8) (v : Watch) : Prop where
  due : v.due = .nothing
  within : v.repeats.length ≤ config.retries.toNat
  faithful : ∀ r ∈ v.repeats, r.Faithful config node

def Watch.InTime (config : Config) (node : UInt8) (v : Watch) : Prop :=
  v.Sound config node ∧ v.late = false

/-- A call times out when a deadline has passed and all retries are spent, and not else. -/
structure Watch.FailsDuly (config : Config) (node : UInt8) (e : Stop) (v : Watch) : Prop where
  sound : v.Sound config node
  timeout : (∃ attempts, e = .failed (.timeout attempts)) ↔ v.late = true
  spent : v.late = true → v.repeats.length = config.retries.toNat

namespace Call

variable (c : Call σ)

def seen (w : σ × List Event) : Watch := watch c.config c.node.value c.direction w.2

abbrev InTime (w : σ × List Event) : Prop := (c.seen w).InTime c.config c.node.value

abbrev FailsDuly (e : Stop) (w : σ × List Event) : Prop :=
  Watch.FailsDuly c.config c.node.value e (c.seen w)

/-- The retries that were used show as repetitions, but for the one just taken. -/
structure Turn (stream : Option Stream) (late : Bool) (taken : Nat)
    (s : Session (σ × List Event)) : Prop where
  sound : (c.seen s.world).Sound c.config c.node.value
  late : (c.seen s.world).late = late
  stream : (c.seen s.world).stream = stream
  count : (c.seen s.world).repeats.length + s.retries + taken = c.config.retries.toNat

structure Waits (stream : Option Stream) (s : Session (σ × List Event)) : Prop
    extends c.Turn stream false 0 s where
  deadline : (c.seen s.world).deadline = some s.deadline

structure Heard (stream : Option Stream) (m : Message) (s : Session (σ × List Event)) : Prop where
  id : m.id = c.node.responseId
  seen : ∃ v : Watch, v.Sound c.config c.node.value ∧ v.late = false ∧ v.stream = stream ∧
    v.repeats.length + s.retries = c.config.retries.toNat ∧ v.deadline = some s.deadline ∧
    c.seen s.world = (v.take m).note c.config (c.link.now s.world.1)

end Call

section
variable {c : Call σ} {stream : Option Stream}

theorem Watch.Sound.note {config : Config} {node : UInt8} {v : Watch} (h : v.Sound config node)
    (time : Nat) : v.note config time = v := by
  rw [Watch.note, h.due]

theorem Watch.Sound.note_ignore {config : Config} {node : UInt8} {v : Watch}
    (h : v.Sound config node) (time : Nat) : v.ignore.note config time = v.look time := by
  have hdue := h.due
  cases v
  cases hdue
  rfl

theorem Call.seen_note (w : σ × List Event) (r : Record) :
    c.seen (c.traced.link.note r w) = (c.seen w).note c.config (c.link.now (c.link.note r w.1)) :=
  watch_append ..

theorem Call.seen_send {m : Message} {w v : σ × List Event} {outcome : Except TransportError Unit}
    (h : c.traced.link.send m w = (outcome, v)) :
    c.seen v = (c.seen w).send c.config c.node.value c.direction m outcome.isOk
      (c.link.now v.1) := by
  rw [Call.seen, Link.traced_send h]
  exact watch_append ..

theorem Call.seen_sleep (w : σ × List Event) (t : Nat) :
    c.seen (c.traced.link.sleep t w) = c.seen w :=
  watch_append ..

theorem Call.seen_receive {w v : σ × List Event}
    {outcome : Except TransportError (Option Message)}
    (h : c.traced.link.receive w = (outcome, v)) :
    c.seen v = (c.seen w).step c.config c.node.value c.direction
      ⟨.received outcome, c.link.now v.1⟩ := by
  rw [Call.seen, Link.traced_receive h]
  exact watch_append ..

theorem Call.Turn.inTime {s : Session (σ × List Event)} (h : c.Turn stream false 0 s) :
    c.InTime s.world :=
  ⟨h.sound, h.late⟩

theorem Watch.InTime.failsDuly {config : Config} {node : UInt8} {v : Watch}
    (h : v.InTime config node) {e : Stop} (he : ∀ attempts, e ≠ .failed (.timeout attempts)) :
    FailsDuly config node e v where
  sound := h.1
  timeout := by simp [he, h.2]
  spent := by simp [h.2]

theorem preserves_inTime (c : Call σ) : c.traced.link.Preserves c.InTime where
  note := by
    intro w h r
    show (c.seen _).InTime _ _
    rw [Call.seen_note, h.1.note]
    exact h
  send := by
    intro w h m
    have hseen : c.seen (c.traced.link.send m w).2 = _ :=
      Call.seen_send (rfl : c.traced.link.send m w = ((c.traced.link.send m w).1, _))
    show (c.seen _).InTime _ _
    rw [hseen]
    refine ⟨⟨h.1.due, ?_, ?_⟩, rfl⟩
    · simpa [Watch.send, h.2] using h.1.within
    · simpa [Watch.send, h.2] using h.1.faithful

theorem Call.seen_note_of_sound {w : σ × List Event}
    (h : (c.seen w).Sound c.config c.node.value) (r : Record) :
    c.seen (c.traced.link.note r w) = c.seen w := by
  rw [Call.seen_note, h.note]

theorem Call.Turn.noted {late : Bool} {taken : Nat} {s : Session (σ × List Event)}
    (h : c.Turn stream late taken s) (r : Record) :
    c.Turn stream late taken { s with world := c.traced.link.note r s.world } := by
  have hseen := Call.seen_note_of_sound h.sound r
  exact ⟨hseen ▸ h.sound, hseen ▸ h.late, hseen ▸ h.stream, hseen ▸ h.count⟩

theorem Call.Waits.noted {s : Session (σ × List Event)} (h : c.Waits stream s) (r : Record) :
    c.Waits stream { s with world := c.traced.link.note r s.world } := by
  have hseen := Call.seen_note_of_sound h.sound r
  exact ⟨h.toTurn.noted r, hseen ▸ h.deadline⟩

theorem Call.Turn.adjust {late : Bool} {taken : Nat} {s t : Session (σ × List Event)}
    (h : c.Turn stream late taken s) (hw : t.world = s.world) (hr : t.retries = s.retries) :
    c.Turn stream late taken t := by
  obtain ⟨hsound, hlate, hstream, hcount⟩ := h
  rw [← hw] at hsound hlate hstream hcount
  exact ⟨hsound, hlate, hstream, hr ▸ hcount⟩

theorem Call.Waits.adjust {s t : Session (σ × List Event)} (h : c.Waits stream s)
    (hw : t.world = s.world) (hr : t.retries = s.retries) (hd : t.deadline = s.deadline) :
    c.Waits stream t := by
  have hdeadline := h.deadline
  rw [← hw, ← hd] at hdeadline
  exact ⟨h.toTurn.adjust hw hr, hdeadline⟩

theorem Call.FailsDuly.noted {e : Stop} {w : σ × List Event} (h : c.FailsDuly e w)
    (r : Record) : c.FailsDuly e (c.traced.link.note r w) := by
  have hseen := Call.seen_note_of_sound h.sound r
  exact ⟨hseen ▸ h.sound, hseen ▸ h.timeout, hseen ▸ h.spent⟩

theorem keeps_note_turn (level : Level) (text : String) :
    Keeps (c.Turn stream false 0) c.FailsDuly (c.traced.note level text) :=
  fun _ hs => hs.noted _

theorem ends_abandon_turn {α : Type} {code : AbortCode} {e : Error}
    (he : e.abortCode? = some code.code) {s : Session (σ × List Event)}
    (hs : c.Turn stream false 0 s) :
    Ends (c.traced.abandon code e : Transfer _ α) s (fun _ _ => False)
      fun e t => c.FailsDuly e t.world := by
  refine (Call.ends_abandon_of_preserves (preserves_inTime c) hs.inTime code e).mono
    (fun _ _ h => h) ?_
  rintro _ t ⟨rfl, ht⟩
  refine ht.failsDuly fun attempts h => ?_
  cases h
  cases he

theorem ends_malformed_turn {α : Type} (e : ParseError) {s : Session (σ × List Event)}
    (hs : c.Turn stream false 0 s) :
    Ends (c.traced.malformed e : Transfer _ α) s (fun _ _ => False)
      fun e t => c.FailsDuly e t.world := by
  refine (Call.ends_malformed_of_preserves (preserves_inTime c) hs.inTime e).mono
    (fun _ _ h => h) ?_
  rintro _ t ⟨rfl, ht⟩
  exact ht.failsDuly (by simp)

theorem Watch.Sound.send {config : Config} {node : UInt8} {v : Watch} (h : v.Sound config node)
    {left : Nat} (hcount : v.repeats.length + left + v.late.toNat = config.retries.toNat)
    (direction : Direction) {m : Message}
    (hm : v.late = true → Repetition.Faithful config node ⟨m, v.last, v.stream⟩) (sent : Bool)
    (time : Nat) :
    (v.send config node direction m sent time).Sound config node ∧
      (v.send config node direction m sent time).repeats.length + left = config.retries.toNat := by
  cases hlate : v.late with
  | false =>
    rw [hlate] at hcount
    have hrepeats : (v.send config node direction m sent time).repeats = v.repeats := by
      simp [Watch.send, hlate]
    exact ⟨⟨h.due, hrepeats ▸ h.within, hrepeats ▸ h.faithful⟩, hrepeats ▸ hcount⟩
  | true =>
    rw [hlate] at hcount
    have hrepeats : (v.send config node direction m sent time).repeats
        = v.repeats ++ [⟨m, v.last, v.stream⟩] := by
      simp [Watch.send, hlate]
    have hlength : (v.send config node direction m sent time).repeats.length + left
        = config.retries.toNat := by
      rw [hrepeats, List.length_append, List.length_singleton, ← hcount, Bool.toNat_true]
      omega
    refine ⟨⟨h.due, by omega, ?_⟩, hlength⟩
    rw [hrepeats]
    simpa [or_imp, forall_and] using ⟨h.faithful, hm hlate⟩

theorem ends_sendMessage_turn {late : Bool} {m : Message} {s : Session (σ × List Event)}
    (hs : c.Turn stream late late.toNat s)
    (hm : late = true →
      Repetition.Faithful c.config c.node.value ⟨m, (c.seen s.world).last, stream⟩) :
    Ends (c.traced.sendMessage m) s
      (fun _ t => c.Waits (Watch.streamAfter c.config c.node.value c.direction m stream) t ∧
        (c.seen t.world).last = some m ∧ t.seqno = s.seqno)
      fun e t => c.FailsDuly e t.world := by
  obtain ⟨hsound, rfl, rfl, hcount⟩ := hs
  simp only [Call.sendMessage, Call.trySend, Call.note, ends_bind, ends_act]
  generalize hsent : c.traced.link.send m _ = p
  obtain ⟨outcome, v⟩ := p
  have hseen := Call.seen_send hsent
  rw [Call.seen_note, hsound.note] at hseen
  obtain ⟨hsound', hcount'⟩ := hsound.send hcount c.direction hm outcome.isOk (c.link.now v.1)
  rw [← hseen] at hsound' hcount'
  have hlate : (c.seen v).late = false := by rw [hseen, Watch.send]
  cases outcome with
  | error e =>
    exact ⟨hsound', by simp [hlate], by simp [hlate]⟩
  | ok _ =>
    refine ⟨⟨⟨hsound', hlate, ?_, hcount'⟩, ?_⟩, ?_, rfl⟩
    · show (c.seen v).stream = _
      rw [hseen, Watch.send]
    · show (c.seen v).deadline = some (c.link.now v.1 + c.config.timeout)
      rw [hseen]
      rfl
    · show (c.seen v).last = some m
      rw [hseen, Watch.send]

theorem ends_takeRetry_turn (attempts : UInt32) {s : Session (σ × List Event)}
    (hs : c.Turn stream true 0 s) :
    Ends (c.traced.takeRetry attempts) s
      (fun _ t => c.Turn stream true 1 t ∧ (c.seen t.world).last = (c.seen s.world).last ∧
        t.seqno = s.seqno)
      fun e t => c.FailsDuly e t.world := by
  have hcount := hs.count
  rw [Call.takeRetry, ends_bind, ends_get]
  cases hretries : s.retries with
  | zero =>
    rw [hretries] at hcount
    have hfails : c.FailsDuly (.failed (.timeout attempts)) s.world :=
      ⟨hs.sound, by simp [hs.late], fun _ => hcount⟩
    exact hfails.noted _
  | succ left =>
    rw [hretries] at hcount
    have hturn : c.Turn stream true 1 { s with retries := left } :=
      ⟨hs.sound, hs.late, hs.stream, by simpa [Nat.add_assoc] using hcount⟩
    refine ⟨hturn.noted _, ?_, rfl⟩
    exact congrArg Watch.last (Call.seen_note_of_sound hs.sound _)

theorem Call.Waits.look {s : Session (σ × List Event)} (h : c.Waits stream s) (time : Nat)
    {w : σ × List Event}
    (hw : c.seen w = (c.seen s.world).look time) :
    if s.deadline ≤ time then c.Turn stream true 0 { s with world := w }
    else c.seen w = c.seen s.world := by
  have hoverdue : (c.seen s.world).overdue time = decide (s.deadline ≤ time) := by
    simp [Watch.overdue, h.deadline]
  rw [Watch.look, hoverdue, h.late, Bool.false_or] at hw
  split
  · rename_i hpassed
    rw [decide_eq_true hpassed] at hw
    have hsame : (c.seen w).repeats = (c.seen s.world).repeats := by rw [hw]
    refine ⟨⟨?_, hsame ▸ h.sound.within, hsame ▸ h.sound.faithful⟩, ?_, ?_, ?_⟩
    · show (c.seen w).due = _
      rw [hw]
      exact h.sound.due
    · show (c.seen w).late = _
      rw [hw]
    · show (c.seen w).stream = _
      rw [hw]
      exact h.stream
    · show (c.seen w).repeats.length + s.retries + 0 = _
      rw [hsame]
      exact h.count
  · rename_i hgoes
    rw [decide_eq_false hgoes, ← h.late] at hw
    exact hw

theorem Call.Waits.of_seen {s : Session (σ × List Event)} (h : c.Waits stream s)
    {w : σ × List Event} (hw : c.seen w = c.seen s.world) :
    c.Waits stream { s with world := w } :=
  ⟨⟨hw ▸ h.sound, hw ▸ h.late, hw ▸ h.stream, hw ▸ h.count⟩, hw ▸ h.deadline⟩

theorem Call.Waits.nothing {s : Session (σ × List Event)} (h : c.Waits stream s)
    {w : σ × List Event} (hw : c.traced.link.receive s.world = (.ok none, w)) :
    (c.seen w).last = (c.seen s.world).last ∧
      if s.deadline ≤ c.link.now w.1 then c.Turn stream true 0 { s with world := w }
      else c.Waits stream { s with world := c.traced.link.sleep c.config.pollInterval w } := by
  have hseen := Call.seen_receive hw
  simp only [Watch.step, h.deadline] at hseen
  have hlook := h.look _ hseen
  refine ⟨(congrArg Watch.last hseen :), ?_⟩
  split
  · rename_i hpassed
    rw [if_pos hpassed] at hlook
    exact hlook
  · rename_i hgoes
    rw [if_neg hgoes] at hlook
    exact h.of_seen ((Call.seen_sleep w c.config.pollInterval).trans hlook)

theorem Call.Waits.foreign {s : Session (σ × List Event)} (h : c.Waits stream s) {m : Message}
    {w : σ × List Event} (hw : c.traced.link.receive s.world = (.ok (some m), w))
    (hid : m.id ≠ c.node.responseId) (r : Record) :
    let v := c.traced.link.note r w
    (c.seen v).last = (c.seen s.world).last ∧
      if s.deadline ≤ c.link.now v.1 then c.Turn stream true 0 { s with world := v }
      else c.Waits stream { s with world := v } := by
  have hid' : m.id ≠ .std (0x580 + c.node.value.toUInt16) := hid
  have hseen := Call.seen_receive hw
  simp only [Watch.step, h.deadline, if_neg hid'] at hseen
  have hnoted := Call.seen_note (c := c) w r
  rw [hseen, h.sound.note_ignore] at hnoted
  have hlook := h.look _ hnoted
  refine ⟨(congrArg Watch.last hnoted :), ?_⟩
  show if s.deadline ≤ c.link.now (c.link.note r w.1) then _ else _
  split
  · rename_i hpassed
    rw [if_pos hpassed] at hlook
    exact hlook
  · rename_i hgoes
    rw [if_neg hgoes] at hlook
    exact h.of_seen hlook

theorem Call.Waits.heard {s : Session (σ × List Event)} (h : c.Waits stream s) {m : Message}
    {w : σ × List Event} (hw : c.traced.link.receive s.world = (.ok (some m), w))
    (hid : m.id = c.node.responseId) (r : Record) :
    c.Heard stream m { s with world := c.traced.link.note r w } := by
  have hid' : m.id = .std (0x580 + c.node.value.toUInt16) := hid
  have hseen := Call.seen_receive hw
  simp only [Watch.step, h.deadline, if_pos hid'] at hseen
  refine ⟨hid, c.seen s.world, h.sound, h.late, h.stream, h.count, h.deadline, ?_⟩
  exact (Call.seen_note (c := c) w r).trans (by rw [hseen]; rfl)

theorem ends_nextMessage_waits {s : Session (σ × List Event)} (hs : c.Waits stream s) :
    Ends c.traced.nextMessage s
      (fun received t => t.seqno = s.seqno ∧ match received with
        | some m => c.Heard stream m t
        | none => c.Turn stream true 0 t ∧ (c.seen t.world).last = (c.seen s.world).last)
      fun e t => c.FailsDuly e t.world := by
  refine Call.ends_poll_of_looks (c := c.traced) (K := c.FailsDuly)
    (W := fun _ t => c.Waits stream t ∧ (c.seen t.world).last = (c.seen s.world).last ∧
      t.seqno = s.seqno) ?_ ?_ ?_ ?_ ?_ ?_ c.patience ⟨hs, rfl, rfl⟩
  · rintro - t ⟨ht, -⟩
    refine (Call.ends_cancel_of_preserves (preserves_inTime c) ht.inTime).mono
      (fun _ _ h => h.elim) ?_
    rintro _ u ⟨rfl, hu⟩
    exact hu.failsDuly (by simp)
  · exact fun t ht => ht.1.inTime.failsDuly (by simp)
  · rintro - t e w ⟨ht, -⟩ hw
    have hseen := Call.seen_receive hw
    simp only [Watch.step, ht.deadline] at hseen
    exact (ht.of_seen hseen).inTime.failsDuly (by simp)
  · rintro - t w ⟨ht, hlast, hseqno⟩ hw
    obtain ⟨hlast', hlook⟩ := ht.nothing hw
    show if t.deadline ≤ c.link.now w.1 then _ else _
    split
    · rename_i hpassed
      rw [if_pos hpassed] at hlook
      exact ⟨hseqno, hlook, hlast'.trans hlast⟩
    · rename_i hgoes
      rw [if_neg hgoes] at hlook
      have hslept := congrArg Watch.last (Call.seen_sleep (c := c) w c.config.pollInterval)
      exact ⟨hlook, (hslept.trans hlast').trans hlast, hseqno⟩
  · rintro - t m w ⟨ht, hlast, hseqno⟩ hw hid
    obtain ⟨hlast', hlook⟩ := ht.foreign hw hid ⟨.trace, s!"Ignoring {m}"⟩
    dsimp only
    split
    · rename_i hpassed
      exact ⟨hseqno, (if_pos hpassed).mp hlook, hlast'.trans hlast⟩
    · rename_i hgoes
      exact ⟨(if_neg hgoes).mp hlook, hlast'.trans hlast, hseqno⟩
  · rintro - t m w ⟨ht, hlast, hseqno⟩ hw hid
    exact ⟨hseqno, ht.heard hw hid _⟩

theorem Call.Heard.waits {m : Message} {s : Session (σ × List Event)} (h : c.Heard stream m s)
    (hother : ∀ st, stream = some st →
      ¬ (m.dlc = 8 ∧ (m.data.get 0 &&& 0x7F).toNat = st.taken + 1)) : c.Waits stream s := by
  obtain ⟨-, v, hsound, hlate, rfl, hcount, hdeadline, hseen⟩ := h
  have htake : v.take m = v := by
    unfold Watch.take
    split
    · rfl
    · rename_i st hst
      exact if_neg (hother st hst)
  rw [htake, hsound.note] at hseen
  exact ⟨⟨hseen ▸ hsound, hseen ▸ hlate, congrArg Watch.stream hseen, hseen ▸ hcount⟩,
    hseen ▸ hdeadline⟩

/-- The next segment restarts the deadline, which the call still has to do. -/
theorem Call.Heard.next {st : Stream} {m : Message} {s : Session (σ × List Event)}
    (h : c.Heard (some st) m s)
    (hnext : m.dlc = 8 ∧ (m.data.get 0 &&& 0x7F).toNat = st.taken + 1) :
    c.Waits (if Command.flag (m.data.get 0) 7 then none else some { st with taken := st.taken + 1 })
      { s with deadline := c.link.now s.world.1 + c.config.timeout } := by
  obtain ⟨-, v, hsound, hlate, hstream, hcount, -, hseen⟩ := h
  have htake : v.take m = { v with
      due := .restart
      stream :=
        if Command.flag (m.data.get 0) 7 then none
        else some { st with taken := st.taken + 1 } } := by
    unfold Watch.take
    rw [hstream]
    exact if_pos hnext
  rw [htake] at hseen
  have hrepeats : (c.seen s.world).repeats = v.repeats := (congrArg Watch.repeats hseen :)
  exact ⟨⟨⟨(congrArg Watch.due hseen :), hrepeats ▸ hsound.within, hrepeats ▸ hsound.faithful⟩,
    (congrArg Watch.late hseen).trans hlate, (congrArg Watch.stream hseen :), hrepeats ▸ hcount⟩,
    (congrArg Watch.deadline hseen :)⟩

theorem Call.Heard.inTime {m : Message} {s : Session (σ × List Event)} (h : c.Heard stream m s) :
    c.InTime s.world := by
  by_cases hother : ∀ st, stream = some st →
      ¬ (m.dlc = 8 ∧ (m.data.get 0 &&& 0x7F).toNat = st.taken + 1)
  · exact (h.waits hother).inTime
  · simp only [Classical.not_forall, Classical.not_not] at hother
    obtain ⟨st, rfl, hnext⟩ := hother
    exact (h.next hnext).inTime

theorem ends_readResponse_turn (m : Message) {s : Session (σ × List Event)}
    (hs : c.Turn stream false 0 s) :
    Ends (c.traced.readResponse m) s (fun _ t => t = s) fun e t => c.FailsDuly e t.world := by
  rw [Call.readResponse]
  split
  · exact (ends_malformed_turn _ hs).mono (fun _ _ h => h.elim) fun _ _ h => h
  · exact (hs.noted _).inTime.failsDuly (by simp)
  · exact rfl

structure Call.Asks (c : Call σ) (m : Message) (s : Session (σ × List Event)) : Prop
    extends c.Waits none s where
  last : (c.seen s.world).last = some m

structure Call.Missed (c : Call σ) (m : Message) (s : Session (σ × List Event)) : Prop
    extends c.Turn none true 0 s where
  last : (c.seen s.world).last = some m

theorem ends_sendMessage_asks {m : Message} (hm : c.Plain m) {s : Session (σ × List Event)}
    (hs : c.Turn none false 0 s) :
    Ends (c.traced.sendMessage m) s (fun _ t => c.Asks m t) fun e t => c.FailsDuly e t.world := by
  refine (ends_sendMessage_turn (m := m) hs (by simp)).mono (fun _ t ht => ?_) fun _ _ he => he
  rw [streamAfter_none_of_plain hm] at ht
  exact ⟨ht.1, ht.2.1⟩

theorem ends_nextMessage_asks {m : Message} {s : Session (σ × List Event)} (hs : c.Asks m s) :
    Ends c.traced.nextMessage s
      (fun received t => match received with
        | some m' => c.Heard none m' t
        | none => c.Missed m t)
      fun e t => c.FailsDuly e t.world := by
  refine (ends_nextMessage_waits hs.toWaits).mono (fun received t ht => ?_) fun _ _ he => he
  cases received with
  | some m' => exact ht.2
  | none => exact ⟨ht.2.1, ht.2.2.trans hs.last⟩

theorem ends_readResponse_heard {m : Message} {s : Session (σ × List Event)}
    (hs : c.Heard none m s) :
    Ends (c.traced.readResponse m) s (fun _ t => c.Turn none false 0 t) fun e t =>
      c.FailsDuly e t.world := by
  have hturn := (hs.waits (by simp)).toTurn
  refine (ends_readResponse_turn m hturn).mono (fun _ u hu => ?_) fun _ _ he => he
  rw [hu]
  exact hturn

theorem ends_retry_missed {m : Message} (hm : c.Plain m) (attempts : UInt32)
    {s : Session (σ × List Event)} (hs : c.Missed m s) :
    Ends (c.traced.takeRetry attempts >>= fun _ => c.traced.sendMessage m) s
      (fun _ t => c.Asks m t) fun e t => c.FailsDuly e t.world := by
  rw [ends_bind]
  refine (ends_takeRetry_turn attempts hs.toTurn).mono (fun _ u hu => ?_) fun _ _ he => he
  obtain ⟨hturn, hlast, -⟩ := hu
  refine (ends_sendMessage_turn (m := m) hturn fun _ => hlast.trans hs.last).mono
    (fun _ v hv => ?_) fun _ _ he => he
  rw [streamAfter_none_of_plain hm] at hv
  exact ⟨hv.1, hv.2.1⟩

theorem keeps_ask_turn {m : Message} (hm : c.Plain m) :
    Keeps (c.Turn none false 0) c.FailsDuly (do
      c.traced.sendMessage m
      c.traced.await (c.traced.sendMessage m)) := by
  intro s hs
  rw [ends_bind]
  refine (ends_sendMessage_asks hm hs).mono (fun _ t ht => ?_) fun _ _ he => he
  rw [Call.await, ends_bind, ends_get]
  exact Call.ends_awaitRounds_of_next (c := c.traced) (K := c.FailsDuly)
    (W := fun _ => c.Asks m) (L := fun _ => c.Missed m) (M := c.Heard none)
    (fun _ ht => ht.inTime.failsDuly (by simp)) (fun _ _ ht => ends_nextMessage_asks ht)
    (fun _ _ ht => ends_readResponse_heard ht)
    (fun attempts _ _ ht => ends_retry_missed hm attempts ht) 1 _ ht

structure Call.Follows (c : Call σ) (st : Stream) (s : Session (σ × List Event)) : Prop
    extends c.Waits (some st) s where
  taken : st.taken = s.seqno.toNat
  le : st.taken ≤ c.config.blockSize.toNat

def Call.Streams (c : Call σ) (request : Request) (s : Session (σ × List Event)) : Prop :=
  ∃ st : Stream, c.Follows st s ∧ st.taken < c.config.blockSize.toNat ∧
    request.message c.node = st.acknowledged.getD (startFrame c.node.value)

/-- This request is what the call sends again if it has taken nothing of the block, as the deadline
has passed. -/
def Call.Starves (c : Call σ) (request : Request) (s : Session (σ × List Event)) : Prop :=
  ∃ st : Stream, c.Turn (some st) true 0 s ∧ st.taken = s.seqno.toNat ∧
    st.taken < c.config.blockSize.toNat ∧
    request.message c.node = st.acknowledged.getD (startFrame c.node.value)

def Call.Hears (c : Call σ) (request : Request) (m : Message) (s : Session (σ × List Event)) :
    Prop :=
  ∃ st : Stream, c.Heard (some st) m s ∧ st.taken = s.seqno.toNat ∧
    st.taken < c.config.blockSize.toNat ∧
    request.message c.node = st.acknowledged.getD (startFrame c.node.value)

theorem ends_nextMessage_stream {request : Request} {s : Session (σ × List Event)}
    (hs : c.Streams request s) :
    Ends c.traced.nextMessage s
      (fun received t => match received with
        | some m => c.Hears request m t
        | none => c.Starves request t)
      fun e t => c.FailsDuly e t.world := by
  obtain ⟨st, hst, hlt, hrequest⟩ := hs
  refine (ends_nextMessage_waits hst.toWaits).mono (fun received t ht => ?_) fun _ _ he => he
  obtain ⟨hseqno, ht⟩ := ht
  have htaken : st.taken = t.seqno.toNat := hst.taken.trans (congrArg UInt8.toNat hseqno.symm)
  cases received with
  | none => exact ⟨st, ht.1, htaken, hlt, hrequest⟩
  | some m => exact ⟨st, ht, htaken, hlt, hrequest⟩

theorem ends_resend_stream {request : Request} {s : Session (σ × List Event)} {st : Stream}
    (hs : c.Turn (some st) true 1 s) (htaken : st.taken = s.seqno.toNat)
    (hlt : st.taken < c.config.blockSize.toNat)
    (hrequest : request.message c.node = st.acknowledged.getD (startFrame c.node.value)) :
    let again := if 0 < s.seqno then c.acknowledgement s.seqno else request
    Ends (c.traced.send again) s (fun _ t => c.Streams again t) fun e t =>
      c.FailsDuly e t.world := by
  intro again
  have hagain : again.message c.node =
      if 0 < st.taken then acknowledgementFrame c.node.value c.config.blockSize st.taken
      else st.acknowledged.getD (startFrame c.node.value) := by
    rw [htaken]
    by_cases hpos : 0 < s.seqno.toNat
    · have hpos' : 0 < s.seqno := hpos
      simp only [again, if_pos hpos', if_pos hpos, Call.acknowledgement, message_confirmBlock]
    · have hpos' : ¬ 0 < s.seqno := hpos
      simp only [again, if_neg hpos', if_neg hpos, hrequest]
  refine (ends_sendMessage_turn (m := again.message c.node) hs fun _ => hagain).mono
    (fun _ t ht => ?_) fun _ _ he => he
  obtain ⟨hwaits, -, hseqno⟩ := ht
  have hne : st.taken ≠ c.config.blockSize.toNat := Nat.ne_of_lt hlt
  simp only [Watch.streamAfter, if_neg hne] at hwaits
  split at hwaits
  · exact ⟨_, ⟨hwaits, htaken.trans (congrArg UInt8.toNat hseqno.symm), Nat.le_of_lt hlt⟩, hlt, rfl⟩
  · rename_i hother
    have hzero : ¬ 0 < st.taken := fun hpos => hother (by rw [hagain, if_pos hpos])
    rw [if_neg hzero] at hagain
    exact ⟨st, ⟨hwaits, htaken.trans (congrArg UInt8.toNat hseqno.symm), Nat.le_of_lt hlt⟩, hlt,
      hagain⟩

theorem ends_retry_stream (attempts : UInt32) {request : Request} {s : Session (σ × List Event)}
    (hs : c.Starves request s) :
    Ends (c.traced.takeRetry attempts) s
      (fun _ t => (c.seen t.world).late = true ∧
        let again := if 0 < t.seqno then c.acknowledgement t.seqno else request
        Ends (c.traced.send again) t (fun _ u => c.Streams again u) fun e u =>
          c.FailsDuly e u.world)
      fun e t => c.FailsDuly e t.world := by
  obtain ⟨st, hturn, htaken, hlt, hrequest⟩ := hs
  refine (ends_takeRetry_turn attempts hturn).mono (fun _ t ht => ?_) fun _ _ he => he
  obtain ⟨hturn, -, hseqno⟩ := ht
  rw [← hseqno] at htaken
  exact ⟨hturn.late, ends_resend_stream hturn htaken hlt hrequest⟩

theorem ends_acknowledge_stream (hb : 0 < c.config.blockSize.toNat)
    {s : Session (σ × List Event)} {st : Stream} (hs : c.Follows st s) :
    Ends c.traced.acknowledge s (fun request t => c.Streams request t) fun e t =>
      c.FailsDuly e t.world := by
  have hframe : (c.acknowledgement s.seqno).message c.node
      = acknowledgementFrame c.node.value c.config.blockSize st.taken := by
    rw [hs.taken]
    exact message_confirmBlock ..
  refine Call.ends_acknowledge_of_send fun text => ?_
  refine (ends_sendMessage_turn (m := (c.acknowledgement s.seqno).message c.node)
    (hs.toTurn.noted ⟨.debug, text⟩) (by simp)).mono (fun _ t ht => ?_) fun _ _ he => he
  obtain ⟨hwaits, -, hseqno⟩ := ht
  simp only [Watch.streamAfter, if_pos hframe] at hwaits
  have hiff : s.seqno = c.config.blockSize ↔ st.taken = c.config.blockSize.toNat := by
    rw [hs.taken]
    exact UInt8.toNat_inj.symm
  split
  · rename_i hfull
    rw [if_pos (hiff.mp hfull)] at hwaits
    exact ⟨_, ⟨⟨⟨hwaits.sound, hwaits.late, hwaits.stream, hwaits.count⟩, hwaits.deadline⟩, rfl,
      Nat.zero_le _⟩, hb, rfl⟩
  · rename_i hpart
    have hne : st.taken ≠ c.config.blockSize.toNat := fun h => hpart (hiff.mpr h)
    rw [if_neg hne] at hwaits
    exact ⟨_, ⟨hwaits, hs.taken.trans (congrArg UInt8.toNat hseqno.symm), hs.le⟩,
      Nat.lt_of_le_of_ne hs.le hne, rfl⟩

theorem ends_takeSegment_stream {m : Message} {s : Session (σ × List Event)} {st : Stream}
    {request : Request} (hs : c.Heard (some st) m s) (hdlc : m.dlc = 8)
    (htaken : st.taken = s.seqno.toNat) (hlt : st.taken < c.config.blockSize.toNat)
    (hrequest : request.message c.node = st.acknowledged.getD (startFrame c.node.value)) :
    let segment := BlockSegment.ofPayload m.data
    Ends (c.traced.takeSegment segment) s
      (fun inOrder t =>
        if (inOrder && segment.last) = true then c.Turn none false 0 t
        else
          (∃ st, c.Follows st t) ∧
            (¬ (segment.seqno = c.config.blockSize ∨ segment.last = true) → c.Streams request t))
      fun e t => c.FailsDuly e t.world := by
  intro segment
  have hcount : segment.seqno.toNat = (m.data.get 0 &&& 0x7F).toNat := rfl
  have hflag : segment.last = Command.flag (m.data.get 0) 7 := rfl
  rw [Call.takeSegment, ends_bind, ends_get]
  dsimp only
  by_cases hnext : segment.seqno.toNat = s.seqno.toNat + 1
  · rw [if_pos hnext]
    have hwaits := hs.next ⟨hdlc, by rw [htaken, ← hnext, hcount]⟩
    rw [← hflag] at hwaits
    -- What the session remembers of the data is left open, as no claim is made of it.
    suffices htaking : ∀ t : Session (σ × List Event), t.world = s.world →
        t.retries = s.retries → t.deadline = c.link.now s.world.1 + c.config.timeout →
        t.seqno = segment.seqno →
        if (true && segment.last) = true then c.Turn none false 0 t
        else
          (∃ st, c.Follows st t) ∧
            (¬ (segment.seqno = c.config.blockSize ∨ segment.last = true) → c.Streams request t) by
      exact htaking _ rfl rfl rfl rfl
    intro t hw hr hd hseqno
    cases hlast : segment.last with
    | true =>
      rw [hlast] at hwaits
      exact hwaits.toTurn.adjust hw hr
    | false =>
      rw [hlast] at hwaits
      have hsame : st.taken + 1 = t.seqno.toNat := by rw [hseqno, hnext, htaken]
      have hfollows : c.Follows { st with taken := st.taken + 1 } t :=
        ⟨hwaits.adjust hw hr hd, hsame, hlt⟩
      refine ⟨⟨_, hfollows⟩, fun hpart => ⟨_, hfollows, ?_, hrequest⟩⟩
      have hne : st.taken + 1 ≠ c.config.blockSize.toNat := by
        rw [hsame, hseqno]
        exact fun h => hpart (.inl (UInt8.toNat_inj.mp h))
      exact Nat.lt_of_le_of_ne hlt hne
  · rw [if_neg hnext]
    have hwaits := hs.waits (fun st' hst' h => by
      cases hst'
      exact hnext (by rw [hcount, h.2, htaken]))
    have hfollows : ∀ r, c.Follows st { s with world := c.traced.link.note r s.world } :=
      fun r => ⟨hwaits.noted r, htaken, Nat.le_of_lt hlt⟩
    exact ⟨⟨st, hfollows _⟩, fun _ => ⟨st, hfollows _, hlt, hrequest⟩⟩

theorem ends_readSegment_stream {m : Message} {s : Session (σ × List Event)}
    (hs : c.Heard stream m s) :
    Ends (c.traced.readSegment m) s
      (fun segment t => t = s ∧ m.dlc = 8 ∧ segment = .ofPayload m.data)
      fun e t => c.FailsDuly e t.world := by
  rw [Call.readSegment]
  by_cases hdlc : m.dlc = 8
  · rw [BlockSegment.ofMessage_of_responseId hs.id hdlc]
    dsimp only
    split
    · refine (Call.ends_abandon_of_preserves (preserves_inTime c) hs.inTime _ _).mono
        (fun _ _ h => h.elim) ?_
      rintro _ t ⟨rfl, ht⟩
      exact ht.failsDuly (by simp)
    · exact ⟨rfl, hdlc, rfl⟩
  · rw [BlockSegment.ofMessage_of_dlc hdlc]
    refine (Call.ends_malformed_of_preserves (preserves_inTime c) hs.inTime _).mono
      (fun _ _ h => h.elim) ?_
    rintro _ t ⟨rfl, ht⟩
    exact ht.failsDuly (by simp)

theorem ends_readResponse_stream {request : Request} {m : Message} {s : Session (σ × List Event)}
    (hs : c.Hears request m s) (hhead : m.data.get 0 = 0x80) :
    Ends (c.traced.readResponse m) s (fun _ t => t = s ∧ c.Streams request t)
      fun e t => c.FailsDuly e t.world := by
  obtain ⟨st, hst, htaken, hlt, hrequest⟩ := hs
  have hwaits := hst.waits fun st' _ h => by
    have hcount := h.2
    rw [hhead] at hcount
    cases hcount
  refine (ends_readResponse_turn m hwaits.toTurn).mono (fun _ t ht => ?_) fun _ _ he => he
  subst ht
  exact ⟨rfl, st, ⟨hwaits, htaken, Nat.le_of_lt hlt⟩, hlt, hrequest⟩

theorem ends_segment_stream (hb : 0 < c.config.blockSize.toNat) {request : Request} {m : Message}
    {s : Session (σ × List Event)} (hs : c.Hears request m s) :
    Ends (c.traced.readSegment m) s
      (fun segment t => (t = s ∧ segment = .ofPayload m.data) ∧
        Ends (c.traced.takeSegment segment) t
          (fun inOrder u =>
            if (inOrder && segment.last) = true then c.Turn none false 0 u
            else if segment.seqno = c.config.blockSize ∨ segment.last = true then
              Ends c.traced.acknowledge u (fun request v => c.Streams request v)
                fun e v => c.FailsDuly e v.world
            else c.Streams request u)
          fun e u => c.FailsDuly e u.world)
      fun e t => c.FailsDuly e t.world := by
  obtain ⟨st, hst, htaken, hlt, hrequest⟩ := hs
  refine (ends_readSegment_stream hst).mono (fun segment t ht => ?_) fun _ _ he => he
  obtain ⟨rfl, hdlc, rfl⟩ := ht
  refine ⟨⟨rfl, rfl⟩, ?_⟩
  refine (ends_takeSegment_stream hst hdlc htaken hlt hrequest).mono (fun inOrder u hu => ?_)
    fun _ _ he => he
  split
  · rename_i hdone
    rw [if_pos hdone] at hu
    exact hu
  · rename_i hmore
    rw [if_neg hmore] at hu
    obtain ⟨⟨st', hst'⟩, hpart⟩ := hu
    split
    · exact ends_acknowledge_stream hb hst'
    · rename_i hnot
      exact hpart hnot

/-- What else is known of a segment is followed beside the stream. -/
theorem ends_segment_beside (hb : 0 < c.config.blockSize.toNat) {request : Request} {m : Message}
    {s : Session (σ × List Event)} (hs : c.Hears request m s)
    {R D : Session (σ × List Event) → Prop} {P : Bool → Session (σ × List Event) → Prop}
    {G : Request → Session (σ × List Event) → Prop} {K : Stop → σ × List Event → Prop}
    (hread : Ends (c.traced.readSegment m) s (fun _ t => R t) fun e t =>
      c.FailsDuly e t.world → K e t.world)
    (htake : R s → Ends (c.traced.takeSegment (.ofPayload m.data)) s P fun e t =>
      c.FailsDuly e t.world → K e t.world)
    (hdone : ∀ inOrder t, P inOrder t →
      (inOrder && (BlockSegment.ofPayload m.data).last) = true → c.Turn none false 0 t → D t)
    (htell : ∀ inOrder t, P inOrder t →
      ¬ (inOrder && (BlockSegment.ofPayload m.data).last) = true →
      ((BlockSegment.ofPayload m.data).seqno = c.config.blockSize ∨
        (BlockSegment.ofPayload m.data).last = true) →
      Ends c.traced.acknowledge t (fun request u => c.Streams request u → G request u) fun e u =>
        c.FailsDuly e u.world → K e u.world)
    (hgoes : ∀ inOrder t, P inOrder t →
      ¬ (inOrder && (BlockSegment.ofPayload m.data).last) = true →
      ¬ ((BlockSegment.ofPayload m.data).seqno = c.config.blockSize ∨
        (BlockSegment.ofPayload m.data).last = true) → c.Streams request t → G request t) :
    Ends (c.traced.readSegment m) s
      (fun segment t => Ends (c.traced.takeSegment segment) t
        (fun inOrder u =>
          if (inOrder && segment.last) = true then D u
          else if segment.seqno = c.config.blockSize ∨ segment.last = true then
            Ends c.traced.acknowledge u G fun e v => K e v.world
          else G request u)
        fun e u => K e u.world)
      fun e t => K e t.world := by
  refine ((ends_segment_stream hb hs).and hread).mono (fun segment t ht => ?_)
    fun _ _ he => he.2 he.1
  obtain ⟨⟨⟨rfl, rfl⟩, hstream⟩, hr⟩ := ht
  refine (hstream.and (htake hr)).mono (fun inOrder u hu => ?_) fun _ _ he => he.2 he.1
  obtain ⟨hstream, hp⟩ := hu
  split
  · rename_i hlast
    rw [if_pos hlast] at hstream
    exact hdone inOrder u hp hlast hstream
  · rename_i hmore
    rw [if_neg hmore] at hstream
    split
    · rename_i hend
      rw [if_pos hend] at hstream
      exact (hstream.and (htell inOrder u hp hmore hend)).mono (fun _ _ hv => hv.2 hv.1)
        fun _ _ he => he.2 he.1
    · rename_i hinner
      rw [if_neg hinner] at hstream
      exact hgoes inOrder u hp hmore hinner hstream

theorem ends_receiveBlocks_stream (hb : 0 < c.config.blockSize.toNat) (attempts : UInt32) (n : Nat)
    {request : Request} {s : Session (σ × List Event)} (hs : c.Streams request s) :
    Ends (c.traced.receiveBlocks request attempts n) s (fun _ t => c.Turn none false 0 t)
      fun e t => c.FailsDuly e t.world := by
  refine Call.ends_receiveBlocks_of_next (c := c.traced) (K := c.FailsDuly)
    (W := fun _ => c.Streams) (L := fun _ => c.Starves) (M := fun _ => c.Hears)
    ?_ ?_ ?_ ?_ ?_ attempts n hs
  · rintro request s ⟨st, hst, -⟩
    exact hst.inTime.failsDuly (by simp)
  · exact fun _ request s hs => (ends_nextMessage_stream hs).mono
      (fun received _ ht => by cases received <;> exact ht) fun _ _ he => he
  · exact fun attempts _ request s hs => (ends_retry_stream attempts hs).mono
      (fun _ _ ht => ht.2) fun _ _ he => he
  · exact fun _ request m s hs hhead => (ends_readResponse_stream hs hhead).mono
      (fun _ _ ht => ht.2) fun _ _ he => he
  · exact fun _ request m s hs _ => (ends_segment_stream hb hs).mono
      (fun _ _ ht => ht.2) fun _ _ he => he

theorem ends_start_stream (hu : c.direction = .upload) (hb : 0 < c.config.blockSize.toNat)
    {s : Session (σ × List Event)} (hs : c.Turn none false 0 s) :
    Ends (c.traced.send .startBlockUpload) s
      (fun _ t => c.Streams .startBlockUpload { t with seqno := 0 })
      fun e t => c.FailsDuly e t.world := by
  have hstart : Watch.streamAfter c.config c.node.value c.direction
      (Request.startBlockUpload.message c.node) none = some {} :=
    if_pos ⟨hu, message_startBlockUpload c.node⟩
  refine (ends_sendMessage_turn (m := Request.startBlockUpload.message c.node) hs
    (by simp)).mono (fun _ t ht => ?_) fun _ _ he => he
  obtain ⟨hwaits, -⟩ := ht
  rw [hstart] at hwaits
  exact ⟨{}, ⟨hwaits.adjust rfl rfl rfl, rfl, Nat.zero_le _⟩, hb, message_startBlockUpload c.node⟩

theorem upholds_turn (c : Call σ) (hb : 0 < c.config.blockSize.toNat) :
    c.traced.Upholds (c.Turn none false 0) c.InTime c.FailsDuly where
  adjust h hw hr _ := h.adjust hw hr
  note := keeps_note_turn
  tell m hm := by
    intro s hs
    have hplain := streamAfter_none_of_plain (c := c) hm
    refine (ends_sendMessage_turn (m := m) hs (by simp)).mono (fun _ t ht => ?_) fun _ _ he => he
    rw [hplain] at ht
    exact ht.1.toTurn
  ask m hm := keeps_ask_turn hm
  stream hu := by
    intro s hs
    rw [ends_bind]
    exact (ends_start_stream (c := c) hu hb hs).mono (fun _ _ => ends_receiveBlocks_stream hb _ _)
      fun _ _ he => he
  abandon code e he s hs := (ends_abandon_turn he hs).mono (fun _ _ h => h.elim) fun _ _ h => h
  unfinished h := h.inTime.failsDuly (by simp)
  done h _ := (h.noted _).inTime
  failed h _ := h.noted _

theorem ends_flush_turn (c : Call σ) (n : Nat) {s : Session (σ × List Event)}
    (hs : c.seen s.world = {}) (hr : s.retries = c.config.retries.toNat) :
    Ends (c.traced.flush n) s (fun _ t => c.Turn none false 0 t) fun e t =>
      c.FailsDuly e t.world := by
  have hturn : ∀ {t : Session (σ × List Event)}, c.seen t.world = {} →
      t.retries = c.config.retries.toNat → c.Turn none false 0 t := by
    intro t ht hr
    refine ⟨⟨?_, ?_, ?_⟩, ?_, ?_, ?_⟩ <;> simp [ht, hr]
  induction n generalizing s with
  | zero => exact (hturn hs hr).inTime.failsDuly (by simp)
  | succ n ih =>
    rw [Call.flush, ends_bind, Call.receive, ends_bind, ends_act]
    generalize hreceived : c.traced.link.receive s.world = p
    obtain ⟨received, w⟩ := p
    have hw : c.seen w = {} := by
      rw [Call.seen_receive hreceived, hs]
      rfl
    have hdropped := hturn (t := { s with world := w }) hw hr
    cases received with
    | error e => exact hdropped.inTime.failsDuly (by simp)
    | ok m? =>
      cases m? with
      | none => exact hdropped
      | some m => exact ih (s := { s with world := w }) hw hr

theorem ends_prepare_turn (c : Call σ) (mode : Mode) {s : Session (σ × List Event)}
    (hs : s.world.2 = []) (hr : s.retries = c.config.retries.toNat) :
    Ends (c.traced.prepare mode) s (fun _ t => c.Turn none false 0 t) fun e t =>
      c.FailsDuly e t.world := by
  have hstart : c.seen s.world = {} := by
    rw [Call.seen, hs]
    rfl
  rw [Call.prepare, ends_bind, Call.note, ends_act]
  refine ends_flush_turn c c.patience (s := { s with world := _ }) ?_ hr
  show c.seen (c.traced.link.note _ s.world) = {}
  rw [Call.seen_note, hstart]
  rfl

end

def Act.Sends (a : Act) : Prop := ∃ m outcome, a = .sent m outcome

section
variable (config : Config) (node : UInt8) (direction : Direction)

theorem Watch.take_late (v : Watch) (m : Message) :
    (v.take m).repeats = v.repeats ∧ (v.take m).late = v.late := by
  unfold take
  split
  · exact ⟨rfl, rfl⟩
  · split <;> exact ⟨rfl, rfl⟩

theorem Watch.note_late (v : Watch) (time : Nat) :
    (v.note config time).repeats = v.repeats ∧
      (v.late = true → (v.note config time).late = true) := by
  unfold note
  split
  · exact ⟨rfl, id⟩
  · exact ⟨rfl, fun h => by simp [look, h]⟩
  · exact ⟨rfl, id⟩

theorem Watch.step_of_not_sends {v : Watch} {e : Event} (he : ¬ e.act.Sends) :
    (v.step config node direction e).repeats = v.repeats ∧
      (v.late = true → (v.step config node direction e).late = true) := by
  unfold step
  split
  · rename_i m outcome hact
    exact absurd ⟨m, outcome, hact⟩ he
  · split
    · exact ⟨rfl, fun h => by simp [look, h]⟩
    · rename_i m _ _
      split
      · obtain ⟨hrepeats, hlate⟩ := v.take_late m
        exact ⟨hrepeats, hlate.trans⟩
      · exact ⟨rfl, id⟩
    · exact ⟨rfl, id⟩
  · exact v.note_late config e.time
  · exact ⟨rfl, id⟩

theorem Watch.step_of_sends {v : Watch} {e : Event} (he : e.act.Sends) :
    (v.step config node direction e).repeats.length = v.repeats.length + v.late.toNat := by
  obtain ⟨m, outcome, hact⟩ := he
  simp only [step, hact, send]
  cases v.late <;> simp

theorem Watch.repeats_le_foldl (events : List Event) (v : Watch) :
    v.repeats.length ≤ (events.foldl (step config node direction) v).repeats.length := by
  induction events generalizing v with
  | nil => exact Nat.le_refl _
  | cons e events ih =>
    refine Nat.le_trans ?_ (ih (v.step config node direction e))
    by_cases he : e.act.Sends
    · rw [step_of_sends config node direction he]
      exact Nat.le_add_right _ _
    · have hrepeats : (v.step config node direction e).repeats = v.repeats :=
        (step_of_not_sends config node direction he).1
      exact Nat.le_of_eq (congrArg List.length hrepeats.symm)

/-- Once late, an observer stays so until something is sent, and then there is one repetition
more. -/
theorem Watch.late_foldl (events : List Event) {v : Watch} (hlate : v.late = true) :
    ((events.foldl (step config node direction) v).late = true ∧
        ∀ e ∈ events, ¬ e.act.Sends) ∨
      v.repeats.length < (events.foldl (step config node direction) v).repeats.length := by
  induction events generalizing v with
  | nil => exact .inl ⟨hlate, by simp⟩
  | cons e events ih =>
    by_cases he : e.act.Sends
    · refine .inr (Nat.lt_of_lt_of_le ?_ (repeats_le_foldl config node direction events _))
      rw [step_of_sends config node direction he, hlate]
      exact Nat.lt_succ_self _
    · obtain ⟨hrepeats, hstays⟩ := step_of_not_sends config node direction (v := v) he
      rcases ih (hstays hlate) with ⟨hend, hnone⟩ | hmore
      · exact .inl ⟨hend, List.forall_mem_cons.mpr ⟨he, hnone⟩⟩
      · rw [hrepeats] at hmore
        exact .inr hmore

end

/-- After the last retry nothing more can be sent, as that would be one repetition too many. -/
theorem Watch.Sound.late_to_end {config : Config} {node : UInt8} {direction : Direction}
    {before after : List Event}
    (h : (watch config node direction (before ++ after)).Sound config node)
    (hlate : (watch config node direction before).late = true)
    (hspent : (watch config node direction before).repeats.length = config.retries.toNat) :
    (watch config node direction (before ++ after)).late = true ∧ ∀ e ∈ after, ¬ e.act.Sends := by
  have hfold : watch config node direction (before ++ after)
      = after.foldl (Watch.step config node direction) (watch config node direction before) :=
    List.foldl_append ..
  have hwithin := h.within
  rw [hfold] at hwithin ⊢
  rcases Watch.late_foldl config node direction after hlate with hend | hmore
  · exact hend
  · omega

theorem leaves_duly (client : Client σ) (node : UInt8) (target : Address) (op : Operation)
    (w : σ) :
    Leaves (fun w => (watch client.config node op.direction w.2).InTime client.config node)
      (fun e w =>
        Watch.FailsDuly client.config node e (watch client.config node op.direction w.2))
      (client.traced.perform node target op (w, [])) := by
  have hinTime : Watch.InTime client.config node {} := ⟨⟨rfl, Nat.zero_le _, by simp⟩, rfl⟩
  have hrefused : ∀ {e : Error}, e.Refusal →
      ∀ attempts, Stop.failed e ≠ .failed (.timeout attempts) := by
    rintro e he attempts h
    cases h
    exact he
  refine perform_leaves (I := fun n => (client.call n target op.direction).Turn none false 0)
    ?_ ?_ (fun _ he => hinTime.failsDuly (hrefused he)) fun he h => h.failsDuly (hrefused he)
  · rintro n rfl
    exact upholds_turn (client.call n target op.direction)
      (Config.blockSize_of_valid client.valid).1
  · rintro n rfl mode
    exact ends_prepare_turn (client.call n target op.direction) mode rfl rfl

/-- A call has so many retries for all its waits. It times out when a deadline passes after the
last of them, and then sends nothing more; and what it sends again is what was left unanswered, or
says what has come of the block under way. -/
theorem retries_bounded (client : Client σ) (node : UInt8) (target : Address) (op : Operation)
    (w : σ) :
    let (result, events) := client.observe node target op w
    let seen := watch client.config node op.direction
    result = (client.perform node target op w).1 ∧
      (seen events).repeats.length ≤ client.config.retries.toNat ∧
      (∀ r ∈ (seen events).repeats, r.Faithful client.config node) ∧
      ((∃ attempts, result = .error (.failed (.timeout attempts))) ↔
        ∃ before after, events = before ++ after ∧ (seen before).late = true ∧
          (seen before).repeats.length = client.config.retries.toNat) ∧
      ∀ before after, events = before ++ after → (seen before).late = true →
        (seen before).repeats.length = client.config.retries.toNat →
        ∀ e ∈ after, ¬ e.act.Sends := by
  have hresult := client.observe_result node target op w
  have hleaves := leaves_duly client node target op w
  have hobserve : client.observe node target op w =
      ((client.traced.perform node target op (w, [])).1,
        (client.traced.perform node target op (w, [])).2.2) := rfl
  rw [hobserve] at hresult ⊢
  generalize client.traced.perform node target op (w, []) = o at hleaves hresult ⊢
  obtain ⟨result, v, events⟩ := o
  cases result with
  | ok a =>
    obtain ⟨hsound, hnot⟩ := hleaves
    refine ⟨hresult, hsound.within, hsound.faithful, ⟨by simp, ?_⟩, ?_⟩
    · -- Once late with no retry left the call stays late, but a call that is done is not.
      rintro ⟨before, after, rfl, hlate, hspent⟩
      have hend := (hsound.late_to_end hlate hspent).1
      rw [hnot] at hend
      cases hend
    · rintro before after rfl hlate hspent
      exact (hsound.late_to_end hlate hspent).2
  | error e =>
    obtain ⟨hsound, htimeout, hfull⟩ := hleaves
    refine ⟨hresult, hsound.within, hsound.faithful, ⟨?_, ?_⟩, ?_⟩
    · rintro ⟨attempts, he⟩
      have hlate := htimeout.mp ⟨attempts, Except.error.inj he⟩
      exact ⟨events, [], (List.append_nil _).symm, hlate, hfull hlate⟩
    · rintro ⟨before, after, rfl, hlate, hspent⟩
      obtain ⟨attempts, he⟩ := htimeout.mpr (hsound.late_to_end hlate hspent).1
      exact ⟨attempts, congrArg Except.error he⟩
    · rintro before after rfl hlate hspent
      exact (hsound.late_to_end hlate hspent).2

/-- A server that says nothing is asked three times in all. -/
example :
    let client : Client (Script TransportError) :=
      { link := Script.link, config := { timeoutMs := 1, retries := 2 }, valid := by decide
        patience := 10 }
    let events := (client.observe 5 ⟨0x2000, 0⟩ .upload {}).2
    let seen := watch client.config 5 .upload events
    seen.late = true ∧ seen.repeats.map (·.frame) = List.replicate 2
      ((Request.initiateUpload ⟨0x2000, 0⟩).message ⟨5, by decide, by decide⟩) := by
  decide +kernel

end Canopen.Client
