import Canopen.Proofs.RetryBudget

set_option autoImplicit false

namespace Canopen.Client

open Can (Message TransportError)
open Sdo
open Transfer

variable {σ : Type}

/-- The clock never goes back. -/
structure Link.Steady (a : Link σ) : Prop where
  send : ∀ m w, a.now w ≤ a.now (a.send m w).2
  receive : ∀ w, a.now w ≤ a.now (a.receive w).2
  note : ∀ r w, a.now w ≤ a.now (a.note r w)
  sleep : ∀ t w, a.now w ≤ a.now (a.sleep t w)

section
variable (config : Config) (node : UInt8) (direction : Direction)

/-- Whether a look has found nothing of the server since the last message, whoever it was from.
There is no such message before the first one is sent. -/
def Event.silence (silent : Option Bool) (e : Event) : Option Bool :=
  match e.act with
  | .sent _ _ => some false
  | .received (.ok (some m)) => silent.map fun _ => m.id ≠ .std (0x580 + node.toUInt16)
  | .received _ => silent.map fun _ => true
  | .noted _ | .slept _ => silent

def silence (events : List Event) : Option Bool := events.foldl (Event.silence node) none

/-- What gives the server its time anew: a message that is sent, and the next segment of a
stream. -/
def GivesTime (before : List Event) (e : Event) : Prop :=
  match e.act with
  | .sent _ (.ok _) => True
  | .received (.ok (some m)) =>
    m.id = .std (0x580 + node.toUInt16) ∧
      ∃ st, (watch config node direction before).stream = some st ∧
        m.dlc = 8 ∧ (m.data.get 0 &&& 0x7F).toNat = st.taken + 1
  | _ => False

/-- All the time that the server was given is over. -/
def TimeOver (events : List Event) (time : Nat) : Prop :=
  ∀ before e since, events = before ++ e :: since → GivesTime config node direction before e →
    e.time + config.timeout ≤ time

/-- What is sent to a server that keeps silent is sent when its time is over, or is an abort. -/
def Punctual (events : List Event) : Prop :=
  ∀ before m outcome time since, events = before ++ ⟨.sent m outcome, time⟩ :: since →
    silence node before = some true → m.data.get 0 ≠ 0x80 →
    TimeOver config node direction before time

structure OnTime (a : Link σ) (w : σ × List Event) : Prop where
  punctual : Punctual config node direction w.2
  past : ∀ e ∈ w.2, e.time ≤ a.now w.1

end

section
variable {config : Config} {node : UInt8} {direction : Direction} {events : List Event}

theorem silence_append (events : List Event) (e : Event) :
    silence node (events ++ [e]) = e.silence node (silence node events) := by
  simp [silence]

theorem TimeOver.mono {time time' : Nat} (h : TimeOver config node direction events time)
    (hle : time ≤ time') : TimeOver config node direction events time' :=
  fun before e since hsplit hgives => Nat.le_trans (h before e since hsplit hgives) hle

theorem TimeOver.of_past {time : Nat} (h : ∀ e ∈ events, e.time ≤ time) :
    TimeOver config node direction events (time + config.timeout) := by
  rintro before e since rfl -
  exact Nat.add_le_add_right (h e (by simp)) _

theorem TimeOver.append {time : Nat} {e : Event}
    (h : TimeOver config node direction events time)
    (he : GivesTime config node direction events e → e.time + config.timeout ≤ time) :
    TimeOver config node direction (events ++ [e]) time := by
  intro before x since hsplit hgives
  obtain ⟨since', -, rfl⟩ | ⟨rfl, -, rfl⟩ := split_of_snoc hsplit
  · exact h before x since' rfl hgives
  · exact he hgives

theorem Punctual.append {e : Event} (h : Punctual config node direction events)
    (he : ∀ m outcome, e.act = .sent m outcome → silence node events = some true →
      m.data.get 0 ≠ 0x80 → TimeOver config node direction events e.time) :
    Punctual config node direction (events ++ [e]) := by
  intro before m outcome time since hsplit
  obtain ⟨since', -, rfl⟩ | ⟨rfl, -, rfl⟩ := split_of_snoc hsplit
  · exact h before m outcome time since' rfl
  · exact he m outcome rfl

end

namespace Call

variable (c : Call σ)

abbrev TimeOver (w : σ × List Event) (time : Nat) : Prop :=
  Client.TimeOver c.config c.node.value c.direction w.2 time

abbrev OnTime (w : σ × List Event) : Prop :=
  Client.OnTime c.config c.node.value c.direction c.link w

structure Prompted (w : σ × List Event) : Prop extends c.OnTime w where
  heard : silence c.node.value w.2 ≠ some true

structure Passed (w : σ × List Event) : Prop extends c.OnTime w where
  expired : c.TimeOver w (c.link.now w.1)

structure Spares (s : Session (σ × List Event)) : Prop extends c.OnTime s.world where
  expired : c.TimeOver s.world s.deadline

structure Timely (s : Session (σ × List Event)) : Prop extends c.Prompted s.world where
  expired : c.TimeOver s.world s.deadline

end Call

section
variable {c : Call σ} {w v : σ × List Event} {stream : Option Stream}

theorem Call.Timely.spares {s : Session (σ × List Event)} (h : c.Timely s) : c.Spares s :=
  ⟨h.toOnTime, h.expired⟩

theorem Call.Timely.adjust {s t : Session (σ × List Event)} (h : c.Timely s)
    (hw : t.world = s.world) (hd : t.deadline = s.deadline) : c.Timely t := by
  obtain ⟨hprompted, hover⟩ := h
  rw [← hw] at hprompted
  rw [← hw, ← hd] at hover
  exact ⟨hprompted, hover⟩

theorem OnTime.append {e : Event} (h : c.OnTime w) (hv : v.2 = w.2 ++ [e])
    (htime : e.time = c.link.now v.1) (hle : c.link.now w.1 ≤ c.link.now v.1)
    (he : ∀ m outcome, e.act = .sent m outcome → silence c.node.value w.2 = some true →
      m.data.get 0 ≠ 0x80 → c.TimeOver w (c.link.now v.1)) : c.OnTime v where
  punctual := by
    rw [hv]
    refine h.punctual.append fun m outcome hact hsilent hhead => ?_
    rw [htime]
    exact he m outcome hact hsilent hhead
  past := by
    rw [hv]
    intro x hx
    rcases List.mem_append.mp hx with hx | hx
    · exact Nat.le_trans (h.past x hx) hle
    · obtain rfl := List.mem_singleton.mp hx
      exact Nat.le_of_eq htime

theorem Call.TimeOver.append {e : Event} {time : Nat} (h : c.TimeOver w time)
    (hv : v.2 = w.2 ++ [e])
    (he : GivesTime c.config c.node.value c.direction w.2 e → e.time + c.config.timeout ≤ time) :
    c.TimeOver v time := by
  rw [Call.TimeOver, hv]
  exact Client.TimeOver.append h he

theorem Call.silence_noted (w : σ × List Event) (r : Record) :
    silence c.node.value (c.traced.link.note r w).2 = silence c.node.value w.2 :=
  silence_append ..

variable (hsteady : c.link.Steady)
include hsteady

theorem OnTime.noted (h : c.OnTime w) (r : Record) : c.OnTime (c.traced.link.note r w) :=
  h.append rfl rfl (hsteady.note r w.1) fun _ _ hact => by cases hact

theorem Call.Prompted.noted (h : c.Prompted w) (r : Record) :
    c.Prompted (c.traced.link.note r w) := by
  refine ⟨h.toOnTime.noted hsteady r, ?_⟩
  rw [Call.silence_noted]
  exact h.heard

theorem Call.Passed.noted (h : c.Passed w) (r : Record) : c.Passed (c.traced.link.note r w) :=
  ⟨h.toOnTime.noted hsteady r,
    Call.TimeOver.append (h.expired.mono (hsteady.note r w.1)) rfl False.elim⟩

theorem Call.Timely.noted {s : Session (σ × List Event)} (h : c.Timely s) (r : Record) :
    c.Timely { s with world := c.traced.link.note r s.world } :=
  ⟨h.toPrompted.noted hsteady r, Call.TimeOver.append h.expired rfl False.elim⟩

theorem OnTime.received {outcome : Except TransportError (Option Message)}
    (h : c.OnTime w) (hv : c.traced.link.receive w = (outcome, v)) : c.OnTime v := by
  refine h.append (Link.traced_receive hv) rfl ?_ fun _ _ hact => by cases hact
  have hworld := congrArg (fun p => c.link.now p.2.1) hv
  exact hworld ▸ hsteady.receive w.1

theorem OnTime.sent (h : c.OnTime w) {m : Message}
    (hm : silence c.node.value w.2 = some true → m.data.get 0 ≠ 0x80 →
      c.TimeOver w (c.link.now w.1)) :
    c.Prompted (c.traced.link.send m w).2 := by
  refine ⟨h.append rfl rfl (hsteady.send m w.1) ?_, ?_⟩
  · rintro _ _ ⟨⟩ hsilent hhead
    exact (hm hsilent hhead).mono (hsteady.send m w.1)
  · show silence c.node.value (w.2 ++ [_]) ≠ some true
    rw [silence_append]
    simp [Event.silence]

theorem preserves_prompted : c.traced.link.Preserves c.Prompted where
  note h r := h.noted hsteady r
  send h _ := h.toOnTime.sent hsteady fun hsilent => absurd hsilent h.heard

theorem OnTime.ends_abandon {α : Type} {s : Session (σ × List Event)}
    (hs : c.OnTime s.world) (code : AbortCode) (e : Error) :
    Ends (c.traced.abandon code e : Transfer _ α) s (fun _ _ => False)
      fun _ t => c.OnTime t.world := by
  refine (Call.ends_abandon_of_send (c := c.traced) (P := c.OnTime) (Q := c.OnTime)
    (fun _ r h => h.noted hsteady r) (fun _ r h => h.noted hsteady r) code e
    (fun w hw => ?_) hs).mono (fun _ _ h => h) fun _ _ he => he.2
  refine (hw.sent hsteady fun _ hhead => absurd ?_ hhead).toOnTime
  have hmessage := message_abort c.target code.code c.node
  exact congrArg (fun m : Message => m.data.get 0) hmessage

theorem Call.Prompted.ends_abandon {α : Type} {s : Session (σ × List Event)}
    (hs : c.Prompted s.world) (code : AbortCode) (e : Error) :
    Ends (c.traced.abandon code e : Transfer _ α) s (fun _ _ => False)
      fun _ t => c.OnTime t.world :=
  hs.toOnTime.ends_abandon hsteady code e

theorem Call.Prompted.ends_malformed {α : Type} {s : Session (σ × List Event)}
    (hs : c.Prompted s.world) (e : ParseError) :
    Ends (c.traced.malformed e : Transfer _ α) s (fun _ _ => False)
      fun _ t => c.OnTime t.world :=
  (Call.ends_malformed_of_preserves (preserves_prompted hsteady) hs e).mono (fun _ _ h => h)
    fun _ _ he => he.2.toOnTime

theorem OnTime.ends_sendMessage {m : Message} {s : Session (σ × List Event)}
    (hs : c.OnTime s.world)
    (hm : silence c.node.value s.world.2 = some true → c.TimeOver s.world (c.link.now s.world.1)) :
    Ends (c.traced.sendMessage m) s (fun _ t => c.Timely t) fun _ t => c.OnTime t.world := by
  simp only [Call.sendMessage, Call.trySend, Call.note, ends_bind, ends_act]
  have hnoted := hs.noted hsteady ⟨.trace, s!"SDO tx: {m}"⟩
  have hsent := hnoted.sent hsteady (m := m) fun hsilent _ => by
    rw [Call.silence_noted] at hsilent
    have hover := hm hsilent
    exact Call.TimeOver.append (hover.mono (hsteady.note _ _)) rfl False.elim
  generalize c.traced.link.send m _ = p at hsent
  obtain ⟨outcome, v⟩ := p
  cases outcome with
  | error e => exact hsent.toOnTime
  | ok _ => exact ⟨hsent, .of_past hsent.past⟩

/-- The client waits for the next message, or until all time is over that it has given the server.
The next segment of a stream gives it more. -/
theorem Call.Spares.ends_nextMessage {s : Session (σ × List Event)} (hs : c.Spares s)
    (hwaits : c.Waits stream s) :
    Ends c.traced.nextMessage s
      (fun received t => t.seqno = s.seqno ∧ match received with
        | some m => c.Prompted t.world ∧
          ((∀ st, stream = some st →
            ¬ (m.dlc = 8 ∧ (m.data.get 0 &&& 0x7F).toNat = st.taken + 1)) →
            c.TimeOver t.world t.deadline)
        | none => c.Passed t.world)
      fun _ t => c.OnTime t.world := by
  refine Call.ends_poll_of_looks (c := c.traced) (K := fun _ => c.OnTime)
    (W := fun _ t => c.Waits stream t ∧ c.Spares t ∧ t.seqno = s.seqno) ?_ ?_ ?_ ?_ ?_ ?_
    c.patience ⟨hwaits, hs, rfl⟩
  · rintro - t ⟨-, ht, -⟩
    rw [Call.cancel, ends_bind]
    exact ((ht.toOnTime.noted hsteady _).ends_abandon hsteady _ _).mono (fun _ _ h => h.elim)
      fun _ _ he => he
  · exact fun t ht => ht.2.1.toOnTime
  · rintro - t e w ⟨-, ht, -⟩ hw
    exact ht.received hsteady hw
  · -- A look that finds nothing.
    rintro - t w ⟨hwaits, ht, hseqno⟩ hw
    have hover : c.TimeOver w t.deadline :=
      Call.TimeOver.append ht.expired (Link.traced_receive hw) False.elim
    have hlook := (hwaits.nothing hw).2
    show if t.deadline ≤ c.link.now w.1 then _ else _
    split
    · rename_i hpassed
      exact ⟨hseqno, ht.received hsteady hw, hover.mono hpassed⟩
    · rename_i hgoes
      refine ⟨(if_neg hgoes).mp hlook, ⟨?_, Call.TimeOver.append hover rfl False.elim⟩, hseqno⟩
      exact (ht.received hsteady hw).append rfl rfl (hsteady.sleep _ w.1)
        fun _ _ hact => by cases hact
  · -- A frame of somebody else.
    rintro - t m w ⟨hwaits, ht, hseqno⟩ hw hid
    have hover : c.TimeOver w t.deadline :=
      Call.TimeOver.append ht.expired (Link.traced_receive hw) fun hgives => absurd hgives.1 hid
    have hnoted := (ht.received hsteady hw).noted hsteady ⟨.trace, s!"Ignoring {m}"⟩
    have hlook := (hwaits.foreign hw hid ⟨.trace, s!"Ignoring {m}"⟩).2
    dsimp only
    split
    · rename_i hpassed
      exact ⟨hseqno, hnoted, Call.TimeOver.append (hover.mono hpassed) rfl False.elim⟩
    · rename_i hgoes
      exact ⟨(if_neg hgoes).mp hlook, ⟨hnoted, Call.TimeOver.append hover rfl False.elim⟩, hseqno⟩
  · -- A frame of the server.
    rintro - t m w ⟨hwaits, ht, hseqno⟩ hw hid
    have hlast := Link.traced_receive hw
    have hheard : c.Prompted w := by
      refine ⟨ht.received hsteady hw, ?_⟩
      have hid' : m.id = .std (0x580 + c.node.value.toUInt16) := hid
      rw [hlast, silence_append]
      simp [Event.silence, hid']
    refine ⟨hseqno, hheard.noted hsteady _, fun hother => ?_⟩
    refine Call.TimeOver.append (Call.TimeOver.append ht.expired hlast ?_) rfl False.elim
    rintro ⟨-, st, hst, hnext⟩
    exact absurd hnext (hother st (hwaits.stream.symm.trans hst))

theorem Call.Passed.ends_takeRetry (attempts : UInt32) {s : Session (σ × List Event)}
    (hs : c.Passed s.world) :
    Ends (c.traced.takeRetry attempts) s (fun _ t => c.Passed t.world) fun _ t =>
      c.OnTime t.world :=
  Call.keeps_takeRetry_of_note (K := fun _ => c.OnTime) (fun h r => h.noted hsteady r)
    (fun _ _ h => h.toOnTime) attempts s hs

theorem Call.Passed.ends_sendMessage {m : Message} {s : Session (σ × List Event)}
    (hs : c.Passed s.world) :
    Ends (c.traced.sendMessage m) s (fun _ t => c.Timely t) fun _ t => c.OnTime t.world :=
  hs.toOnTime.ends_sendMessage hsteady fun _ => hs.expired

theorem Call.Prompted.ends_sendMessage {m : Message} {s : Session (σ × List Event)}
    (hs : c.Prompted s.world) :
    Ends (c.traced.sendMessage m) s (fun _ t => c.Timely t) fun _ t => c.OnTime t.world :=
  hs.toOnTime.ends_sendMessage hsteady fun hsilent => absurd hsilent hs.heard

theorem Call.Timely.ends_readResponse (m : Message) {s : Session (σ × List Event)}
    (hs : c.Timely s) :
    Ends (c.traced.readResponse m) s (fun _ t => c.Timely t) fun _ t => c.OnTime t.world := by
  rw [Call.readResponse]
  split
  · exact (hs.toPrompted.ends_malformed hsteady _).mono (fun _ _ h => h.elim) fun _ _ he => he
  · exact (hs.toPrompted.noted hsteady _).toOnTime
  · exact hs

theorem keeps_ask_timely {m : Message} (hm : c.Plain m) :
    Keeps (fun s => c.Turn none false 0 s ∧ c.Timely s) (fun _ => c.OnTime) (do
      c.traced.sendMessage m
      c.traced.await (c.traced.sendMessage m)) := by
  rintro s ⟨hturn, hs⟩
  rw [ends_bind]
  refine ((ends_sendMessage_asks hm hturn).and (hs.toPrompted.ends_sendMessage hsteady)).mono
    (fun _ t ht => ?_) fun _ _ he => he.2
  rw [Call.await, ends_bind, ends_get]
  refine Call.ends_awaitRounds_of_next (c := c.traced) (K := fun _ => c.OnTime)
    (W := fun _ t => c.Asks m t ∧ c.Timely t) (L := fun _ t => c.Missed m t ∧ c.Passed t.world)
    (M := fun m t => c.Heard none m t ∧ c.Timely t) ?_ ?_ ?_ ?_ 1 _ ht
  · exact fun t ht => ht.2.toOnTime
  · rintro - t ⟨hasks, ht⟩
    refine ((ends_nextMessage_asks hasks).and (ht.spares.ends_nextMessage hsteady
      hasks.toWaits)).mono (fun received u hu => ?_) fun _ _ he => he.2
    obtain ⟨hduly, -, hu⟩ := hu
    cases received with
    | none => exact ⟨hduly, hu⟩
    | some m' => exact ⟨hduly, hu.1, hu.2 (by simp)⟩
  · rintro m' t ⟨hheard, ht⟩
    exact ((ends_readResponse_heard hheard).and (ht.ends_readResponse hsteady m')).mono
      (fun _ _ hu => hu) fun _ _ he => he.2
  · rintro attempts - t ⟨hmissed, ht⟩
    have hresends : Ends (c.traced.takeRetry attempts >>= fun _ => c.traced.sendMessage m) t
        (fun _ u => c.Timely u) fun _ u => c.OnTime u.world := by
      rw [ends_bind]
      exact (ht.ends_takeRetry hsteady attempts).mono
        (fun _ _ hu => hu.ends_sendMessage hsteady) fun _ _ he => he
    exact ((ends_retry_missed hm attempts hmissed).and hresends).mono (fun _ _ hu => hu)
      fun _ _ he => he.2

theorem Call.Prompted.ends_readSegment {m : Message} {s : Session (σ × List Event)}
    (hs : c.Prompted s.world) :
    Ends (c.traced.readSegment m) s (fun _ _ => True) fun _ t => c.OnTime t.world := by
  rw [Call.readSegment]
  split
  · exact (hs.ends_malformed hsteady _).mono (fun _ _ h => h.elim) fun _ _ he => he
  · split
    · exact (hs.ends_abandon hsteady _ _).mono (fun _ _ h => h.elim) fun _ _ he => he
    · trivial

theorem Call.Prompted.ends_takeSegment {m : Message} {s : Session (σ × List Event)}
    (hs : c.Prompted s.world)
    (hover : ¬ (m.data.get 0 &&& 0x7F).toNat = s.seqno.toNat + 1 →
      c.TimeOver s.world s.deadline) :
    Ends (c.traced.takeSegment (.ofPayload m.data)) s (fun _ t => c.Timely t) fun _ _ => False := by
  rw [Call.takeSegment, ends_bind, ends_get]
  dsimp only
  split
  · exact ⟨hs, .of_past hs.past⟩
  · rename_i hnot
    have htimely : c.Timely s := ⟨hs, hover hnot⟩
    exact htimely.noted hsteady _

theorem Call.Timely.ends_acknowledge {s : Session (σ × List Event)} (hs : c.Timely s) :
    Ends c.traced.acknowledge s (fun _ t => c.Timely t) fun _ t => c.OnTime t.world := by
  refine Call.ends_acknowledge_of_send fun text => ?_
  exact (Call.Prompted.ends_sendMessage (m := (c.acknowledgement s.seqno).message c.node) hsteady
    (hs.toPrompted.noted hsteady ⟨.debug, text⟩)).mono (fun _ _ ht => ht.adjust rfl rfl)
    fun _ _ he => he

/-- A segment restarts the deadline or leaves it, and so does what tells the server of a block. -/
theorem ends_segment_timely (hb : 0 < c.config.blockSize.toNat) {request : Request} {m : Message}
    {s : Session (σ × List Event)} (hhears : c.Hears request m s) (hs : c.Prompted s.world)
    (hother : ¬ (m.data.get 0 &&& 0x7F).toNat = s.seqno.toNat + 1 →
      c.TimeOver s.world s.deadline) :
    Ends (c.traced.readSegment m) s
      (fun segment t => Ends (c.traced.takeSegment segment) t
        (fun inOrder u =>
          if (inOrder && segment.last) = true then c.Turn none false 0 u ∧ c.Timely u
          else if segment.seqno = c.config.blockSize ∨ segment.last = true then
            Ends c.traced.acknowledge u (fun request v => c.Streams request v ∧ c.Timely v)
              fun _ v => c.OnTime v.world
          else c.Streams request u ∧ c.Timely u)
        fun _ u => c.OnTime u.world)
      fun _ t => c.OnTime t.world := by
  refine ends_segment_beside hb hhears (R := fun _ => True) (P := fun _ u => c.Timely u)
    ((hs.ends_readSegment hsteady).mono (fun _ _ h => h) fun _ _ he _ => he)
    (fun _ => (hs.ends_takeSegment hsteady hother).mono (fun _ _ h => h) fun _ _ he => he.elim)
    (fun _ _ htimely _ hturn => ⟨hturn, htimely⟩) (fun _ u htimely _ _ => ?_)
    fun _ _ htimely _ _ hgoes => ⟨hgoes, htimely⟩
  exact (htimely.ends_acknowledge hsteady).mono (fun _ _ hv hstreams => ⟨hstreams, hv⟩)
    fun _ _ he _ => he

theorem ends_receiveBlocks_timely (hb : 0 < c.config.blockSize.toNat) (attempts : UInt32) (n : Nat)
    {request : Request} {s : Session (σ × List Event)} (hstreams : c.Streams request s)
    (hs : c.Timely s) :
    Ends (c.traced.receiveBlocks request attempts n) s
      (fun _ t => c.Turn none false 0 t ∧ c.Timely t) fun _ t => c.OnTime t.world := by
  refine Call.ends_receiveBlocks_of_next (c := c.traced) (K := fun _ => c.OnTime)
    (W := fun _ request t => c.Streams request t ∧ c.Timely t)
    (L := fun _ request t => c.Starves request t ∧ c.Passed t.world)
    (M := fun _ request m t => c.Hears request m t ∧ c.Prompted t.world ∧
      (¬ (m.data.get 0 &&& 0x7F).toNat = t.seqno.toNat + 1 → c.TimeOver t.world t.deadline))
    ?_ ?_ ?_ ?_ ?_ attempts n ⟨hstreams, hs⟩
  · exact fun _ _ hs => hs.2.toOnTime
  · rintro _ request s ⟨hstreams, hs⟩
    obtain ⟨st, hst, -⟩ := id hstreams
    refine ((ends_nextMessage_stream hstreams).and
      (hs.spares.ends_nextMessage hsteady hst.toWaits)).mono (fun received t ht => ?_)
      fun _ _ he => he.2
    obtain ⟨hduly, hseqno, ht⟩ := ht
    cases received with
    | none => exact ⟨hduly, ht⟩
    | some m =>
      obtain ⟨hprompted, hother⟩ := ht
      refine ⟨hduly, hprompted, fun hnot => hother fun st' hst' hnext => hnot ?_⟩
      cases hst'
      rw [hseqno, ← hst.taken]
      exact hnext.2
  · rintro attempts _ request s ⟨hstarves, hs⟩
    refine ((ends_retry_stream attempts hstarves).and (hs.ends_takeRetry hsteady attempts)).mono
      (fun _ t ht => ?_) fun _ _ he => he.2
    obtain ⟨⟨-, hresends⟩, hpassed⟩ := ht
    exact (hresends.and (hpassed.ends_sendMessage hsteady)).mono (fun _ _ hu => hu)
      fun _ _ he => he.2
  · rintro _ request m s ⟨hhears, hprompted, hother⟩ hhead
    have htimely : c.Timely s := ⟨hprompted, hother (by simp [hhead])⟩
    refine ((ends_readResponse_stream hhears hhead).and (htimely.ends_readResponse hsteady m)).mono
      (fun _ t ht => ?_) fun _ _ he => he.2
    obtain ⟨⟨rfl, hstreams⟩, ht⟩ := ht
    exact ⟨hstreams, ht⟩
  · exact fun _ request m s hs _ => ends_segment_timely hsteady hb hs.1 hs.2.1 hs.2.2

theorem keeps_stream_timely (hu : c.direction = .upload) (hb : 0 < c.config.blockSize.toNat) :
    Keeps (fun s => c.Turn none false 0 s ∧ c.Timely s) (fun _ => c.OnTime) (do
      c.traced.send .startBlockUpload
      modify fun s => { s with seqno := 0 }
      c.traced.receiveBlocks .startBlockUpload 1 c.patience) := by
  rintro s ⟨hturn, hs⟩
  rw [ends_bind]
  refine ((ends_start_stream hu hb hturn).and (hs.toPrompted.ends_sendMessage hsteady)).mono
    (fun _ t ht => ?_) fun _ _ he => he.2
  exact ends_receiveBlocks_timely hsteady hb 1 c.patience ht.1 (ht.2.adjust rfl rfl)

theorem upholds_timely (hb : 0 < c.config.blockSize.toNat) :
    c.traced.Upholds (fun s => c.Turn none false 0 s ∧ c.Timely s) c.OnTime fun _ => c.OnTime where
  adjust h hw hr hd := ⟨h.1.adjust hw hr, h.2.adjust hw hd⟩
  note level text s hs := ⟨keeps_note_turn level text s hs.1, hs.2.noted hsteady _⟩
  tell _ hm _ hs :=
    ((((upholds_turn c hb).tell _ hm) _ hs.1).and (hs.2.toPrompted.ends_sendMessage hsteady)).mono
      (fun _ _ ht => ht) fun _ _ he => he.2
  ask _ hm := keeps_ask_timely hsteady hm
  stream hu := keeps_stream_timely hsteady hu hb
  abandon code e _ _ hs :=
    (hs.2.toOnTime.ends_abandon hsteady code e).mono (fun _ _ h => h.elim) fun _ _ he => he
  unfinished hs := hs.2.toOnTime
  done hs _ := hs.2.toOnTime.noted hsteady _
  failed h _ := h.noted hsteady _

theorem ends_flush_timely (n : Nat) {s : Session (σ × List Event)} (hs : c.Timely s)
    (hseen : c.seen s.world = {}) (hsilence : silence c.node.value s.world.2 = none) :
    Ends (c.traced.flush n) s (fun _ t => c.Timely t) fun _ t => c.OnTime t.world := by
  induction n generalizing s with
  | zero => exact hs.toOnTime
  | succ n ih =>
    rw [Call.flush, ends_bind, Call.receive, ends_bind, ends_act]
    generalize hreceived : c.traced.link.receive s.world = p
    obtain ⟨received, w⟩ := p
    have hlast := Link.traced_receive hreceived
    have hseen' : c.seen w = {} := by
      rw [Call.seen_receive hreceived, hseen]
      rfl
    have hsilence' : silence c.node.value w.2 = none := by
      rw [hlast, silence_append, hsilence]
      cases received with
      | error e => rfl
      | ok m? => cases m? <;> rfl
    have hgives : ¬ GivesTime c.config c.node.value c.direction s.world.2
        ⟨.received received, c.link.now w.1⟩ := by
      cases received with
      | error e => exact id
      | ok m? =>
        cases m? with
        | none => exact id
        | some m =>
          rintro ⟨-, st, hst, -⟩
          have hstream := congrArg Watch.stream hseen
          cases hstream.symm.trans hst
    have htimely : c.Timely { s with world := w } :=
      ⟨⟨hs.toOnTime.received hsteady hreceived, by simp [hsilence']⟩,
        Call.TimeOver.append hs.expired hlast fun h => absurd h hgives⟩
    cases received with
    | error e => exact htimely.toOnTime
    | ok m? =>
      cases m? with
      | none => exact htimely
      | some m => exact ih htimely hseen' hsilence'

theorem ends_prepare_timely (mode : Mode) {s : Session (σ × List Event)} (hs : s.world.2 = []) :
    Ends (c.traced.prepare mode) s (fun _ t => c.Timely t) fun _ t => c.OnTime t.world := by
  have htimely : c.Timely s := by
    refine ⟨⟨⟨?_, ?_⟩, ?_⟩, ?_⟩ <;> simp [hs, Punctual, Client.TimeOver, silence]
  rw [Call.prepare, ends_bind, Call.note, ends_act]
  refine ends_flush_timely hsteady c.patience (htimely.noted hsteady _) ?_ ?_
  · rw [Call.seen_note, Call.seen, hs]
    rfl
  · rw [Call.silence_noted, hs]
    rfl

end

/-- However late a server is, the client does not press it: it lets all the time go by that it has
given the server, unless the server has answered, or the transfer is given up. -/
theorem observe_punctual {client : Client σ} (hsteady : client.link.Steady) (node : UInt8)
    (target : Address) (op : Operation) (w : σ) :
    Punctual client.config node op.direction (client.observe node target op w).2 := by
  let Kept := OnTime client.config node op.direction client.link
  have hempty : Kept (w, []) := ⟨by simp [Punctual], by simp⟩
  have hleaves : Leaves Kept (fun _ => Kept) (client.traced.perform node target op (w, [])) := by
    refine perform_leaves
      (I := fun n s => (client.call n target op.direction).Turn none false 0 s ∧
        (client.call n target op.direction).Timely s) ?_ ?_ (fun _ _ => hempty) fun _ h => h
    · rintro n rfl
      exact upholds_timely (c := client.call n target op.direction) hsteady
        (Config.blockSize_of_valid client.valid).1
    · rintro n rfl mode
      exact ((ends_prepare_turn (client.call n target op.direction) mode rfl rfl).and
        (ends_prepare_timely hsteady mode rfl)).mono (fun _ _ ht => ht) fun _ _ he => he.2
  rw [observe]
  generalize client.traced.perform node target op (w, []) = o at hleaves
  obtain ⟨result, v, events⟩ := o
  cases result with
  | ok a => exact hleaves.punctual
  | error e => exact hleaves.punctual

end Canopen.Client
