import Canopen.Proofs.Conduct

/-!
A call that keeps to a conduct, seen from within: each step of a transfer that starts where the
course of events allows it ends where the course has come to. The steps that all ways of
transferring share are looked at here; a way of transferring is then taken along its course by
putting them together.
-/

set_option autoImplicit false

namespace Canopen.Client

open Can (Message TransportError)
open Sdo
open Transfer

variable {σ S : Type}

namespace Call

variable (c : Call σ) (k : Conduct S)

/-- All was allowed so far, and the call has come to this. -/
structure OnCourse (course : Course S) (w : σ × List Event) : Prop where
  obeyed : k.Obeyed c.node.value c.target c.config c.direction w.2
  course : k.follow c.node.value c.target w.2 = course

def FailsOnCourse (e : Stop) (w : σ × List Event) : Prop :=
  ∃ course, c.OnCourse k course w ∧
    match e with
    | .failed (.timeout _) => ∃ s, course = ⟨[], .waits s⟩
    | .failed e => course = ⟨[], .failed e⟩
    | .unfinished => ∃ s, course.standing = .waits s

variable {c k} {course : Course S} {st : S} {w v : σ × List Event}

theorem OnCourse.add (h : c.OnCourse k course w) {e : Event} (hv : v.2 = w.2 ++ [e])
    (he : k.Allows c.node.value c.target (c.seen w).late course e.act) :
    c.OnCourse k (k.step c.node.value c.target course e.act) v := by
  obtain ⟨hobeyed, rfl⟩ := h
  refine ⟨?_, ?_⟩
  · rw [hv]
    exact hobeyed.append he
  · rw [hv]
    exact k.follow_append ..

theorem OnCourse.noted (h : c.OnCourse k course w) (r : Record) :
    c.OnCourse k course (c.traced.link.note r w) :=
  h.add (e := ⟨.noted r, c.link.now (c.link.note r w.1)⟩) rfl trivial

theorem OnCourse.slept (h : c.OnCourse k course w) (t : Nat) :
    c.OnCourse k course (c.traced.link.sleep t w) :=
  h.add (e := ⟨.slept t, c.link.now (c.link.sleep t w.1)⟩) rfl trivial

theorem OnCourse.received (h : c.OnCourse k course w)
    (hcourse : course = k.start ∨ ∃ s, course = ⟨[], .waits s⟩)
    {outcome : Except TransportError (Option Message)}
    (hv : c.traced.link.receive w = (outcome, v)) :
    c.OnCourse k (k.take c.node.value c.target course outcome) v :=
  h.add (Link.traced_receive hv) hcourse

theorem OnCourse.fails {e : Error} (h : c.OnCourse k ⟨[], .failed e⟩ w) (he : ∀ n, e ≠ .timeout n) :
    c.FailsOnCourse k (.failed e) w := by
  refine ⟨_, h, ?_⟩
  cases e with
  | timeout n => exact absurd rfl (he n)
  | _ => rfl

theorem ends_sendMessage_due {m : Message} {due : List Message} {standing : Standing S}
    (hgoes : ∀ e, standing ≠ .failed e) {s : Session (σ × List Event)}
    (hs : c.OnCourse k ⟨m :: due, standing⟩ s.world) :
    Ends (c.traced.sendMessage m) s (fun _ t => c.OnCourse k ⟨due, standing⟩ t.world)
      fun e t => c.FailsOnCourse k e t.world := by
  simp only [sendMessage, trySend, note, ends_bind, ends_act]
  have hnoted := hs.noted ⟨.trace, s!"SDO tx: {m}"⟩
  generalize hsent : c.traced.link.send m _ = p
  obtain ⟨outcome, v⟩ := p
  have hv := hnoted.add (Link.traced_send hsent) rfl
  cases outcome with
  | error e =>
    have hfailed : c.OnCourse k ⟨[], .failed (.transport e)⟩ v := by
      cases standing with
      | failed e' => exact absurd rfl (hgoes e')
      | _ => exact hv
    exact hfailed.fails (by simp)
  | ok _ =>
    have hsent : c.OnCourse k ⟨due, standing⟩ v := by
      cases standing with
      | failed e' => exact absurd rfl (hgoes e')
      | _ => exact hv
    exact hsent

theorem ends_sendMessage_again (hhead : (k.again st).data.get 0 ≠ 0x80)
    {s : Session (σ × List Event)} (hlate : (c.seen s.world).late = true)
    (hs : c.OnCourse k ⟨[], .waits st⟩ s.world) :
    Ends (c.traced.sendMessage (k.again st)) s (fun _ t => c.OnCourse k ⟨[], .waits st⟩ t.world)
      fun e t => c.FailsOnCourse k e t.world := by
  simp only [sendMessage, trySend, note, ends_bind, ends_act]
  have hnoted := hs.noted ⟨.trace, s!"SDO tx: {k.again st}"⟩
  have hlate' : (c.seen (c.traced.link.note ⟨.trace, s!"SDO tx: {k.again st}"⟩ s.world)).late
      = true := by
    rw [seen_note]
    exact ((c.seen s.world).note_late c.config _).2 hlate
  generalize hsent : c.traced.link.send (k.again st) _ = p
  obtain ⟨outcome, v⟩ := p
  have hv := hnoted.add (Link.traced_send hsent) (by
    show k.again st = if _ then _ else _
    rw [if_pos hlate'])
  have hgoes : ¬ ((⟨[], .waits st⟩ : Course S).due = [] ∧ (k.again st).data.get 0 = 0x80) :=
    fun h => hhead h.2
  rw [Conduct.step] at hv
  unfold Course.send at hv
  rw [if_neg hgoes] at hv
  cases outcome with
  | error e => exact hv.fails (by simp)
  | ok _ => exact hv

section
variable {α : Type} {s : Session (σ × List Event)}

theorem ends_abandon_course {code : AbortCode} {e : Error} (he : e.abortCode? = some code.code)
    (hs : c.OnCourse k (Conduct.after c.node.value c.target (.fails e)) s.world) :
    Ends (c.traced.abandon code e : Transfer _ α) s (fun _ _ => False)
      fun e t => c.FailsOnCourse k e t.world := by
  have hdue : (Conduct.after c.node.value c.target (.fails e) : Course S)
      = ⟨[abortFrame c.node.value c.target code.code], .failed e⟩ := by
    rw [Conduct.after, he]
    rfl
  rw [hdue] at hs
  refine (ends_abandon_of_send (c := c.traced)
    (P := c.OnCourse k ⟨[abortFrame c.node.value c.target code.code], .failed e⟩)
    (Q := c.OnCourse k ⟨[], .failed e⟩) (fun _ r h => h.noted r) (fun _ r h => h.noted r) code e
    ?_ hs).mono (fun _ _ h => h) ?_
  · intro w hw
    exact hw.add (Link.traced_send rfl) (message_abort ..)
  · rintro _ t ⟨rfl, ht⟩
    refine ht.fails fun n h => ?_
    cases h
    cases he

theorem ends_cancel_course (hin : c.InTime s.world) (hs : c.OnCourse k ⟨[], .waits st⟩ s.world) :
    Ends (c.traced.cancel : Transfer _ α) s (fun _ _ => False)
      fun e t => c.FailsOnCourse k e t.world := by
  have hpreserves := preserves_inTime c
  simp only [cancel, note, ends_bind, ends_act]
  refine (ends_abandon_of_send (c := c.traced)
    (P := fun w => c.InTime w ∧ c.OnCourse k ⟨[], .waits st⟩ w)
    (Q := c.OnCourse k ⟨[], .failed .cancelled⟩)
    (fun _ r h => ⟨hpreserves.note h.1 r, h.2.noted r⟩) (fun _ r h => h.noted r) .generalError
    .cancelled ?_ ⟨hpreserves.note hin _, hs.noted _⟩).mono (fun _ _ h => h) ?_
  · rintro w ⟨hw, hcourse⟩
    have hsent := hcourse.add (v := (c.traced.link.send
        ((Request.abort c.target 0x08000000).message c.node) w).2) (Link.traced_send rfl) (by
      show _ = if _ then _ else _
      rw [hw.2]
      exact message_abort ..)
    rw [Conduct.step, message_abort] at hsent
    rw [show AbortCode.generalError.code = 0x08000000 from rfl, message_abort]
    exact hsent
  · rintro _ t ⟨rfl, ht⟩
    exact ht.fails (by simp)

theorem ends_malformed_course (e : ParseError)
    (hs : c.OnCourse k (Conduct.after c.node.value c.target (.fails (.malformed e))) s.world) :
    Ends (c.traced.malformed e : Transfer _ α) s (fun _ _ => False)
      fun e t => c.FailsOnCourse k e t.world := by
  simp only [malformed, note, ends_bind, ends_act]
  refine ends_abandon_course ?_ (hs.noted _)
  cases e <;> rfl

theorem ends_nextMessage_course {stream : Option Stream} (hwaits : c.Waits stream s)
    (hs : c.OnCourse k ⟨[], .waits st⟩ s.world) :
    Ends c.traced.nextMessage s
      (fun received t => match received with
        | some m => c.OnCourse k (Conduct.after c.node.value c.target (k.hear st m)) t.world
        | none => c.OnCourse k ⟨[], .waits st⟩ t.world)
      fun e t => c.FailsOnCourse k e t.world := by
  have hwaiting : (⟨[], .waits st⟩ : Course S) = k.start ∨
      ∃ s, (⟨[], .waits st⟩ : Course S) = ⟨[], .waits s⟩ := .inr ⟨st, rfl⟩
  refine ends_poll_of_looks (c := c.traced) (K := c.FailsOnCourse k)
    (W := fun _ t => c.Waits stream t ∧ c.OnCourse k ⟨[], .waits st⟩ t.world) ?_ ?_ ?_ ?_ ?_ ?_
    c.patience ⟨hwaits, hs⟩
  · exact fun _ t ht => (ends_cancel_course ht.1.inTime ht.2).mono (fun _ _ h => h.elim)
      fun _ _ h => h
  · exact fun t ht => ⟨_, ht.2, st, rfl⟩
  · exact fun _ t e w ht hw => (ht.2.received hwaiting hw).fails (by simp)
  · intro _ t w ht hw
    have hcourse : c.OnCourse k ⟨[], .waits st⟩ w := ht.2.received hwaiting hw
    have hlook := (ht.1.nothing hw).2
    dsimp only
    split
    · exact hcourse
    · rename_i hgoes
      exact ⟨(if_neg hgoes).mp hlook, hcourse.slept _⟩
  · intro _ t m w ht hw hid
    have hid' : m.id ≠ .std (0x580 + c.node.value.toUInt16) := hid
    have hcourse := ht.2.received hwaiting hw
    rw [Conduct.take] at hcourse
    rw [if_neg hid'] at hcourse
    have hlook := (ht.1.foreign hw hid ⟨.trace, s!"Ignoring {m}"⟩).2
    dsimp only
    split
    · exact hcourse.noted _
    · rename_i hgoes
      exact ⟨(if_neg hgoes).mp hlook, hcourse.noted _⟩
  · intro _ t m w ht hw hid
    have hid' : m.id = .std (0x580 + c.node.value.toUInt16) := hid
    have hcourse := ht.2.received hwaiting hw
    rw [Conduct.take] at hcourse
    rw [if_pos hid'] at hcourse
    exact hcourse.noted _

theorem ends_readResponse_course {respond : Response → Move S} {m : Message}
    (hs : c.OnCourse k (Conduct.after c.node.value c.target (.reading respond m)) s.world) :
    Ends (c.traced.readResponse m) s
      (fun r t => c.OnCourse k (Conduct.after c.node.value c.target (respond r)) t.world)
      fun e t => c.FailsOnCourse k e t.world := by
  rw [Move.reading] at hs
  rw [readResponse]
  cases hr : Response.ofMessage m with
  | error e =>
    rw [hr] at hs
    exact (ends_malformed_course e hs).mono (fun _ _ h => h.elim) fun _ _ h => h
  | ok r =>
    rw [hr] at hs
    cases r with
    | abort target code => exact (hs.noted _).fails (by simp)
    | _ => exact hs

theorem ends_takeRetry_course (attempts : UInt32) (hs : c.OnCourse k ⟨[], .waits st⟩ s.world) :
    Ends (c.traced.takeRetry attempts) s (fun _ t => c.OnCourse k ⟨[], .waits st⟩ t.world)
      fun e t => c.FailsOnCourse k e t.world := by
  rw [takeRetry, ends_bind, ends_get]
  cases s.retries with
  | zero => exact ⟨_, hs.noted _, st, rfl⟩
  | succ left => exact hs.noted _

end

end Call

/-- What a session knows of the data. -/
structure Tally where
  toggle : Bool := false
  seqno : UInt8 := 0
  transferred : Nat := 0
  announced : Option Nat := none
  buffer : List UInt8 := []

def Session.tally (s : Session σ) : Tally :=
  { toggle := s.toggle, seqno := s.seqno, transferred := s.transferred, announced := s.announced
    buffer := s.buffer }

namespace Call

section
variable {c : Call σ} {d : Tally}

theorem keeps_sendMessage_tally (m : Message) :
    Keeps (fun s => s.tally = d) (fun _ _ => True) (c.sendMessage m) := by
  intro s hs
  simp only [sendMessage, trySend, note, ends_bind, ends_act]
  generalize c.link.send m _ = p
  obtain ⟨outcome, v⟩ := p
  cases outcome with
  | error e => trivial
  | ok _ => exact hs

theorem keeps_nextMessage_tally :
    Keeps (fun s => s.tally = d) (fun _ _ => True) c.nextMessage := by
  intro s hs
  refine ends_poll_of_looks (W := fun _ s => s.tally = d) (Q := fun _ s => s.tally = d)
    (K := fun _ _ => True) ?_ (fun _ _ => trivial) (fun _ _ _ _ _ _ => trivial) ?_ ?_
    (fun _ _ _ _ h _ _ => h) c.patience hs
  · exact fun _ s _ => (ends_cancel_of_preserves (s := s) c.link.preserves_true trivial).mono
      (fun _ _ h => h.elim) fun _ _ _ => trivial
  · intro _ s w h _
    split
    · exact h
    · exact h
  · intro _ s m w h _ _
    dsimp only
    split
    · exact h
    · exact h

theorem keeps_readResponse_tally (m : Message) :
    Keeps (fun s => s.tally = d) (fun _ _ => True) (c.readResponse m) := by
  intro s hs
  rw [readResponse]
  split
  · exact (ends_malformed_of_preserves c.link.preserves_true trivial _).mono (fun _ _ h => h.elim)
      fun _ _ _ => trivial
  · trivial
  · exact hs

theorem keeps_takeRetry_tally (attempts : UInt32) :
    Keeps (fun s => s.tally = d) (fun _ _ => True) (c.takeRetry attempts) := by
  intro s hs
  rw [takeRetry, ends_bind, ends_get]
  cases s.retries with
  | zero => trivial
  | succ left => exact hs

end

variable (c : Call σ) (k : Conduct S)

structure Stands (course : Course S) (d : Tally) (s : Session (σ × List Event)) : Prop where
  turn : c.Turn none false 0 s
  course : c.OnCourse k course s.world
  tally : s.tally = d

/-- The call may fail like this where it stands, late or not. -/
structure FailsAt (e : Stop) (w : σ × List Event) : Prop where
  duly : c.FailsDuly e w
  course : c.FailsOnCourse k e w

variable {c k} {course : Course S} {d : Tally} {st : S} {α : Type}
  {G : α → Session (σ × List Event) → Prop}

theorem carries_note_stands (level : Level) (text : String) :
    Carries (c.Stands k course d) (c.FailsAt k) (c.traced.note level text) fun _ =>
      c.Stands k course d :=
  fun _ hs => ⟨hs.turn.noted _, hs.course.noted _, hs.tally⟩

theorem carries_modify_stands {f : Session (σ × List Event) → Session (σ × List Event)}
    (g : Tally → Tally) (hw : ∀ s, (f s).world = s.world) (hr : ∀ s, (f s).retries = s.retries)
    (hg : ∀ s, (f s).tally = g s.tally) :
    Carries (c.Stands k course d) (c.FailsAt k) (modify f : Transfer _ Unit) fun _ =>
      c.Stands k course (g d) := by
  intro s hs
  have hcourse := hs.course
  rw [← hw s] at hcourse
  exact ⟨hs.turn.adjust (hw s) (hr s), hcourse, (hg s).trans (congrArg g hs.tally)⟩

theorem carries_abandon_stands {code : AbortCode} {e : Error}
    (he : e.abortCode? = some code.code) :
    Carries (c.Stands k (Conduct.after c.node.value c.target (.fails e)) d) (c.FailsAt k)
      (c.traced.abandon code e) G := by
  intro s hs
  exact ((ends_abandon_turn he hs.turn).and (ends_abandon_course he hs.course)).mono
    (fun _ _ h => h.1.elim) fun _ _ h => ⟨h.1, h.2⟩

theorem carries_unexpected_stands (r : Response) :
    Carries (c.Stands k (Conduct.after c.node.value c.target (.fails .unexpectedResponse)) d)
      (c.FailsAt k) (c.traced.unexpected r) G :=
  carries_bind (carries_note_stands _ _) fun _ => carries_abandon_stands rfl

theorem carries_sendMessage_stands {m : Message} (hm : c.Plain m) {due : List Message}
    {standing : Standing S} (hgoes : ∀ e, standing ≠ .failed e) :
    Carries (c.Stands k ⟨m :: due, standing⟩ d) (c.FailsAt k) (c.traced.sendMessage m) fun _ =>
      c.Stands k ⟨due, standing⟩ d := by
  intro s hs
  exact (((ends_sendMessage_asks hm hs.turn).and (ends_sendMessage_due hgoes hs.course)).and
    (keeps_sendMessage_tally m s hs.tally)).mono
    (fun _ _ ⟨⟨hasks, hcourse⟩, htally⟩ => ⟨hasks.toTurn, hcourse, htally⟩)
    fun _ _ ⟨⟨hduly, hcourse⟩, _⟩ => ⟨hduly, hcourse⟩

theorem carries_forM_stands {ι : Type} {x : ι → Transfer (σ × List Event) Unit} {f : ι → Message}
    {is : List ι} (hx : ∀ i ∈ is, x i = c.traced.sendMessage (f i))
    (hm : ∀ i ∈ is, c.Plain (f i)) {due : List Message} :
    Carries (c.Stands k ⟨is.map f ++ due, .waits st⟩ d) (c.FailsAt k) (is.forM x) fun _ =>
      c.Stands k ⟨due, .waits st⟩ d := by
  induction is with
  | nil => exact fun s hs => hs
  | cons i is ih =>
    obtain ⟨hi, his⟩ := List.forall_mem_cons.mp hm
    obtain ⟨hxi, hxis⟩ := List.forall_mem_cons.mp hx
    refine carries_bind ?_ fun _ => ih hxis his
    rw [hxi]
    exact carries_sendMessage_stands hi (by simp)

/-- A request is sent, and again whenever the deadline has passed, until something comes. -/
theorem carries_ask_stands (respond : Response → Move S) {m : Message} (hm : c.Plain m)
    (hhead : m.data.get 0 ≠ 0x80) (hagain : k.again st = m)
    (hhear : ∀ m, k.hear st m = .reading respond m) :
    Carries (c.Stands k ⟨[m], .waits st⟩ d) (c.FailsAt k) (do
      c.traced.sendMessage m
      c.traced.await (c.traced.sendMessage m)) fun r =>
        c.Stands k (Conduct.after c.node.value c.target (respond r)) d := by
  intro s hs
  have hsend := ((ends_sendMessage_asks hm hs.turn).and
    (ends_sendMessage_due (by simp) hs.course)).and (keeps_sendMessage_tally m s hs.tally)
  rw [ends_bind]
  refine hsend.mono (fun _ t ht => ?_) fun _ _ he => ⟨he.1.1, he.1.2⟩
  rw [await, ends_bind, ends_get]
  -- The retries, the course and the data are followed side by side.
  refine ends_awaitRounds_of_next (c := c.traced) (K := c.FailsAt k)
    (W := fun _ t => (c.Asks m t ∧ c.OnCourse k ⟨[], .waits st⟩ t.world) ∧ t.tally = d)
    (L := fun _ t => (c.Missed m t ∧ c.OnCourse k ⟨[], .waits st⟩ t.world) ∧ t.tally = d)
    (M := fun m t => (c.Heard none m t ∧
      c.OnCourse k (Conduct.after c.node.value c.target (k.hear st m)) t.world) ∧ t.tally = d)
    ?_ ?_ ?_ ?_ 1 _ ht
  · exact fun _ ht => ⟨ht.1.1.inTime.failsDuly (by simp), _, ht.1.2, st, rfl⟩
  · rintro - t ⟨⟨hasks, hcourse⟩, htally⟩
    refine (((ends_nextMessage_asks hasks).and (ends_nextMessage_course hasks.toWaits hcourse)).and
      (keeps_nextMessage_tally t htally)).mono (fun received u hu => ?_)
      fun _ _ he => ⟨he.1.1, he.1.2⟩
    cases received with
    | some m' => exact hu
    | none => exact hu
  · rintro m' t ⟨⟨hheard, hcourse⟩, htally⟩
    rw [hhear] at hcourse
    exact (((ends_readResponse_heard hheard).and (ends_readResponse_course hcourse)).and
      (keeps_readResponse_tally m' t htally)).mono (fun _ _ hu => ⟨hu.1.1, hu.1.2, hu.2⟩)
      fun _ _ he => ⟨he.1.1, he.1.2⟩
  · rintro attempts - t ⟨⟨hmissed, hcourse⟩, htally⟩
    have hretry : Ends (c.traced.takeRetry attempts >>= fun _ => c.traced.sendMessage m) t
        (fun _ u => c.OnCourse k ⟨[], .waits st⟩ u.world)
        fun e u => c.FailsOnCourse k e u.world := by
      rw [ends_bind]
      refine ((ends_takeRetry_course attempts hcourse).and
        (ends_takeRetry_turn attempts hmissed.toTurn)).mono (fun _ u hu => ?_) fun _ _ he => he.1
      rw [← hagain] at hhead ⊢
      exact ends_sendMessage_again hhead hu.2.1.late hu.1
    exact (((ends_retry_missed hm attempts hmissed).and hretry).and
      (keeps_bind (keeps_takeRetry_tally attempts) (fun _ => keeps_sendMessage_tally m) t
        htally)).mono (fun _ _ hu => hu) fun _ _ he => ⟨he.1.1, he.1.2⟩

theorem carries_exchange_stands (respond : Response → Move S) {r : Request} (hr : r.Regular)
    (hne : r ≠ .startBlockUpload) (hagain : k.again st = r.message c.node)
    (hhear : ∀ m, k.hear st m = .reading respond m) :
    Carries (c.Stands k ⟨[r.message c.node], .waits st⟩ d) (c.FailsAt k) (c.traced.exchange r)
      fun r => c.Stands k (Conduct.after c.node.value c.target (respond r)) d :=
  carries_ask_stands respond (plain_of_ne hr hne) (hr.message_head_ne_abort c.node) hagain hhear

theorem carries_checkSize_stands (move : Move S) :
    Carries
      (c.Stands k (Conduct.after c.node.value c.target (move.sized d.announced d.transferred)) d)
      (c.FailsAt k) c.traced.checkSize
      fun _ => c.Stands k (Conduct.after c.node.value c.target move) d := by
  intro s hs
  obtain ⟨toggle, seqno, transferred, announced, buffer⟩ := d
  have hannounced : s.announced = announced := congrArg Tally.announced hs.tally
  have htransferred : s.transferred = transferred := congrArg Tally.transferred hs.tally
  rw [checkSize, ends_bind, ends_get, hannounced, htransferred]
  rcases announced with - | - | n
  · exact hs
  · exact hs
  · dsimp only [Move.sized] at hs
    show Ends (if n + 1 ≠ transferred then
      c.traced.abandon .dataTypeMismatch (.sizeMismatch (n + 1) transferred) else pure ()) s _ _
    by_cases hsize : n + 1 = transferred
    · rw [if_pos hsize] at hs
      rw [if_neg (not_not_intro hsize)]
      exact hs
    · rw [if_neg hsize] at hs
      rw [if_pos hsize]
      exact carries_abandon_stands rfl s hs

theorem carries_checkToggle_stands (toggle : Bool) (move : Move S) :
    Carries
      (c.Stands k (Conduct.after c.node.value c.target
        (if toggle = d.toggle then move else .fails .toggleMismatch)) d)
      (c.FailsAt k) (c.traced.checkToggle toggle) fun _ =>
        c.Stands k (Conduct.after c.node.value c.target move) { d with toggle := !d.toggle } := by
  intro s hs
  have htoggle : s.toggle = d.toggle := congrArg Tally.toggle hs.tally
  rw [checkToggle, ends_bind, ends_get, htoggle]
  by_cases hsame : toggle = d.toggle
  · rw [if_pos hsame] at hs ⊢
    exact carries_modify_stands (f := fun s => { s with toggle := !s.toggle })
      (fun d => { d with toggle := !d.toggle }) (fun _ => rfl) (fun _ => rfl) (fun _ => rfl) s hs
  · rw [if_neg hsame] at hs ⊢
    exact carries_abandon_stands rfl s hs

theorem carries_store_stands (bytes : List UInt8) :
    Carries (c.Stands k course d) (c.FailsAt k) (store bytes) fun _ =>
      c.Stands k course
        { d with buffer := d.buffer ++ bytes, transferred := d.transferred + bytes.length } :=
  carries_modify_stands (fun d =>
    { d with buffer := d.buffer ++ bytes, transferred := d.transferred + bytes.length })
    (fun _ => rfl) (fun _ => rfl) fun _ => rfl

theorem FailsAt.noted {e : Stop} {w : σ × List Event} (h : c.FailsAt k e w) (r : Record) :
    c.FailsAt k e (c.traced.link.note r w) := by
  obtain ⟨hduly, course, hcourse, hstands⟩ := h
  exact ⟨hduly.noted r, course, hcourse.noted r, hstands⟩

theorem FailsAt.explains {e : Stop} {w : σ × List Event} (h : c.FailsAt k e w) :
    k.Explains c.node.value c.target c.config c.direction w.2 (.error e) := by
  obtain ⟨hduly, course, hcourse, hstands⟩ := h
  refine ⟨hcourse.obeyed, ?_⟩
  rw [hcourse.course]
  have htimeout := hduly.timeout
  cases e with
  | unfinished =>
    refine ⟨?_, hstands⟩
    rw [Bool.eq_false_iff]
    intro hlate
    obtain ⟨n, hn⟩ := htimeout.mpr hlate
    cases hn
  | failed e =>
    cases e with
    | timeout n => exact ⟨htimeout.mp ⟨n, rfl⟩, hstands⟩
    | _ => exact hstands

theorem ends_flush_course (n : Nat) {s : Session (σ × List Event)}
    (hs : c.OnCourse k k.start s.world) :
    Ends (c.traced.flush n) s (fun _ t => c.OnCourse k k.start t.world)
      fun e t => c.FailsOnCourse k e t.world := by
  induction n generalizing s with
  | zero => exact ⟨_, hs, k.first, rfl⟩
  | succ n ih =>
    rw [flush, ends_bind, receive, ends_bind, ends_act]
    generalize hreceived : c.traced.link.receive s.world = p
    obtain ⟨received, w⟩ := p
    have hw := hs.received (.inl rfl) hreceived
    cases received with
    | error e => exact hw.fails (by simp)
    | ok m? =>
      cases m? with
      | none => exact hw
      | some m => exact ih (s := { s with world := w }) hw

theorem keeps_flush_tally {c : Call σ} (n : Nat) :
    Keeps (fun s => s.tally = d) (fun _ _ => True) (c.flush n) := by
  induction n with
  | zero => exact fun _ _ => trivial
  | succ n ih =>
    intro s hs
    rw [flush, ends_bind, receive, ends_bind, ends_act]
    generalize c.link.receive s.world = p
    obtain ⟨received, w⟩ := p
    cases received with
    | error e => trivial
    | ok m? =>
      cases m? with
      | none => exact hs
      | some m => exact ih { s with world := w } hs

theorem ends_prepare_stands (mode : Mode) {s : Session (σ × List Event)} (hw : s.world.2 = [])
    (hr : s.retries = c.config.retries.toNat) (hd : s.tally = {}) :
    Ends (c.traced.prepare mode) s (fun _ t => c.Stands k k.start {} t)
      fun e t => c.FailsAt k e t.world := by
  have hcourse : c.OnCourse k k.start s.world := by
    refine ⟨?_, ?_⟩
    · intro before e after hsplit
      rw [hw] at hsplit
      simp at hsplit
    · rw [hw]
      rfl
  have hflush : Ends (c.traced.prepare mode) s
      (fun _ t => c.OnCourse k k.start t.world ∧ t.tally = {})
      fun e t => c.FailsOnCourse k e t.world := by
    rw [prepare, ends_bind, note, ends_act]
    exact ((ends_flush_course c.patience (s := { s with world := _ }) (hcourse.noted _)).and
      (keeps_flush_tally _ _ hd)).mono (fun _ _ h => h) fun _ _ h => h.1
  exact ((ends_prepare_turn c mode hw hr).and hflush).mono (fun _ _ h => ⟨h.1, h.2.1, h.2.2⟩)
    fun _ _ h => ⟨h.1, h.2⟩

/-- Work that takes a call to the end of its course takes a whole transfer there. -/
theorem run_explained (mode : Mode) {work : Transfer (σ × List Event) α} {f : α → Value}
    (hwork : Carries (c.Stands k k.start {}) (c.FailsAt k) work fun a s =>
      ∃ d, c.Stands k ⟨[], .ended (f a)⟩ d s) (w : σ) :
    let (result, _, events) := c.traced.run mode work (w, [])
    k.Explains c.node.value c.target c.config c.direction events (result.map f) := by
  have hstart := ends_prepare_stands (c := c) (k := k) mode
    (s := c.traced.session mode (c.traced.link.resume (w, []))) rfl rfl rfl
  rw [run]
  unfold Ends at hstart
  generalize c.traced.prepare mode _ = p at hstart
  cases p with
  | error e s => exact hstart.explains
  | ok _ s =>
    have hworked := hwork s hstart
    unfold Ends at hworked
    dsimp only
    generalize work s = q at hworked
    cases q with
    | ok a t =>
      obtain ⟨d, ht⟩ := hworked
      exact ⟨(ht.course.noted _).obeyed, (ht.course.noted _).course⟩
    | error e t =>
      cases e with
      | failed e => exact (hworked.noted _).explains
      | unfinished => exact hworked.explains

end Call

theorem explained_of_perform {α : Type} (client : Client σ) {node : NodeId} {target : Address}
    {op : Operation} {direction : Direction} {mode : Mode} {k : Conduct S}
    {work : Transfer (σ × List Event) α} {f : α → Value} {w : σ}
    (hperform : client.traced.perform node.value target op (w, [])
      = Outcome.map f ((client.call node target direction).traced.run mode work (w, [])))
    (hwork : Carries ((client.call node target direction).Stands k k.start {})
      ((client.call node target direction).FailsAt k) work fun a s =>
        ∃ d, (client.call node target direction).Stands k ⟨[], .ended (f a)⟩ d s) :
    k.Explains node.value target client.config direction
      (client.observe node.value target op w).2 (client.perform node.value target op w).1 := by
  have hexplained := Call.run_explained mode hwork w
  rw [← client.observe_result, observe, hperform]
  exact hexplained

end Canopen.Client
