import Canopen.Proofs.Answers
import Canopen.Proofs.Reading
import Canopen.Proofs.RetryBudget
import Canopen.Script

/-!
How often a client has tried when it gives up, as the trace tells it. Outside of a stream it is how
often the unanswered request was sent. Within a stream the count begins anew with each segment,
whether that is taken or dropped, and does not begin anew when the request changes.
-/

set_option autoImplicit false

namespace Canopen.Client

open Can (Message TransportError)
open Sdo
open Transfer

variable {σ : Type}

/-- How the last frame came to be sent. -/
structure Streak where
  last : Option Message := none
  /-- How often it was sent in a row: once for itself, and again each time that the deadline had
  passed. -/
  count : Nat := 0
  /-- The deadline had passed already when it was sent for the first time. -/
  pressed : Bool := false
  heard : Bool := false

namespace Streak

/-- What a client tells of its attempts that has tried in vain. -/
def attempts (t : Streak) : Nat := if t.heard then 1 else t.count + t.pressed.toNat

/-- A frame is the same request again if it is sent because the deadline has passed and nothing has
come from the server. -/
def step (node : UInt8) (late : Bool) (t : Streak) : Act → Streak
  | .sent m _ =>
    if late = true ∧ t.last = some m ∧ t.heard = false then { t with count := t.count + 1 }
    else { last := some m, count := 1, pressed := late }
  | .received (.ok (some m)) =>
    if m.id = .std (0x580 + node.toUInt16) then { t with heard := true } else t
  | _ => t

variable {node : UInt8} {late : Bool} {t : Streak} {a : Act}

theorem step_of_not_sent (h : a.sent? = none) :
    (t.step node late a).last = t.last ∧ (t.step node late a).count = t.count := by
  unfold step
  split
  · cases h
  · split <;> exact ⟨rfl, rfl⟩
  · exact ⟨rfl, rfl⟩

theorem step_of_not_answer (hs : a.sent? = none) (ha : a.answer? node = none) :
    t.step node late a = t := by
  unfold step
  split
  · cases hs
  · split
    · rename_i hid
      simp [Act.answer?, hid] at ha
    · rfl
  · rfl

structure Sent (late : Bool) (t : Streak) (m : Message) (u : Streak) : Prop where
  last : u.last = some m
  heard : u.heard = false
  attempts : u.attempts = (if late then t.attempts else 0) + 1
  pressed : u.pressed = (late && (t.heard || t.pressed))

theorem step_sent {m : Message} (outcome : Except TransportError Unit)
    (h : late = true → t.heard = false → t.last = some m) :
    t.Sent late m (t.step node late (.sent m outcome)) := by
  cases late with
  | false => constructor <;> simp [step, attempts]
  | true =>
    cases hheard : t.heard with
    | true => constructor <;> simp [step, attempts, hheard]
    | false =>
      have hagain : t.step node true (.sent m outcome) = { t with count := t.count + 1 } :=
        if_pos ⟨rfl, h rfl hheard, hheard⟩
      rw [hagain]
      refine ⟨h rfl hheard, hheard, ?_, by simp [hheard]⟩
      simp only [attempts, hheard, Bool.false_eq_true, if_false, if_true]
      omega

/-- So many attempts were made, and no more than the retries allow that are not left. Outside of a
stream all of them were the same frame. -/
structure Tried (config : Config) (stream : Option Stream) (attempts : UInt32) (left : Nat)
    (t : Streak) : Prop where
  sent : ∃ m, t.last = some m
  number : attempts = UInt32.ofNat t.attempts
  within : t.attempts + left ≤ config.retries.toNat + 1
  plain : stream = none → t.heard = false ∧ t.pressed = false

end Streak

theorem Watch.step_last {config : Config} {node : UInt8} {direction : Direction} {v : Watch}
    {e : Event} (he : e.act.sent? = none) :
    (v.step config node direction e).last = v.last := by
  unfold step
  split
  · rename_i hact
    rw [hact] at he
    cases he
  · split
    · rfl
    · split
      · unfold take
        split
        · rfl
        · split <;> rfl
      · rfl
    · rfl
  · unfold note
    split <;> rfl
  · rfl

section
variable (config : Config) (node : UInt8) (direction : Direction)

/-- How the last frame of a trace came to be sent. What else is known tells whether the deadline has
passed. -/
def streak (events : List Event) : Streak :=
  (events.foldl (fun (p : Watch × Streak) e =>
    (p.1.step config node direction e, p.2.step node p.1.late e.act)) ({}, {})).2

theorem streak_append (events : List Event) (e : Event) :
    streak config node direction (events ++ [e])
      = (streak config node direction events).step node (watch config node direction events).late
        e.act := by
  have hwatch : ∀ events : List Event, (events.foldl (fun (p : Watch × Streak) e =>
      (p.1.step config node direction e, p.2.step node p.1.late e.act)) ({}, {})).1
        = watch config node direction events := by
    intro events
    induction events using List.reverseRecOn with
    | nil => rfl
    | append_singleton events e ih => rw [watch_append, ← ih, List.foldl_append]; rfl
  rw [← hwatch, streak, List.foldl_append]
  rfl

theorem replicate_suffix_sentFrames (events : List Event) {m : Message}
    (hm : (streak config node direction events).last = some m) :
    0 < (streak config node direction events).count ∧
      List.replicate (streak config node direction events).count m <:+ sentFrames events := by
  induction events using List.reverseRecOn with
  | nil => cases hm
  | append_singleton events e ih =>
    rw [streak_append] at hm ⊢
    cases he : e.act.sent? with
    | none =>
      obtain ⟨hlast, hcount⟩ := Streak.step_of_not_sent he
      rw [hlast] at hm
      rw [hcount, sentFrames_append_of_none he]
      exact ih hm
    | some m' =>
      rw [sentFrames_append, he, Option.toList_some]
      obtain ⟨act, time⟩ := e
      cases act with
      | sent m'' outcome =>
        cases he
        unfold Streak.step at hm ⊢
        dsimp only at hm ⊢
        split at hm
        · rename_i hagain
          rw [if_pos hagain]
          obtain rfl : m' = m := Option.some.inj (hagain.2.1.symm.trans hm)
          obtain ⟨-, front, hfront⟩ := ih hm
          refine ⟨Nat.succ_pos _, front, ?_⟩
          rw [← hfront, List.append_assoc, List.replicate_succ']
        · rename_i hfresh
          cases hm
          rw [if_neg hfresh]
          exact ⟨Nat.one_pos, List.suffix_append _ _⟩
      | _ => cases he

theorem streak_last (events : List Event) :
    (streak config node direction events).last = (watch config node direction events).last := by
  induction events using List.reverseRecOn with
  | nil => rfl
  | append_singleton events e ih =>
    rw [streak_append, watch_append]
    obtain ⟨act, time⟩ := e
    cases act with
    | sent m outcome =>
      show (Streak.step node _ _ (.sent m outcome)).last = some m
      unfold Streak.step
      dsimp only
      split
      · rename_i hagain
        exact hagain.2.1
      · rfl
    | _ => exact (Streak.step_of_not_sent rfl).1.trans (ih.trans (Watch.step_last rfl).symm)

end

namespace Call

variable (c : Call σ)

def tries (w : σ × List Event) : Streak := streak c.config c.node.value c.direction w.2

abbrev Tried (attempts : UInt32) (left : Nat) (w : σ × List Event) : Prop :=
  (c.tries w).Tried c.config (c.seen w).stream attempts left

def Tells (e : Stop) (w : σ × List Event) : Prop := ∀ k, e = .failed (.timeout k) → c.Tried k 0 w

/-- What is sent again if nothing has come is what was sent last. -/
def Owes (request : Request) (s : Session (σ × List Event)) : Prop :=
  (c.tries s.world).heard = false →
    (c.tries s.world).last
      = some ((if 0 < s.seqno then c.acknowledgement s.seqno else request).message c.node)

end Call

section
variable {c : Call σ} {stream : Option Stream} {w v : σ × List Event}
  {s : Session (σ × List Event)}

theorem Watch.note_stream (config : Config) (v : Watch) (time : Nat) :
    (v.note config time).stream = v.stream := by
  unfold note
  split <;> rfl

theorem Call.tries_note (w : σ × List Event) (r : Record) :
    c.tries (c.traced.link.note r w) = c.tries w :=
  (streak_append ..).trans (Streak.step_of_not_answer rfl rfl)

theorem Call.tries_sleep (w : σ × List Event) (t : Nat) :
    c.tries (c.traced.link.sleep t w) = c.tries w :=
  (streak_append ..).trans (Streak.step_of_not_answer rfl rfl)

theorem Call.tries_receive {outcome : Except TransportError (Option Message)}
    (hw : c.traced.link.receive w = (outcome, v)) :
    c.tries v = (c.tries w).step c.node.value (c.seen w).late (.received outcome) := by
  rw [Call.tries, Link.traced_receive hw]
  exact streak_append ..

theorem Call.Tried.noted {attempts : UInt32} {left : Nat} (h : c.Tried attempts left w)
    (r : Record) : c.Tried attempts left (c.traced.link.note r w) := by
  rw [Call.Tried, Call.tries_note, Call.seen_note, Watch.note_stream]
  exact h

theorem Call.tells_of_ne {e : Stop} (he : ∀ k, e ≠ .failed (.timeout k)) (w : σ × List Event) :
    c.Tells e w :=
  fun k hk => absurd hk (he k)

theorem ends_abandon_tells {α : Type} {code : AbortCode} {e : Error}
    (he : e.abortCode? = some code.code) (s : Session (σ × List Event)) :
    Ends (c.traced.abandon code e : Transfer _ α) s (fun _ _ => False)
      fun e t => c.Tells e t.world := by
  refine (Call.ends_abandon_of_preserves c.traced.link.preserves_true trivial code e).mono
    (fun _ _ h => h) ?_
  rintro _ t ⟨rfl, -⟩
  refine Call.tells_of_ne (fun k hk => ?_) _
  cases hk
  cases he

theorem ends_malformed_tells {α : Type} (e : ParseError) (s : Session (σ × List Event)) :
    Ends (c.traced.malformed e : Transfer _ α) s (fun _ _ => False)
      fun e t => c.Tells e t.world := by
  refine (Call.ends_malformed_of_preserves c.traced.link.preserves_true trivial e).mono
    (fun _ _ h => h) ?_
  rintro _ t ⟨rfl, -⟩
  exact Call.tells_of_ne (by simp) _

theorem ends_sendMessage_tries {late : Bool} {m : Message}
    (hsound : (c.seen s.world).Sound c.config c.node.value)
    (hlate : (c.seen s.world).late = late)
    (hm : late = true → (c.tries s.world).heard = false → (c.tries s.world).last = some m) :
    Ends (c.traced.sendMessage m) s
      (fun _ t => (c.tries s.world).Sent late m (c.tries t.world) ∧ t.retries = s.retries ∧
        t.seqno = s.seqno)
      fun e t => c.Tells e t.world := by
  simp only [Call.sendMessage, Call.trySend, Call.note, ends_bind, ends_act]
  have hnoted := Call.seen_note_of_sound hsound ⟨.trace, s!"SDO tx: {m}"⟩
  have htries := Call.tries_note (c := c) s.world ⟨.trace, s!"SDO tx: {m}"⟩
  generalize c.traced.link.note _ s.world = w at hnoted htries
  generalize hsent : c.traced.link.send m w = p
  obtain ⟨outcome, v⟩ := p
  cases outcome with
  | error e => exact Call.tells_of_ne (by simp) _
  | ok _ =>
    have hstep : c.tries v = (c.tries w).step c.node.value (c.seen w).late (.sent m (.ok ())) := by
      rw [Call.tries, Link.traced_send hsent]
      exact streak_append ..
    refine ⟨?_, rfl, rfl⟩
    show (c.tries s.world).Sent late m (c.tries v)
    rw [hstep, hnoted, hlate, htries]
    exact Streak.step_sent _ hm

theorem ends_nextMessage_tries (s : Session (σ × List Event)) :
    Ends c.traced.nextMessage s
      (fun received t => t.retries = s.retries ∧ t.seqno = s.seqno ∧
        c.tries t.world = { c.tries s.world with
          heard := received.isSome || (c.tries s.world).heard })
      fun e t => c.Tells e t.world := by
  refine Call.ends_poll_of_looks (c := c.traced) (K := c.Tells)
    (W := fun _ t => t.retries = s.retries ∧ t.seqno = s.seqno ∧
      c.tries t.world = c.tries s.world) ?_ ?_ ?_ ?_ ?_ ?_ c.patience ⟨rfl, rfl, rfl⟩
  · rintro - t -
    refine (Call.ends_cancel_of_preserves c.traced.link.preserves_true trivial).mono
      (fun _ _ h => h.elim) ?_
    rintro _ u ⟨rfl, -⟩
    exact Call.tells_of_ne (by simp) _
  · exact fun t _ => Call.tells_of_ne (by simp) _
  · exact fun _ t e w _ _ => Call.tells_of_ne (by simp) _
  · rintro - t w ⟨hretries, hseqno, ht⟩ hw
    have hsame : c.tries w = c.tries s.world :=
      (Call.tries_receive hw).trans ((Streak.step_of_not_answer rfl rfl).trans ht)
    split
    · exact ⟨hretries, hseqno, hsame⟩
    · exact ⟨hretries, hseqno, (Call.tries_sleep ..).trans hsame⟩
  · rintro - t m w ⟨hretries, hseqno, ht⟩ hw hid
    have hid' : m.id ≠ .std (0x580 + c.node.value.toUInt16) := hid
    have hsame : c.tries w = c.tries s.world :=
      (Call.tries_receive hw).trans ((if_neg hid').trans ht)
    have hnoted := (Call.tries_note w ⟨.trace, s!"Ignoring {m}"⟩).trans hsame
    dsimp only
    split
    · exact ⟨hretries, hseqno, hnoted⟩
    · exact ⟨hretries, hseqno, hnoted⟩
  · rintro - t m w ⟨hretries, hseqno, ht⟩ hw hid
    have hid' : m.id = .std (0x580 + c.node.value.toUInt16) := hid
    have hheard : c.tries w = { c.tries s.world with heard := true } := by
      rw [Call.tries_receive hw, ht]
      exact if_pos hid'
    exact ⟨hretries, hseqno, (Call.tries_note ..).trans hheard⟩

theorem ends_readResponse_tells (m : Message) (s : Session (σ × List Event)) :
    Ends (c.traced.readResponse m) s (fun _ _ => True) fun e t => c.Tells e t.world := by
  rw [Call.readResponse]
  split
  · exact (ends_malformed_tells _ s).mono (fun _ _ h => h.elim) fun _ _ he => he
  · exact Call.tells_of_ne (by simp) _
  · trivial

theorem ends_readResponse_abort {m : Message} (hid : m.id = c.node.responseId)
    (hhead : m.data.get 0 = 0x80) (s : Session (σ × List Event)) :
    Ends (c.traced.readResponse m) s (fun _ _ => False) fun e t => c.Tells e t.world := by
  rw [Call.readResponse]
  by_cases hdlc : m.dlc = 8
  · rw [Response.ofMessage_abort hid hdlc hhead]
    exact Call.tells_of_ne (by simp) _
  · rw [Response.ofMessage_of_dlc hdlc]
    exact ends_malformed_tells _ s

theorem Call.Tried.ends_takeRetry {attempts : UInt32} (hs : c.Tried attempts s.retries s.world) :
    Ends (c.traced.takeRetry attempts) s
      (fun _ t => c.tries t.world = c.tries s.world ∧ t.retries + 1 = s.retries ∧
        t.seqno = s.seqno)
      fun e t => c.Tells e t.world := by
  rw [Call.takeRetry, ends_bind, ends_get]
  cases hretries : s.retries with
  | zero =>
    rw [hretries] at hs
    rintro _ ⟨⟩
    exact hs.noted _
  | succ left => exact ⟨Call.tries_note .., rfl, rfl⟩

theorem Streak.Sent.first {t : Streak} {m : Message} {stream : Option Stream}
    (h : t.Sent false m (c.tries s.world)) (hs : c.Turn stream false 0 s) :
    c.Tried 1 s.retries s.world where
  sent := ⟨m, h.last⟩
  number := by rw [h.attempts]; rfl
  within := by
    have hattempts := h.attempts
    have hcount := hs.count
    simp only [Bool.false_eq_true, if_false] at hattempts
    omega
  plain _ := ⟨h.heard, by rw [h.pressed, Bool.false_and]⟩

theorem Streak.Sent.again {t : Session (σ × List Event)} {attempts : UInt32} {m : Message}
    (h : (c.tries s.world).Sent true m (c.tries t.world))
    (hs : c.Tried attempts s.retries s.world) (hretries : t.retries + 1 = s.retries)
    (hplain : (c.seen t.world).stream = none → (c.seen s.world).stream = none) :
    c.Tried (attempts + 1) t.retries t.world where
  sent := ⟨m, h.last⟩
  number := by
    rw [h.attempts, hs.number, if_pos rfl, UInt32.ofNat_add]
    rfl
  within := by
    have hattempts := h.attempts
    have hwithin := hs.within
    simp only [if_true] at hattempts
    omega
  plain hstream := by
    obtain ⟨hheard, hpressed⟩ := hs.plain (hplain hstream)
    exact ⟨h.heard, by rw [h.pressed, hheard, hpressed]; rfl⟩

theorem Call.Tried.of_heard (hheard : (c.tries s.world).heard = true)
    (hsent : ∃ m, (c.tries s.world).last = some m) {st : Stream}
    (hs : c.Turn (some st) false 0 s) : c.Tried 1 s.retries s.world where
  sent := hsent
  number := by rw [Streak.attempts, if_pos hheard]; rfl
  within := by
    have hcount := hs.count
    rw [Streak.attempts, if_pos hheard]
    omega
  plain hstream := by rw [hs.stream] at hstream; cases hstream

theorem Call.Tried.of_tries {attempts : UInt32} (h : c.Tried attempts s.retries s.world)
    {t : Session (σ × List Event)} (htries : c.tries t.world = c.tries s.world)
    (hretries : t.retries = s.retries)
    (hstream : (c.seen t.world).stream = none → (c.seen s.world).stream = none) :
    c.Tried attempts t.retries t.world := by
  obtain ⟨hsent, hnumber, hwithin, hplain⟩ := h
  rw [← htries] at hsent hnumber hwithin hplain
  exact ⟨hsent, hnumber, hretries ▸ hwithin, fun h => hplain (hstream h)⟩

theorem Call.Tried.ends_retry {attempts : UInt32} (hs : c.Tried attempts s.retries s.world)
    (hturn : c.Turn stream true 0 s) :
    Ends (c.traced.takeRetry attempts) s
      (fun _ t => t.seqno = s.seqno ∧ ∀ m,
        ((c.tries s.world).heard = false → (c.tries s.world).last = some m) →
        Ends (c.traced.sendMessage m) t
          (fun _ u => (c.tries s.world).Sent true m (c.tries u.world) ∧
            u.retries + 1 = s.retries ∧ u.seqno = s.seqno)
          fun e u => c.Tells e u.world)
      fun e t => c.Tells e t.world := by
  refine ((ends_takeRetry_turn attempts hturn).and hs.ends_takeRetry).mono (fun _ t ht => ?_)
    fun _ _ he => he.2
  obtain ⟨⟨hturn', -⟩, htries, hretries, hseqno⟩ := ht
  refine ⟨hseqno, fun m hm => ?_⟩
  rw [← htries] at hm ⊢
  refine (ends_sendMessage_tries hturn'.sound hturn'.late fun _ => hm).mono (fun _ u hu => ?_)
    fun _ _ he => he
  obtain ⟨hsent, hretries', hseqno'⟩ := hu
  exact ⟨hsent, by rw [hretries', hretries], hseqno'.trans hseqno⟩

theorem keeps_ask_tells {m : Message} (hm : c.Plain m) :
    Keeps (c.Turn none false 0) c.Tells (do
      c.traced.sendMessage m
      c.traced.await (c.traced.sendMessage m)) := by
  intro s hs
  rw [ends_bind]
  refine ((ends_sendMessage_asks hm hs).and
    (ends_sendMessage_tries hs.sound hs.late (by simp))).mono (fun _ t ht => ?_) fun _ _ he => he.2
  obtain ⟨hasks, hsent, -⟩ := ht
  rw [Call.await, ends_bind, ends_get]
  refine Call.ends_awaitRounds_of_attempts (c := c.traced) (K := c.Tells)
    (W := fun attempts _ t => c.Asks m t ∧ c.Tried attempts t.retries t.world)
    (L := fun attempts _ t => c.Missed m t ∧ c.Tried attempts t.retries t.world)
    (M := c.Heard none) ?_ ?_ ?_ ?_ ⟨hasks, hsent.first hasks.toTurn⟩
  · exact fun _ t _ => Call.tells_of_ne (by simp) _
  · rintro attempts - t ⟨hasks, ht⟩
    refine ((ends_nextMessage_asks hasks).and (ends_nextMessage_tries t)).mono
      (fun received u hu => ?_) fun _ _ he => he.2
    obtain ⟨hduly, hretries, -, htries⟩ := hu
    cases received with
    | none => exact ⟨hduly, ht.of_tries htries hretries fun _ => hasks.stream⟩
    | some m' => exact hduly
  · intro m' t hheard
    exact ((ends_readResponse_heard hheard).and (ends_readResponse_tells m' t)).mono
      (fun _ _ hu => hu.1) fun _ _ he => he.2
  · rintro attempts - t ⟨hmissed, ht⟩
    have hlast : (c.tries t.world).last = some m := (streak_last ..).trans hmissed.last
    have hresends : Ends (c.traced.takeRetry attempts >>= fun _ => c.traced.sendMessage m) t
        (fun _ u => (c.tries t.world).Sent true m (c.tries u.world) ∧ u.retries + 1 = t.retries ∧
          u.seqno = t.seqno)
        fun e u => c.Tells e u.world := by
      rw [ends_bind]
      exact (ht.ends_retry hmissed.toTurn).mono (fun _ _ hu => hu.2 m fun _ => hlast)
        fun _ _ he => he
    refine ((ends_retry_missed hm attempts hmissed).and hresends).mono (fun _ u hu => ?_)
      fun _ _ he => he.2
    obtain ⟨hasks, hsent, hretries, -⟩ := hu
    exact ⟨hasks, hsent.again ht hretries fun _ => hmissed.stream⟩

theorem ends_readSegment_tells (m : Message) (s : Session (σ × List Event)) :
    Ends (c.traced.readSegment m) s (fun _ _ => True) fun e t => c.Tells e t.world := by
  rw [Call.readSegment]
  split
  · exact (ends_malformed_tells _ s).mono (fun _ _ h => h.elim) fun _ _ he => he
  · split
    · exact (ends_abandon_tells rfl s).mono (fun _ _ h => h.elim) fun _ _ he => he
    · trivial

theorem ends_takeSegment_tries (segment : BlockSegment) (hs : c.InTime s.world) :
    Ends (c.traced.takeSegment segment) s
      (fun _ t => c.InTime t.world ∧ c.tries t.world = c.tries s.world) fun _ _ => False := by
  rw [Call.takeSegment, ends_bind, ends_get]
  dsimp only
  split
  · exact ⟨hs, rfl⟩
  · exact ⟨(preserves_inTime c).note hs _, Call.tries_note ..⟩

theorem ends_acknowledge_tries (hs : c.InTime s.world) :
    Ends c.traced.acknowledge s
      (fun request t =>
        (c.tries s.world).Sent false (request.message c.node) (c.tries t.world) ∧
          c.Owes request t)
      fun e t => c.Tells e t.world := by
  refine Call.ends_acknowledge_of_send fun text => ?_
  have hnoted := (preserves_inTime c).note hs ⟨.debug, text⟩
  refine (ends_sendMessage_tries (m := (c.acknowledgement s.seqno).message c.node) hnoted.1
    hnoted.2 (by simp)).mono (fun _ t ht => ?_) fun _ _ he => he
  obtain ⟨hsent, -, hseqno⟩ := ht
  rw [Call.tries_note] at hsent
  refine ⟨hsent, fun _ => ?_⟩
  have hseqno : t.seqno = s.seqno := hseqno
  by_cases hall : s.seqno = c.traced.config.blockSize
  · simp only [if_pos hall]
    exact hsent.last
  · simp only [if_neg hall, hseqno]
    split <;> exact hsent.last

/-- Each segment begins the count anew, and so does what tells the server of a block. -/
theorem ends_segment_tells (hb : 0 < c.config.blockSize.toNat) {request : Request} {m : Message}
    (hhears : c.Hears request m s) (hheard : (c.tries s.world).heard = true)
    (hsent : ∃ m, (c.tries s.world).last = some m) :
    Ends (c.traced.readSegment m) s
      (fun segment t => Ends (c.traced.takeSegment segment) t
        (fun inOrder u =>
          if (inOrder && segment.last) = true then c.Turn none false 0 u
          else if segment.seqno = c.config.blockSize ∨ segment.last = true then
            Ends c.traced.acknowledge u
              (fun request v => c.Streams request v ∧ c.Tried 1 v.retries v.world ∧
                c.Owes request v)
              fun e v => c.Tells e v.world
          else c.Streams request u ∧ c.Tried 1 u.retries u.world ∧ c.Owes request u)
        fun e u => c.Tells e u.world)
      fun e t => c.Tells e t.world := by
  have hinTime : c.InTime s.world := by
    obtain ⟨st, hst, -⟩ := id hhears
    exact hst.inTime
  refine ends_segment_beside hb hhears (R := fun _ => True)
    (P := fun _ u => c.InTime u.world ∧ c.tries u.world = c.tries s.world)
    ((ends_readSegment_tells m s).mono (fun _ _ h => h) fun _ _ he _ => he)
    (fun _ => (ends_takeSegment_tries _ hinTime).mono (fun _ _ h => h) fun _ _ he => he.elim)
    (fun _ _ _ _ h => h) ?_ ?_
  · rintro - u ⟨hinTime', -⟩ - -
    refine (ends_acknowledge_tries hinTime').mono (fun request v hv hstreams => ?_)
      fun _ _ he _ => he
    obtain ⟨hfirst, howes⟩ := hv
    obtain ⟨st, hst, -⟩ := id hstreams
    exact ⟨hstreams, hfirst.first hst.toTurn, howes⟩
  · rintro - u ⟨-, htries⟩ - - hgoes
    obtain ⟨st, hst, -⟩ := id hgoes
    rw [← htries] at hheard hsent
    exact ⟨hgoes, .of_heard hheard hsent hst.toTurn, fun h => by rw [hheard] at h; cases h⟩

theorem ends_receiveBlocks_tells (hb : 0 < c.config.blockSize.toNat) {attempts : UInt32} {n : Nat}
    {request : Request} (hstreams : c.Streams request s)
    (hs : c.Tried attempts s.retries s.world) (howes : c.Owes request s) :
    Ends (c.traced.receiveBlocks request attempts n) s (fun _ t => c.Turn none false 0 t)
      fun e t => c.Tells e t.world := by
  -- The stream, the attempts and what is owed are followed side by side.
  refine Call.ends_receiveBlocks_of_attempts (c := c.traced) (K := c.Tells)
    (W := fun attempts _ request t =>
      c.Streams request t ∧ c.Tried attempts t.retries t.world ∧ c.Owes request t)
    (L := fun attempts _ request t =>
      c.Starves request t ∧ c.Tried attempts t.retries t.world ∧ c.Owes request t)
    (M := fun _ _ request m t => c.Hears request m t ∧ (c.tries t.world).heard = true ∧
      ∃ m, (c.tries t.world).last = some m)
    ?_ ?_ ?_ ?_ ?_ ⟨hstreams, hs, howes⟩
  · exact fun _ _ t _ => Call.tells_of_ne (by simp) _
  · rintro attempts - request s ⟨hstreams, hs, howes⟩
    obtain ⟨st, hst, -⟩ := id hstreams
    refine ((ends_nextMessage_stream hstreams).and (ends_nextMessage_tries s)).mono
      (fun received t ht => ?_) fun _ _ he => he.2
    obtain ⟨hduly, hretries, hseqno, htries⟩ := ht
    cases received with
    | none =>
      obtain ⟨st', hst', -⟩ := id hduly
      have hstream : (c.seen t.world).stream ≠ none := by simp [hst'.stream]
      refine ⟨hduly, hs.of_tries htries hretries fun h => absurd h hstream, ?_⟩
      have htries : c.tries t.world = c.tries s.world := htries
      unfold Call.Owes
      rw [htries, hseqno]
      exact howes
    | some m => exact ⟨hduly, by rw [htries]; rfl, by rw [htries]; exact hs.sent⟩
  · rintro attempts - request s ⟨hstarves, hs, howes⟩
    obtain ⟨st, hst, -⟩ := id hstarves
    refine ((ends_retry_stream attempts hstarves).and (hs.ends_retry hst)).mono
      (fun _ t ht => ?_) fun _ _ he => he.2
    obtain ⟨⟨-, hresends⟩, hseqno, hsends⟩ := ht
    rw [Call.Owes, ← hseqno] at howes
    refine (hresends.and (hsends _ howes)).mono (fun _ u hu => ?_) fun _ _ he => he.2
    obtain ⟨hstreams, hsent, hretries, hseqno'⟩ := hu
    obtain ⟨st', hst', -⟩ := id hstreams
    have hstream : (c.seen u.world).stream ≠ none := by simp [hst'.stream]
    refine ⟨hstreams, hsent.again hs hretries fun h => absurd h hstream, fun _ => ?_⟩
    have hlast := hsent.last
    have hsame : u.seqno = t.seqno := hseqno'.trans hseqno.symm
    rw [hlast, hsame]
    split <;> rfl
  · rintro attempts - request m s ⟨⟨st, hst, -⟩, -⟩ hhead
    exact (ends_readResponse_abort hst.id hhead s).mono (fun _ _ h => h.elim) fun _ _ he => he
  · exact fun _ _ request m s hs _ => ends_segment_tells hb hs.1 hs.2.1 hs.2.2

theorem upholds_tells (hb : 0 < c.config.blockSize.toNat) :
    c.traced.Upholds (c.Turn none false 0) (fun _ => True) c.Tells where
  adjust h hw hr _ := h.adjust hw hr
  note _ _ _ hs := hs.noted _
  tell m hm s hs :=
    (((upholds_turn c hb).tell m hm s hs).and
      (ends_sendMessage_tries hs.sound hs.late (by simp))).mono (fun _ _ ht => ht.1)
      fun _ _ he => he.2
  ask _ hm := keeps_ask_tells hm
  stream hu := by
    intro s hs
    rw [ends_bind]
    refine ((ends_start_stream (c := c) hu hb hs).and
      (ends_sendMessage_tries (c := c) hs.sound hs.late (by simp))).mono (fun _ t ht => ?_)
      fun _ _ he => he.2
    obtain ⟨hstreams, hsent, -⟩ := ht
    obtain ⟨st, hst, -⟩ := id hstreams
    exact ends_receiveBlocks_tells (s := { t with seqno := 0 }) hb hstreams
      (hsent.first (hst.toTurn.adjust rfl rfl)) fun _ => hsent.last
  abandon _ _ he s _ := (ends_abandon_tells he s).mono (fun _ _ h => h.elim) fun _ _ he => he
  unfinished _ := Call.tells_of_ne (by simp) _
  done _ _ := trivial
  failed h _ k hk := (h k hk).noted _

theorem ends_flush_tells (n : Nat) (s : Session (σ × List Event)) :
    Ends (c.traced.flush n) s (fun _ _ => True) fun e t => c.Tells e t.world := by
  induction n generalizing s with
  | zero => exact Call.tells_of_ne (by simp) _
  | succ n ih =>
    rw [Call.flush, ends_bind, Call.receive, ends_bind, ends_act]
    generalize c.traced.link.receive s.world = p
    obtain ⟨received, w⟩ := p
    cases received with
    | error e => exact Call.tells_of_ne (by simp) _
    | ok m? =>
      cases m? with
      | none => trivial
      | some m => exact ih _

theorem ends_prepare_tells (mode : Mode) (s : Session (σ × List Event)) :
    Ends (c.traced.prepare mode) s (fun _ _ => True) fun e t => c.Tells e t.world := by
  rw [Call.prepare, ends_bind, Call.note, ends_act]
  exact ends_flush_tells _ _

end

theorem leaves_tried (client : Client σ) (node : UInt8) (target : Address) (op : Operation)
    (w : σ) :
    Leaves (fun _ => True)
      (fun e w => ∀ k, e = .failed (.timeout k) →
        (streak client.config node op.direction w.2).Tried client.config
          (watch client.config node op.direction w.2).stream k 0)
      (client.traced.perform node target op (w, [])) := by
  refine perform_leaves (I := fun n => (client.call n target op.direction).Turn none false 0)
    ?_ ?_ ?_ ?_
  · rintro n rfl
    exact upholds_tells (c := client.call n target op.direction)
      (Config.blockSize_of_valid client.valid).1
  · rintro n rfl mode
    let c := client.call n target op.direction
    exact ((ends_prepare_turn c mode rfl rfl).and (ends_prepare_tells (c := c) mode _)).mono
      (fun _ _ ht => ht.1) fun _ _ he => he.2
  · rintro _ he k ⟨⟩
    exact he.elim
  · rintro _ _ he - k ⟨⟩
    exact he.elim

/-- A client that gives up when its time is over tells how often it has sent the last frame, as long
as it is not in a stream. There the count begins anew with each segment, even if that is dropped,
and is one too many for a frame that the deadline first called for. -/
theorem timeout_tells_attempts (client : Client σ) (node : UInt8) (target : Address)
    (op : Operation) (w : σ) (k : UInt32)
    (h : (client.perform node target op w).1 = .error (.failed (.timeout k))) :
    let events := (client.observe node target op w).2
    let t := streak client.config node op.direction events
    ∃ m, t.last = some m ∧ 0 < t.count ∧ List.replicate t.count m <:+ sentFrames events ∧
      k = UInt32.ofNat t.attempts ∧ t.attempts ≤ client.config.retries.toNat + 1 ∧
      ((watch client.config node op.direction events).stream = none → t.attempts = t.count) := by
  have hleaves := leaves_tried client node target op w
  rw [← client.observe_result, observe] at h
  intro events t
  generalize ho : client.traced.perform node target op (w, []) = o at h hleaves
  obtain ⟨result, v, events'⟩ := o
  obtain rfl : events = events' := congrArg (fun o => o.2.2) ho
  obtain rfl : result = .error (.failed (.timeout k)) := h
  obtain ⟨⟨m, hm⟩, hnumber, hwithin, hplain⟩ := hleaves k rfl
  obtain ⟨hpos, hsuffix⟩ := replicate_suffix_sentFrames client.config node op.direction events hm
  refine ⟨m, hm, hpos, hsuffix, hnumber, hwithin, fun hstream => ?_⟩
  obtain ⟨hheard, hpressed⟩ := hplain hstream
  simp [Streak.attempts, t, hheard, hpressed]

theorem timeout_tells_attempts_to_silence :
    let client : Client (Script TransportError) :=
      { link := Script.link, config := { timeoutMs := 1, retries := 2 }, valid := by decide
        patience := 10 }
    let request := (Request.initiateUpload ⟨0x2000, 0⟩).message ⟨5, by decide, by decide⟩
    let events := (client.observe 5 ⟨0x2000, 0⟩ .upload {}).2
    let t := streak client.config 5 .upload events
    (client.perform 5 ⟨0x2000, 0⟩ .upload {}).1 = .error (.failed (.timeout 3)) ∧
      (watch client.config 5 .upload events).stream = none ∧ t.last = some request ∧
      t.count = 3 ∧ List.replicate 3 request <:+ sentFrames events := by
  intro client request events t
  have hresult : (client.perform 5 ⟨0x2000, 0⟩ .upload {}).1 = .error (.failed (.timeout 3)) := by
    decide +kernel
  have hstream : (watch client.config 5 .upload events).stream = none := by decide +kernel
  have hrequest : t.last = some request := by decide +kernel
  obtain ⟨m, hm, -, hsuffix, hnumber, hwithin, hplain⟩ :=
    timeout_tells_attempts client 5 ⟨0x2000, 0⟩ .upload {} 3 hresult
  obtain rfl : request = m := Option.some.inj (hrequest.symm.trans hm)
  have hcount : t.count = 3 := by
    have hwithin : t.attempts ≤ 3 := hwithin
    have hnumber : (3 : UInt32).toNat = (UInt32.ofNat t.attempts).toNat := congrArg _ hnumber
    rw [UInt32.toNat_ofNat_of_lt' (Nat.lt_of_le_of_lt hwithin (by decide))] at hnumber
    exact (hplain hstream).symm.trans hnumber.symm
  exact ⟨hresult, hstream, hrequest, hcount, hcount ▸ hsuffix⟩

/-- When nothing more comes after the first segment the client acknowledges that one. It does so
once, and tells of two attempts. -/
theorem attempts_overstated_behind_segment :
    let client : Client (Script TransportError) :=
      { link := Script.link, config := { timeoutMs := 1, retries := 1 }, valid := by decide
        patience := 10 }
    let confirmation := (Response.confirmBlockUpload true true ⟨0x2000, 0⟩ 14).message
      ⟨5, by decide, by decide⟩
    let segment : Message :=
      { id := .std 0x585, data := #v[1, 1, 2, 3, 4, 5, 6, 7], dlc := 8, rtr := false }
    let w : Script TransportError :=
      { replies := [.ok [.event (.frame confirmation) 0 1], .ok [.event (.frame segment) 0 1]] }
    (client.perform 5 ⟨0x2000, 0⟩ .uploadBlock w).1 = .error (.failed (.timeout 2)) ∧
      ∃ before m, sentFrames (client.observe 5 ⟨0x2000, 0⟩ .uploadBlock w).2 = before ++ [m] ∧
        m ∉ before := by
  intro client confirmation segment w
  let opening := (Request.initiateBlockUpload true ⟨0x2000, 0⟩ 127 64).message
    ⟨5, by decide, by decide⟩
  have hresult : (client.perform 5 ⟨0x2000, 0⟩ .uploadBlock w).1
      = .error (.failed (.timeout 2)) := by decide +kernel
  have hsent : sentFrames (client.observe 5 ⟨0x2000, 0⟩ .uploadBlock w).2
      = [opening, startFrame 5] ++ [acknowledgementFrame 5 127 1] := by decide +kernel
  exact ⟨hresult, _, _, hsent, by decide⟩

end Canopen.Client
