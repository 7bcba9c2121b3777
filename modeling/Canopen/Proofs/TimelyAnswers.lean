import Canopen.Proofs.SteadyStreams
import Canopen.Proofs.TerminalFrames

/-!
What becomes of an answer that is there in time. A client that looks for it and finds nothing has
not overlooked it. But when a look at or behind the deadline takes a frame of somebody else the
client waits no longer, and what stands behind that frame is left for later.
-/

set_option autoImplicit false

namespace Canopen

open Can (Message TransportError)

namespace Script

variable {id : Can.Id} {deadline : Nat} {queue : List (Nat × Event)}

/-- A frame with this ID became ready before the deadline and is still to be taken, and so is all
that stands before it. -/
def Overlooks (id : Can.Id) (deadline : Nat) (queue : List (Nat × Event)) : Prop :=
  ∃ front ready m back, queue = front ++ (ready, .frame m) :: back ∧ m.id = id ∧
    ready < deadline ∧ ∀ entry ∈ front, entry.1 < deadline

theorem not_overlooks_of_head (h : ∀ entry ∈ queue.head?, deadline ≤ entry.1) :
    ¬ Overlooks id deadline queue := by
  rintro ⟨front, ready, m, back, rfl, -, hready, hfront⟩
  cases front with
  | nil => exact Nat.not_lt.mpr (h (ready, .frame m) rfl) hready
  | cons entry front => exact Nat.not_lt.mpr (h entry rfl) (hfront entry List.mem_cons_self)

abbrev Framed (s : Script TransportError) : Prop := ∀ entry ∈ s.queue, ∃ m, entry.2 = .frame m

theorem Framed.nothing {s v : Script TransportError} (h : s.Framed)
    (hv : s.receive = (.ok none, v)) :
    v.queue = s.queue ∧ ∀ entry ∈ v.queue.head?, v.now ≤ entry.1 := by
  by_cases hnil : s.queue = []
  · obtain ⟨-, rfl⟩ := Prod.mk.inj ((receive_of_nil hnil).symm.trans hv)
    exact ⟨rfl, by simp [hnil]⟩
  · obtain ⟨⟨ready, e⟩, rest, hqueue⟩ := List.exists_cons_of_ne_nil hnil
    obtain ⟨m, rfl⟩ : ∃ m, e = .frame m := h (ready, e) (hqueue ▸ List.mem_cons_self)
    have hreceive := (receive_frame hqueue).symm.trans hv
    dsimp only at hreceive
    split at hreceive
    · cases (Prod.mk.inj hreceive).1
    · rename_i hwaits
      obtain ⟨-, rfl⟩ := Prod.mk.inj hreceive
      refine ⟨rfl, ?_⟩
      rintro entry hentry
      obtain rfl : (ready, .frame m) = entry := by simpa [hqueue] using hentry
      exact Nat.le_of_not_le hwaits

theorem Framed.taken {s v : Script TransportError} {m : Message} (h : s.Framed)
    (hv : s.receive = (.ok (some m), v)) : ∃ ready, s.queue = (ready, .frame m) :: v.queue := by
  by_cases hnil : s.queue = []
  · cases (Prod.mk.inj ((receive_of_nil hnil).symm.trans hv)).1
  · obtain ⟨⟨ready, e⟩, rest, hqueue⟩ := List.exists_cons_of_ne_nil hnil
    obtain ⟨m', rfl⟩ : ∃ m, e = .frame m := h (ready, e) (hqueue ▸ List.mem_cons_self)
    have hreceive := (receive_frame hqueue).symm.trans hv
    dsimp only at hreceive
    split at hreceive
    · obtain ⟨hm, rfl⟩ := Prod.mk.inj hreceive
      cases hm
      exact ⟨ready, hqueue⟩
    · cases (Prod.mk.inj hreceive).1

end Script

namespace Client

open Transfer

/-- The last look at the receiver found this, and then the clock showed this time. -/
def LastLook (found : Except TransportError (Option Message)) (time : Nat) (events : List Event) :
    Prop :=
  ∃ before after, events = before ++ ⟨.received found, time⟩ :: after ∧
    ∀ e ∈ after, ¬ e.act.Receives

theorem lastLook_append (events : List Event) (found : Except TransportError (Option Message))
    (time : Nat) : LastLook found time (events ++ [⟨.received found, time⟩]) :=
  ⟨events, [], rfl, by simp⟩

theorem LastLook.append {found : Except TransportError (Option Message)} {time : Nat}
    {events : List Event} (h : LastLook found time events) {e : Event} (he : ¬ e.act.Receives) :
    LastLook found time (events ++ [e]) := by
  obtain ⟨before, after, rfl, hafter⟩ := h
  refine ⟨before, after ++ [e], by simp, ?_⟩
  simpa [or_imp, forall_and] using ⟨hafter, he⟩

namespace Call

variable (c : Call (Script TransportError))

/-- From such a queue the client has taken only frames of others, until it is such a queue. -/
def Skips (queue left : List (Nat × Script.Event)) : Prop :=
  ∃ taken, queue = taken ++ left ∧
    ∀ entry ∈ taken, ∃ m, entry.2 = .frame m ∧ m.id ≠ c.node.responseId

/-- How a wait ends without a message: at the deadline or behind it, when a look has found nothing,
so that nothing was overlooked, or when it has taken a frame of somebody else. -/
structure LeavesOff (queue : List (Nat × Script.Event)) (deadline : Nat) (events : List Event)
    (s : Script TransportError) : Prop where
  skips : c.Skips queue s.queue
  late : deadline ≤ s.now
  look : (∃ m, LastLook (.ok (some m)) s.now events ∧ m.id ≠ c.node.responseId) ∨
    LastLook (.ok none) s.now events ∧ ¬ Script.Overlooks c.node.responseId deadline s.queue

variable {c} {queue : List (Nat × Script.Event)}

theorem Skips.take {ready : Nat} {m : Message} {rest : List (Nat × Script.Event)}
    (h : c.Skips queue ((ready, .frame m) :: rest)) (hm : m.id ≠ c.node.responseId) :
    c.Skips queue rest := by
  obtain ⟨taken, rfl, htaken⟩ := h
  refine ⟨taken ++ [(ready, .frame m)], by simp, ?_⟩
  simpa [or_imp, forall_and] using ⟨fun a b => htaken (a, b), hm⟩

section
variable (hc : c.link = Script.link)
include hc

theorem receive_of_traced {w v : Script TransportError × List Event}
    {found : Except TransportError (Option Message)}
    (h : c.traced.link.receive w = (found, v)) :
    w.1.receive = (found, v.1) ∧ LastLook found v.1.now v.2 := by
  have hevents := Link.traced_receive h
  have hlink : c.link.receive w.1 = (found, v.1) := congrArg (fun p => (p.1, p.2.1)) h
  rw [hc] at hevents hlink
  exact ⟨hlink, hevents ▸ lastLook_append ..⟩

theorem queue_slept (w : Script TransportError × List Event) (time : Nat) :
    (c.traced.link.sleep time w).1.queue = w.1.queue := by
  show (c.link.sleep time w.1).queue = _
  rw [hc]
  rfl

theorem queue_noted (w : Script TransportError × List Event) (r : Record) :
    (c.traced.link.note r w).1.queue = w.1.queue ∧ (c.traced.link.note r w).1.now = w.1.now := by
  show (c.link.note r w.1).queue = _ ∧ (c.link.note r w.1).now = _
  rw [hc]
  exact ⟨rfl, rfl⟩

theorem ends_nextMessage_leavesOff {s : Session (Script TransportError × List Event)}
    (hs : s.world.1.Framed) :
    Ends c.traced.nextMessage s
      (fun received t => received = none →
        c.LeavesOff s.world.1.queue s.deadline t.world.2 t.world.1)
      fun _ _ => True := by
  have hnow : ∀ v, c.traced.link.now v = v.1.now := fun v => by
    show c.link.now v.1 = _
    rw [hc]
    rfl
  refine ends_poll_of_looks (c := c.traced) (K := fun _ _ => True)
    (W := fun _ t => t.deadline = s.deadline ∧ t.world.1.Framed ∧
      c.Skips s.world.1.queue t.world.1.queue) ?_ ?_ ?_ ?_ ?_ ?_ c.patience
    ⟨rfl, hs, [], rfl, by simp⟩
  · exact fun _ t _ => (ends_cancel_of_preserves c.traced.link.preserves_true (s := t) trivial).mono
      (fun _ _ h => h.elim) fun _ _ _ => trivial
  · exact fun _ _ => trivial
  · exact fun _ _ _ _ _ _ => trivial
  · -- A look that finds nothing, so that what stands in front is not ready.
    rintro - t w ⟨hdeadline, hframed, hskips⟩ hw
    obtain ⟨hreceive, hlook⟩ := receive_of_traced hc hw
    obtain ⟨hqueue, hhead⟩ := hframed.nothing hreceive
    rw [← hqueue] at hskips
    rw [hnow, hdeadline]
    split
    · rename_i hpassed
      refine fun _ => ⟨hskips, hpassed, .inr ⟨hlook, ?_⟩⟩
      exact Script.not_overlooks_of_head fun entry hentry =>
        Nat.le_trans hpassed (hhead entry hentry)
    · have hslept := queue_slept hc w c.config.pollInterval
      refine ⟨rfl, ?_, hslept ▸ hskips⟩
      intro entry hentry
      exact hframed entry (hqueue ▸ hslept ▸ hentry)
  · -- A frame of somebody else, behind which there may be one that is ready.
    rintro - t m w ⟨hdeadline, hframed, hskips⟩ hw hid
    obtain ⟨hreceive, hlook⟩ := receive_of_traced hc hw
    obtain ⟨ready, hqueue⟩ := hframed.taken hreceive
    rw [hqueue] at hskips
    obtain ⟨hnoted, htime⟩ := queue_noted hc w ⟨.trace, s!"Ignoring {m}"⟩
    have hskipped := hskips.take hid
    rw [← hnoted] at hskipped
    dsimp only
    rw [hnow, hdeadline]
    split
    · rename_i hpassed
      have hnoted : LastLook (.ok (some m)) w.1.now
          (c.traced.link.note ⟨.trace, s!"Ignoring {m}"⟩ w).2 :=
        hlook.append (Act.not_receives_noted _)
      rw [← htime] at hnoted
      exact fun _ => ⟨hskipped, hpassed, .inl ⟨m, hnoted, hid⟩⟩
    · refine ⟨rfl, ?_, hskipped⟩
      intro entry hentry
      exact hframed entry (hqueue ▸ List.mem_cons_of_mem _ (hnoted ▸ hentry))
  · rintro - t m w - - - ⟨⟩

/-- A wait that ends without a message has skipped frames of others only, up to the deadline at
least. It has overlooked nothing, unless the last frame it took was one of those, at the deadline or
behind it. -/
theorem nextMessage_leavesOff {s t : Session (Script TransportError)} (hs : s.world.Framed)
    (h : c.nextMessage s = .ok none t) :
    ∃ events,
      c.traced.nextMessage (s.inWorld (s.world, [])) = .ok none (t.inWorld (t.world, events)) ∧
      c.LeavesOff s.world.queue s.deadline events t.world := by
  have hsim : Simulates (fun w l => w.1 = l) c.traced.node c.traced.link c.link :=
    simulates_traced c.link c.node
  have habreast := hsim.tracks.next (s.inWorld (s.world, [])) s.world rfl
  have hends := ends_nextMessage_leavesOff hc (s := s.inWorld (s.world, [])) hs
  change Abreast _ _ _ (c.nextMessage s) at habreast
  rw [h] at habreast
  unfold Ends at hends
  generalize c.traced.nextMessage (s.inWorld (s.world, [])) = r at habreast hends
  cases habreast with
  | @ok _ u _ hworld =>
    obtain rfl : u.world.1 = _ := hworld
    exact ⟨u.world.2, rfl, hends rfl⟩

end

/-- What is still to come behind a wait that has ended without a message. -/
def queueBehind? :
    EStateM.Result Stop (Session (Script TransportError)) (Option Message) →
      Option (List (Nat × Script.Event))
  | .ok none t => some t.world.queue
  | _ => none

theorem eq_ok_of_queueBehind? {r queue} (h : queueBehind? r = some queue) :
    ∃ t, r = .ok none t ∧ t.world.queue = queue := by
  unfold queueBehind? at h
  split at h
  · exact ⟨_, rfl, Option.some.inj h⟩
  · cases h

/-- A frame of somebody else is taken in time, and the answer that comes too late is left. -/
theorem nextMessage_leavesOff_before_late_answer :
    let node : NodeId := ⟨5, by decide, by decide⟩
    let foreign : Message :=
      { id := .std 0x701, data := #v[5, 0, 0, 0, 0, 0, 0, 0], dlc := 1, rtr := false }
    let answer := (Sdo.Response.expedited ⟨0x2000, 0⟩ [0xAA] (by decide)).message node
    let client : Client (Script TransportError) :=
      { link := Script.link, config := { timeoutMs := 1, pollIntervalUs := 300 }, valid := by decide
        patience := 10 }
    let c := client.call node ⟨0x2000, 0⟩ .upload
    let s := c.session .segmented { queue := [(800, .frame foreign), (1300, .frame answer)] }
    s.world.Framed ∧ s.deadline = 1000 ∧ ∃ t events, c.nextMessage s = .ok none t ∧
      t.world.queue = [(1300, .frame answer)] ∧
      c.traced.nextMessage (s.inWorld (s.world, [])) = .ok none (t.inWorld (t.world, events)) ∧
      c.LeavesOff s.world.queue s.deadline events t.world := by
  intro node foreign answer client c s
  have hframed : s.world.Framed := by simp [Script.Framed, s, session]
  have hrun : queueBehind? (c.nextMessage s) = some [(1300, .frame answer)] := by decide +kernel
  obtain ⟨t, hnone, hqueue⟩ := eq_ok_of_queueBehind? hrun
  obtain ⟨events, htraced, hleaves⟩ := nextMessage_leavesOff rfl hframed hnone
  exact ⟨hframed, by decide, t, events, hnone, hqueue, htraced, hleaves⟩

/-- The deadline passes while a client sleeps. Then it takes the frame of somebody else, but not the
answer behind it, which was there in time. -/
theorem answer_overlooked_behind_foreign_frame :
    let node : NodeId := ⟨5, by decide, by decide⟩
    let foreign : Message :=
      { id := .std 0x701, data := #v[5, 0, 0, 0, 0, 0, 0, 0], dlc := 1, rtr := false }
    let answer := (Sdo.Response.expedited ⟨0x2000, 0⟩ [0xAA] (by decide)).message node
    let client : Client (Script TransportError) :=
      { link := Script.link, config := { timeoutMs := 1, pollIntervalUs := 700 }, valid := by decide
        patience := 10 }
    let c := client.call node ⟨0x2000, 0⟩ .upload
    let s := c.session .segmented { queue := [(800, .frame foreign), (900, .frame answer)] }
    s.world.Framed ∧ s.deadline = 1000 ∧ ∃ t, c.nextMessage s = .ok none t ∧
      Script.Overlooks node.responseId s.deadline t.world.queue := by
  intro node foreign answer client c s
  have hframed : s.world.Framed := by simp [Script.Framed, s, session]
  have hrun : queueBehind? (c.nextMessage s) = some [(900, .frame answer)] := by decide +kernel
  obtain ⟨t, hnone, hqueue⟩ := eq_ok_of_queueBehind? hrun
  exact ⟨hframed, by decide, t, hnone, [], 900, answer, [], hqueue, by decide, by decide, by simp⟩

end Call

end Client

end Canopen
