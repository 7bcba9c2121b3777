import Canopen.Proofs.Lockstep
import Canopen.Proofs.Termination

set_option autoImplicit false

namespace Canopen

open Can (Message TransportError)

namespace Script

variable {ε : Type}

def Event.frame? : Event → Option Message
  | .frame m => some m
  | _ => none

def Cue.frames : Cue → List Message
  | .event (.frame m) _ times => List.replicate times m
  | _ => []

def pendingOn (id : Can.Id) (s : Script ε) : List Message :=
  (s.queue.filterMap (·.2.frame?)).filter (·.id = id)

def repliesOn (id : Can.Id) (s : Script ε) : List (Except ε (List Message)) :=
  s.replies.map (·.map fun cues => (cues.flatMap Cue.frames).filter (·.id = id))

/-- Nothing but frames comes, and each of them at once. -/
structure Plain (s : Script ε) : Prop where
  free : s.receiveCost = 0
  queue : ∀ entry ∈ s.queue, entry.1 ≤ s.now ∧ ∃ m, entry.2 = .frame m
  replies : ∀ cues, .ok cues ∈ s.replies → ∀ cue ∈ cues, ∃ m times, cue = .event (.frame m) 0 times

/-- Scripts that are the same for who listens to one ID. -/
structure Twins (id : Can.Id) (v w : Script ε) : Prop where
  left : v.Plain
  right : w.Plain
  calm : v.cancelled = false ∧ w.cancelled = false
  now : v.now = w.now
  sent : v.sent = w.sent
  pending : v.pendingOn id = w.pendingOn id
  replies : v.repliesOn id = w.repliesOn id

theorem enqueue_frames {cues : List Cue}
    (h : ∀ cue ∈ cues, ∃ m times, cue = .event (.frame m) 0 times) (s : Script ε) :
    s.enqueue cues =
      { s with queue := s.queue ++ (cues.flatMap Cue.frames).map fun m => (s.now, .frame m) } := by
  induction cues generalizing s with
  | nil => simp [enqueue]
  | cons cue cues ih =>
    obtain ⟨⟨m, times, rfl⟩, hcues⟩ := List.forall_mem_cons.mp h
    have hrest := ih hcues (s.enqueueCue (.event (.frame m) 0 times))
    rw [enqueue] at hrest ⊢
    rw [List.foldl_cons, hrest]
    simp [enqueueCue, Cue.frames]

theorem Plain.enqueue {s : Script ε} (h : s.Plain) {cues : List Cue}
    (hcues : ∀ cue ∈ cues, ∃ m times, cue = .event (.frame m) 0 times) :
    (s.enqueue cues).Plain := by
  rw [enqueue_frames hcues]
  refine ⟨h.free, fun entry hentry => ?_, h.replies⟩
  rcases List.mem_append.mp hentry with hold | hnew
  · exact h.queue entry hold
  · obtain ⟨m, -, rfl⟩ := List.mem_map.mp hnew
    exact ⟨Nat.le_refl _, m, rfl⟩

theorem pendingOn_enqueue {cues : List Cue}
    (h : ∀ cue ∈ cues, ∃ m times, cue = .event (.frame m) 0 times) (id : Can.Id) (s : Script ε) :
    (s.enqueue cues).pendingOn id
      = s.pendingOn id ++ (cues.flatMap Cue.frames).filter (·.id = id) := by
  have hgiven : (fun m => (Event.frame m).frame?) = some := rfl
  rw [enqueue_frames h, pendingOn, pendingOn, List.filterMap_append, List.filterMap_map,
    Function.comp_def, hgiven, List.filterMap_some, List.filter_append]

theorem Twins.enqueue {id : Can.Id} {v w : Script ε} (h : Twins id v w) {cues cues' : List Cue}
    (hcues : ∀ cue ∈ cues, ∃ m times, cue = .event (.frame m) 0 times)
    (hcues' : ∀ cue ∈ cues', ∃ m times, cue = .event (.frame m) 0 times)
    (hframes : (cues.flatMap Cue.frames).filter (·.id = id)
      = (cues'.flatMap Cue.frames).filter (·.id = id)) :
    Twins id (v.enqueue cues) (w.enqueue cues') := by
  have hpending : (v.enqueue cues).pendingOn id = (w.enqueue cues').pendingOn id := by
    rw [pendingOn_enqueue hcues, pendingOn_enqueue hcues', h.pending, hframes]
  have hleft := h.left.enqueue hcues
  have hright := h.right.enqueue hcues'
  rw [enqueue_frames hcues] at hleft hpending ⊢
  rw [enqueue_frames hcues'] at hright hpending ⊢
  exact ⟨hleft, hright, h.calm, h.now, h.sent, hpending, h.replies⟩

theorem send_of_nil {s : Script ε} (h : s.replies = []) (m : Message) :
    s.send m = (.ok (), { s with sent := s.sent.push (s.now, m) }) := by
  rw [Script.send, h]

theorem send_of_error {s : Script ε} {e : ε} {rest : List (Except ε (List Cue))}
    (h : s.replies = .error e :: rest) (m : Message) :
    s.send m = (.error e, { s with replies := rest }) := by
  rw [Script.send, h]

theorem send_of_ok {s : Script ε} {cues : List Cue} {rest : List (Except ε (List Cue))}
    (h : s.replies = .ok cues :: rest) (m : Message) :
    s.send m =
      (.ok (), { s with replies := rest, sent := s.sent.push (s.now, m) }.enqueue cues) := by
  rw [Script.send, h]

theorem Plain.rest {s : Script ε} (h : s.Plain) {reply : Except ε (List Cue)}
    {rest : List (Except ε (List Cue))} (hs : s.replies = reply :: rest)
    (sent : Array (Nat × Message)) : ({ s with replies := rest, sent } : Script ε).Plain :=
  ⟨h.free, h.queue, fun cues hcues => h.replies cues (hs ▸ List.mem_cons_of_mem _ hcues)⟩

theorem Twins.send {id : Can.Id} {v w : Script ε} (h : Twins id v w) (m : Message) :
    (v.send m).1 = (w.send m).1 ∧ Twins id (v.send m).2 (w.send m).2 := by
  obtain ⟨left, right, calm, now, sent, pending, replies⟩ := h
  have hrecord : v.sent.push (v.now, m) = w.sent.push (w.now, m) := by rw [now, sent]
  cases hv : v.replies with
  | nil =>
    have hw : w.replies = [] := by simpa [repliesOn, hv] using replies
    rw [send_of_nil hv, send_of_nil hw]
    exact ⟨rfl, ⟨left.free, left.queue, left.replies⟩, ⟨right.free, right.queue, right.replies⟩,
      calm, now, hrecord, pending, replies⟩
  | cons reply rest =>
    obtain ⟨reply', rest', hw⟩ : ∃ reply' rest', w.replies = reply' :: rest' := by
      refine List.exists_cons_of_ne_nil fun hnil => ?_
      simp [repliesOn, hv, hnil] at replies
    rw [repliesOn, repliesOn, hv, hw, List.map_cons, List.map_cons] at replies
    obtain ⟨hreply, hrest⟩ := List.cons.inj replies
    cases reply with
    | error e =>
      cases reply' with
      | error e' =>
        obtain rfl : e = e' := Except.error.inj hreply
        rw [send_of_error hv, send_of_error hw]
        exact ⟨rfl, left.rest hv _, right.rest hw _, calm, now, sent, pending, hrest⟩
      | ok => cases hreply
    | ok cues =>
      cases reply' with
      | error => cases hreply
      | ok cues' =>
        have hcues := left.replies cues (hv ▸ List.mem_cons_self)
        have hcues' := right.replies cues' (hw ▸ List.mem_cons_self)
        rw [send_of_ok hv, send_of_ok hw]
        refine ⟨rfl, Twins.enqueue ?_ hcues hcues' (Except.ok.inj hreply)⟩
        exact ⟨left.rest hv _, right.rest hw _, calm, now, hrecord, pending, hrest⟩

theorem Plain.receive_cons {s : Script ε} (h : s.Plain) {time : Nat} {e : Event}
    {rest : List (Nat × Event)} (hs : s.queue = (time, e) :: rest) :
    ∃ m, e = .frame m ∧
      s.receive = (.ok (some m), { s with queue := rest, looks := s.looks + 1 }) := by
  obtain ⟨hready, m, rfl⟩ := h.queue (time, e) (hs ▸ List.mem_cons_self)
  have hnext : next s.now s.queue = (some (.frame m), false, rest) := by
    rw [hs]
    simp only [next, if_pos hready]
  refine ⟨m, rfl, ?_⟩
  simp only [receive, h.free, Nat.add_zero, hnext, Bool.or_false]

theorem Plain.receive_nil {s : Script ε} (h : s.Plain) (hs : s.queue = []) :
    s.receive = (.ok none, { s with looks := s.looks + 1 }) := by
  have hnext : next s.now s.queue = (none, false, []) := by rw [hs, next]
  simp only [receive, h.free, Nat.add_zero, hnext, Bool.or_false, ← hs]

theorem Plain.tail {s : Script ε} (h : s.Plain) {entry : Nat × Event} {rest : List (Nat × Event)}
    (hs : s.queue = entry :: rest) (looks : Nat) (log : Array Record) :
    ({ s with queue := rest, looks, log } : Script ε).Plain :=
  ⟨h.free, fun e he => h.queue e (hs ▸ List.mem_cons_of_mem _ he), h.replies⟩

theorem pendingOn_nil {s : Script ε} (id : Can.Id) (hs : s.queue = []) : s.pendingOn id = [] := by
  rw [pendingOn, hs]
  rfl

theorem pendingOn_cons {s : Script ε} (id : Can.Id) {time : Nat} {m : Message}
    {rest : List (Nat × Event)} (hs : s.queue = (time, .frame m) :: rest) (looks : Nat)
    (log : Array Record) :
    s.pendingOn id =
      if m.id = id then m :: ({ s with queue := rest, looks, log } : Script ε).pendingOn id
      else ({ s with queue := rest, looks, log } : Script ε).pendingOn id := by
  simp only [pendingOn, hs, List.filterMap_cons, Event.frame?, List.filter_cons, decide_eq_true_eq]

end Script

namespace Client

open Sdo
open Transfer

namespace Call

variable {c : Call (Script TransportError)} {s : Session (Script TransportError)}

section
variable (hc : c.link = Script.link) (h : s.world.Plain) (hcalm : s.world.cancelled = false)
include hc h hcalm

theorem poll_foreign {time : Nat} {m : Message} {rest : List (Nat × Script.Event)}
    (hs : s.world.queue = (time, .frame m) :: rest) (hm : m.id ≠ c.node.responseId)
    (hd : s.world.now < s.deadline) (n : Nat) :
    ∃ log, c.poll (n + 1) s = c.poll n
      { s with world := { s.world with queue := rest, looks := s.world.looks + 1, log } } := by
  obtain ⟨_, he, hreceive⟩ := h.receive_cons hs
  cases he
  have hcancelled : c.link.cancelled s.world = false := by rw [hc]; exact hcalm
  have hlink : c.link.receive s.world = s.world.receive := by rw [hc]; rfl
  refine ⟨s.world.log.push ⟨.trace, s!"Ignoring {m}"⟩, eq_iff_ends.mpr ?_⟩
  rw [poll]
  simp only [ends_bind, ends_get, hcancelled, Bool.false_eq_true, if_false, receive, ends_act,
    hlink, hreceive, ends_pure, if_neg hm, note, overdue]
  simp only [hc, Script.link, Script.interface, Nat.not_le.mpr hd, decide_false,
    Bool.false_eq_true, if_false]
  exact eq_iff_ends.mp rfl

theorem poll_own {time : Nat} {m : Message} {rest : List (Nat × Script.Event)}
    (hs : s.world.queue = (time, .frame m) :: rest) (hm : m.id = c.node.responseId) (n : Nat) :
    ∃ log, c.poll (n + 1) s = .ok (some m)
      { s with world := { s.world with queue := rest, looks := s.world.looks + 1, log } } := by
  obtain ⟨_, he, hreceive⟩ := h.receive_cons hs
  cases he
  have hcancelled : c.link.cancelled s.world = false := by rw [hc]; exact hcalm
  have hlink : c.link.receive s.world = s.world.receive := by rw [hc]; rfl
  refine ⟨s.world.log.push ⟨.trace, s!"SDO rx: {m}"⟩, eq_iff_ends.mpr ?_⟩
  rw [poll]
  simp only [ends_bind, ends_get, hcancelled, Bool.false_eq_true, if_false, receive, ends_act,
    hlink, hreceive, ends_pure, if_pos hm, note]
  rw [hc]
  rfl

theorem poll_nothing (hs : s.world.queue = []) (n : Nat) :
    c.poll (n + 1) s =
      if s.deadline ≤ s.world.now then
        .ok none { s with world := { s.world with looks := s.world.looks + 1 } }
      else c.poll n { s with world := { s.world with
        now := s.world.now + c.config.pollInterval, looks := s.world.looks + 1 } } := by
  have hreceive := h.receive_nil hs
  have hcancelled : c.link.cancelled s.world = false := by rw [hc]; exact hcalm
  have hlink : c.link.receive s.world = s.world.receive := by rw [hc]; rfl
  refine eq_iff_ends.mpr ?_
  rw [poll]
  simp only [ends_bind, ends_get, hcancelled, Bool.false_eq_true, if_false, receive, ends_act,
    hlink, hreceive, ends_pure, overdue]
  simp only [hc, Script.link, decide_eq_true_eq]
  split
  · rfl
  · simp only [ends_bind, ends_act]
    exact eq_iff_ends.mp rfl

end

/-- Two runs of a call that look the same to it, with only so much to come. -/
structure Paired (node : NodeId) (bound : Nat) (s : Session (Script TransportError))
    (l : Script TransportError) : Prop
    extends Script.Twins node.responseId s.world l where
  stock : s.world.stock ≤ bound ∧ l.stock ≤ bound

/-- And where there is something to take, the deadline has not passed. -/
structure Twinned (node : NodeId) (timeout bound : Nat) (s : Session (Script TransportError))
    (l : Script TransportError) : Prop
    extends Paired node bound s l where
  awake : s.world.queue ≠ [] ∨ l.queue ≠ [] → s.world.now < s.deadline
  timely : s.deadline ≤ s.world.now + timeout

abbrev SameSent (v w : Script TransportError) : Prop := v.sent = w.sent

section
variable {node : NodeId} {timeout bound time : Nat} {l : Script TransportError} {m : Message}
variable {rest rest' : List (Nat × Script.Event)}

theorem stock_tail {w : Script TransportError} {entry : Nat × Script.Event}
    (hs : w.queue = entry :: rest) (h : w.stock ≤ bound) (looks : Nat) (log : Array Record) :
    ({ w with queue := rest, looks, log } : Script TransportError).stock ≤ bound := by
  simp only [Script.stock, hs, List.length_cons] at h ⊢
  omega

theorem Twinned.skip_left (h : Twinned node timeout bound s l)
    (hs : s.world.queue = (time, .frame m) :: rest) (hm : m.id ≠ node.responseId) (looks : Nat)
    (log : Array Record) :
    Twinned node timeout bound { s with world := { s.world with queue := rest, looks, log } }
      l := by
  have hpending := Script.pendingOn_cons node.responseId hs looks log
  rw [if_neg hm] at hpending
  have hnow := h.awake (.inl (hs ▸ List.cons_ne_nil _ _))
  exact ⟨⟨⟨h.left.tail hs _ _, h.right, h.calm, h.now, h.sent, hpending.symm.trans h.pending,
    h.replies⟩, stock_tail hs h.stock.1 _ _, h.stock.2⟩, fun _ => hnow, h.timely⟩

theorem Twinned.skip_right (h : Twinned node timeout bound s l)
    (hl : l.queue = (time, .frame m) :: rest) (hm : m.id ≠ node.responseId) (looks : Nat)
    (log : Array Record) :
    Twinned node timeout bound s { l with queue := rest, looks, log } := by
  have hpending := Script.pendingOn_cons node.responseId hl looks log
  rw [if_neg hm] at hpending
  have hnow := h.awake (.inr (hl ▸ List.cons_ne_nil _ _))
  exact ⟨⟨⟨h.left, h.right.tail hl _ _, h.calm, h.now, h.sent, h.pending.trans hpending,
    h.replies⟩, h.stock.1, stock_tail hl h.stock.2 _ _⟩, fun _ => hnow, h.timely⟩

theorem Twinned.take (h : Twinned node timeout bound s l) {time' : Nat} {m' : Message}
    (hs : s.world.queue = (time, .frame m) :: rest) (hm : m.id = node.responseId)
    (hl : l.queue = (time', .frame m') :: rest') (hm' : m'.id = node.responseId)
    (looks looks' : Nat) (log log' : Array Record) :
    m = m' ∧ Twinned node timeout bound
      { s with world := { s.world with queue := rest, looks, log } }
      { l with queue := rest', looks := looks', log := log' } := by
  have hpending := h.pending
  rw [Script.pendingOn_cons _ hs looks log, if_pos hm,
    Script.pendingOn_cons _ hl looks' log', if_pos hm'] at hpending
  obtain ⟨heq, hrest⟩ := List.cons.inj hpending
  have hnow := h.awake (.inl (hs ▸ List.cons_ne_nil _ _))
  exact ⟨heq, ⟨⟨h.left.tail hs _ _, h.right.tail hl _ _, h.calm, h.now, h.sent, hrest,
    h.replies⟩, stock_tail hs h.stock.1 _ _, stock_tail hl h.stock.2 _ _⟩, fun _ => hnow, h.timely⟩

theorem Twinned.wait (h : Twinned node timeout bound s l) (hs : s.world.queue = [])
    (hl : l.queue = []) (t looks looks' : Nat) :
    Twinned node timeout bound
      { s with world := { s.world with now := s.world.now + t, looks } }
      { l with now := l.now + t, looks := looks' } := by
  have htimely := h.timely
  refine ⟨⟨⟨⟨h.left.free, ?_, h.left.replies⟩, ⟨h.right.free, ?_, h.right.replies⟩, h.calm,
    congrArg (· + t) h.now, h.sent, h.pending, h.replies⟩, h.stock⟩, ?_, by dsimp only; omega⟩
  · rw [hs]
    exact fun _ he => absurd he List.not_mem_nil
  · rw [hl]
    exact fun _ he => absurd he List.not_mem_nil
  · rintro (hne | hne)
    · exact absurd hs hne
    · exact absurd hl hne

end

theorem Paired.log {node : NodeId} {bound : Nat} {l : Script TransportError}
    (h : Paired node bound s l) (log log' : Array Record) :
    Paired node bound { s with world := { s.world with log } } { l with log := log' } :=
  ⟨⟨⟨h.left.free, h.left.queue, h.left.replies⟩, ⟨h.right.free, h.right.queue, h.right.replies⟩,
    h.calm, h.now, h.sent, h.pending, h.replies⟩, h.stock⟩

section
variable {bound : Nat} (hc : c.link = Script.link)
include hc

theorem poll_twinned (interval : 0 < c.config.pollInterval) {s : Session (Script TransportError)}
    {l : Script TransportError} (h : Twinned c.node c.config.timeout bound s l) {n n' : Nat}
    (hn : s.world.queue.length + (s.deadline - s.world.now) < n)
    (hn' : l.queue.length + (s.deadline - s.world.now) < n') :
    Abreast (Twinned c.node c.config.timeout bound) (fun _ => SameSent) (c.poll n s)
      (c.poll n' (s.inWorld l)) := by
  -- On the frames left on both sides and the time left.
  induction hk : s.world.queue.length + l.queue.length + (s.deadline - s.world.now)
    using Nat.strongRecOn generalizing s l n n' with
  | ind k ih =>
    obtain ⟨n, rfl⟩ : ∃ m, n = m + 1 := Nat.exists_eq_add_of_le' (by omega)
    obtain ⟨n', rfl⟩ : ∃ m, n' = m + 1 := Nat.exists_eq_add_of_le' (by omega)
    have hright : (s.inWorld l).world.Plain := h.right
    have skip_right : ∀ {time m rest}, l.queue = (time, .frame m) :: rest →
        m.id ≠ c.node.responseId →
        Abreast (Twinned c.node c.config.timeout bound) (fun _ => SameSent) (c.poll (n + 1) s)
          (c.poll (n' + 1) (s.inWorld l)) := by
      intro time m rest hl hm
      have hawake := h.awake (.inr (hl ▸ List.cons_ne_nil _ _))
      have hnow : (s.inWorld l).world.now < (s.inWorld l).deadline := h.now ▸ hawake
      obtain ⟨log, heq⟩ := poll_foreign hc hright h.calm.2 hl hm hnow n'
      rw [heq]
      rw [hl, List.length_cons] at hn' hk
      exact ih _ (by dsimp only; omega) (h.skip_right hl hm _ _) hn (by dsimp only; omega) rfl
    cases hs : s.world.queue with
    | cons entry rest =>
      obtain ⟨time, e⟩ := entry
      obtain ⟨-, m, rfl⟩ := h.left.queue _ (hs ▸ List.mem_cons_self)
      by_cases hm : m.id = c.node.responseId
      · cases hl : l.queue with
        | nil =>
          have hpending := h.pending
          rw [Script.pendingOn_cons _ hs 0 #[], if_pos hm, Script.pendingOn_nil _ hl] at hpending
          cases hpending
        | cons entry' rest' =>
          obtain ⟨time', e'⟩ := entry'
          obtain ⟨-, m', rfl⟩ := h.right.queue _ (hl ▸ List.mem_cons_self)
          by_cases hm' : m'.id = c.node.responseId
          · obtain ⟨log, heq⟩ := poll_own hc h.left h.calm.1 hs hm n
            obtain ⟨log', heq'⟩ := poll_own hc hright h.calm.2 hl hm' n'
            obtain ⟨rfl, htaken⟩ := h.take hs hm hl hm' (s.world.looks + 1) (l.looks + 1) log log'
            rw [heq, heq']
            exact .ok htaken
          · exact skip_right hl hm'
      · have hawake := h.awake (.inl (hs ▸ List.cons_ne_nil _ _))
        obtain ⟨log, heq⟩ := poll_foreign hc h.left h.calm.1 hs hm hawake n
        rw [heq]
        rw [hs, List.length_cons] at hn hk
        exact ih _ (by dsimp only; omega) (h.skip_left hs hm _ _) (by dsimp only; omega) hn' rfl
    | nil =>
      cases hl : l.queue with
      | cons entry' rest' =>
        obtain ⟨time', e'⟩ := entry'
        obtain ⟨-, m', rfl⟩ := h.right.queue _ (hl ▸ List.mem_cons_self)
        refine skip_right hl fun hm' => ?_
        have hpending := h.pending
        rw [Script.pendingOn_nil _ hs, Script.pendingOn_cons _ hl 0 #[], if_pos hm'] at hpending
        cases hpending
      | nil =>
        rw [poll_nothing hc h.left h.calm.1 hs, poll_nothing hc hright h.calm.2 hl]
        by_cases hd : s.deadline ≤ s.world.now
        · have hd' : (s.inWorld l).deadline ≤ (s.inWorld l).world.now := h.now ▸ hd
          rw [if_pos hd, if_pos hd']
          exact .ok (h.wait hs hl 0 _ _)
        · have hd' : ¬(s.inWorld l).deadline ≤ (s.inWorld l).world.now := h.now ▸ hd
          rw [if_neg hd, if_neg hd']
          exact ih _ (by dsimp only; omega) (h.wait hs hl _ _ _) (by dsimp only; omega)
            (by dsimp only; omega) rfl

theorem onLink_script : c.onLink Script.link = c := by
  rw [← hc]
  rfl

variable {E : Stop → Script TransportError → Script TransportError → Prop}

theorem lockstep_note_paired (level : Level) (text : String) :
    Lockstep (Paired c.node bound) E (c.note level text) (c.note level text) := by
  refine lockstep_act fun s l h => ⟨rfl, ?_⟩
  rw [hc]
  exact h.log _ _

theorem lockstep_act_send_paired (m : Message) :
    Lockstep (Paired c.node bound) E (act (c.link.send m)) (act (c.link.send m)) := by
  refine lockstep_act fun s l h => ?_
  obtain ⟨hresult, htwins⟩ := h.toTwins.send m
  have hstock := (Script.stock_send m s.world).1
  have hstock' := (Script.stock_send m l).1
  rw [hc]
  refine ⟨congrArg (Except.mapError id) hresult, htwins, ?_, ?_⟩
  · exact Nat.le_trans hstock h.stock.1
  · exact Nat.le_trans hstock' h.stock.2

theorem abreast_restartDeadline (timeout : 0 < c.config.timeout)
    {s : Session (Script TransportError)} {l : Script TransportError}
    (h : Paired c.node bound s l) :
    Abreast (Twinned c.node c.config.timeout bound) E (c.restartDeadline s)
      (c.restartDeadline (s.inWorld l)) := by
  let t : Session (Script TransportError) :=
    { s with deadline := s.world.now + c.config.timeout }
  have hleft : c.restartDeadline s = .ok () t := by
    rw [restartDeadline, hc]
    rfl
  have hright : c.restartDeadline (s.inWorld l) = .ok () (t.inWorld l) := by
    rw [restartDeadline, hc]
    show _ = EStateM.Result.ok () { s.inWorld l with deadline := s.world.now + c.config.timeout }
    rw [h.now]
    rfl
  rw [hleft, hright]
  exact .ok ⟨⟨h.toTwins, h.stock⟩, fun _ => Nat.lt_add_of_pos_right timeout, Nat.le_refl _⟩

theorem lockstep_trySend_paired (timeout : 0 < c.config.timeout) (m : Message) :
    Lockstep (Paired c.node bound) E (c.trySend m) (c.trySend m) := by
  refine lockstep_bind (lockstep_note_paired hc _ _) fun _ => ?_
  refine lockstep_bind (lockstep_act_send_paired hc m) fun sent => ?_
  cases sent.isOk with
  | true =>
    refine lockstep_bind (fun s l h => ?_) fun _ => lockstep_pure _
    exact (abreast_restartDeadline hc timeout h).mono fun _ _ h => h.toPaired
  | false => exact lockstep_pure _

theorem lockstep_sendMessage_twinned (timeout : 0 < c.config.timeout) (m : Message) :
    Lockstep (Twinned c.node c.config.timeout bound) (fun _ => SameSent) (c.sendMessage m)
      (c.sendMessage m) := by
  rw [sendMessage, trySend]
  simp only [bind_assoc]
  intro s l h
  refine abreast_bind (lockstep_note_paired hc _ _ s l h.toPaired) fun _ s l h => ?_
  refine abreast_bind (lockstep_act_send_paired hc m s l h) fun sent s l h => ?_
  cases sent with
  | ok _ =>
    simp only [Except.isOk, Except.toBool, if_true, bind_assoc, pure_bind]
    exact abreast_bind (abreast_restartDeadline hc timeout h) fun _ _ _ h => .ok h
  | error e => exact .error h.sent

theorem lockstep_abandon_twinned {α : Type} (timeout : 0 < c.config.timeout) (code : AbortCode)
    (e : Error) : Lockstep (Twinned c.node c.config.timeout bound) (fun _ => SameSent)
      (c.abandon code e : Transfer (Script TransportError) α) (c.abandon code e) := by
  have habort : Lockstep (Paired c.node bound) (fun _ => SameSent) (c.abort code)
      (c.abort code) := by
    refine lockstep_bind (lockstep_note_paired hc _ _) fun _ => ?_
    refine lockstep_bind (lockstep_trySend_paired hc timeout _) fun sent => ?_
    cases sent with
    | ok _ => exact lockstep_pure _
    | error e => exact lockstep_note_paired hc _ _
  intro s l h
  exact abreast_bind (habort s l h.toPaired) fun _ _ _ h => .error h.sent

/-- The two runs go the same from step to step. -/
theorem tracks_twinned (timeout : 0 < c.config.timeout) (interval : 0 < c.config.pollInterval)
    (hp : bound + c.config.timeout < c.patience) :
    c.Tracks Script.link (Twinned c.node c.config.timeout bound) SameSent fun _ => SameSent := by
  have hsame : c.onLink Script.link = c := onLink_script hc
  refine ⟨?_, ?_, ?_, ?_, ?_, ?_, ?_, ?_, ?_⟩
  · rintro s ⟨⟩ l h rfl rfl
    exact ⟨⟨h.toTwins, h.stock⟩, h.awake, h.timely⟩
  · rw [hsame]
    refine fun level text => lockstep_act fun s l h => ⟨rfl, ?_⟩
    rw [hc]
    exact ⟨h.toPaired.log _ _, h.awake, h.timely⟩
  · rw [hsame]
    exact fun s l h => abreast_restartDeadline hc timeout h.toPaired
  · rw [hsame]
    exact fun m _ _ => lockstep_sendMessage_twinned hc timeout m
  · rw [hsame]
    intro s l h
    have htimely := h.timely
    have hstock : s.world.queue.length ≤ s.world.stock := Nat.le_add_right _ _
    have hstock' : l.queue.length ≤ l.stock := Nat.le_add_right _ _
    have hbound := h.stock
    exact poll_twinned hc interval h (by omega) (by omega)
  · exact fun h _ _ => h.sent
  · rw [hsame]
    exact fun code e _ => lockstep_abandon_twinned hc timeout code e
  · intro s l h r
    rw [hc]
    exact h.sent
  · intro e w l h r
    rw [hc]
    exact h

theorem flush_plain {s : Session (Script TransportError)} (h : s.world.Plain) {n : Nat}
    (hn : s.world.queue.length < n) :
    ∃ looks, c.flush n s = .ok () { s with world := { s.world with queue := [], looks } } := by
  induction n generalizing s with
  | zero => omega
  | succ n ih =>
    have hlink : c.link.receive s.world = s.world.receive := by rw [hc]; rfl
    cases hs : s.world.queue with
    | nil =>
      refine ⟨s.world.looks + 1, eq_iff_ends.mpr ?_⟩
      rw [flush]
      simp only [ends_bind, receive, ends_act, hlink, h.receive_nil hs, ends_pure]
      rw [← hs]
    | cons entry rest =>
      obtain ⟨m, -, hreceive⟩ := h.receive_cons hs
      rw [hs, List.length_cons] at hn
      obtain ⟨looks, heq⟩ := ih (s := { s with world := _ })
        (h.tail hs (s.world.looks + 1) s.world.log) (by dsimp only; omega)
      refine ⟨looks, eq_iff_ends.mpr ?_⟩
      rw [flush]
      simp only [ends_bind, receive, ends_act, hlink, hreceive, ends_pure]
      exact eq_iff_ends.mp heq

theorem prepare_plain {s : Session (Script TransportError)} (h : s.world.Plain)
    (hn : s.world.queue.length < c.patience) (mode : Mode) :
    ∃ looks log, c.prepare mode s =
      .ok () { s with world := { s.world with queue := [], looks, log } } := by
  let log : Array Record :=
    s.world.log.push
      ⟨.debug, s!"Starting {c.direction} of {c.target} on node {c.node} ({mode})"⟩
  let noted : Session (Script TransportError) := { s with world := { s.world with log } }
  have hnote : c.note .debug s!"Starting {c.direction} of {c.target} on node {c.node} ({mode})" s
      = .ok () noted := by
    rw [note, hc]
    rfl
  obtain ⟨looks, heq⟩ := flush_plain hc (s := noted) ⟨h.free, h.queue, h.replies⟩ hn
  refine ⟨looks, log, eq_iff_ends.mpr ?_⟩
  rw [prepare, ends_bind]
  exact (eq_iff_ends.mp hnote).mono (fun _ _ ht => by cases ht; exact eq_iff_ends.mp heq)
    fun _ _ ht => by cases ht

theorem prepare_twinned {v w : Script TransportError} (hv : v.Plain) (hw : w.Plain)
    (hnow : v.now = w.now) (hsent : v.sent = w.sent)
    (hreplies : v.repliesOn c.node.responseId = w.repliesOn c.node.responseId)
    (hp : v.stock + w.stock < c.patience) (mode : Mode) :
    Abreast (Twinned c.node c.config.timeout (v.stock + w.stock)) E
      (c.prepare mode (c.session mode (c.link.resume v)))
      ((c.onLink Script.link).prepare mode
        ((c.onLink Script.link).session mode (Script.link.resume w))) := by
  have hqueue : v.queue.length ≤ v.stock := Nat.le_add_right _ _
  have hqueue' : w.queue.length ≤ w.stock := Nat.le_add_right _ _
  rw [onLink_script hc]
  have hresume : ∀ u : Script TransportError, u.Plain →
      (c.session mode (Script.link.resume u)).world.Plain :=
    fun u hu => ⟨hu.free, hu.queue, hu.replies⟩
  have hlength : ∀ u : Script TransportError, u.queue.length < c.patience →
      (c.session mode (Script.link.resume u)).world.queue.length < c.patience := fun _ hu => hu
  obtain ⟨looks, log, heq⟩ := prepare_plain hc (hresume v hv) (hlength v (by omega)) mode
  obtain ⟨looks', log', heq'⟩ := prepare_plain hc (hresume w hw) (hlength w (by omega)) mode
  let left : Session (Script TransportError) :=
    { c.session mode (Script.link.resume v) with
      world := { v with cancelled := false, queue := [], looks, log } }
  let right : Script TransportError :=
    { w with cancelled := false, queue := [], looks := looks', log := log' }
  have hright : { c.session mode (Script.link.resume w) with world := right }
      = left.inWorld right := by
    simp only [left, session, Session.inWorld, hc, Script.link, hnow]
  have hempty : ∀ u : Script TransportError, u.Plain → ∀ (looks : Nat) (log : Array Record),
      ({ u with cancelled := false, queue := [], looks, log } : Script TransportError).Plain :=
    fun u hu _ _ => ⟨hu.free, fun _ he => absurd he List.not_mem_nil, hu.replies⟩
  have htwinned : Twinned c.node c.config.timeout (v.stock + w.stock) left right := by
    refine ⟨⟨⟨hempty v hv _ _, hempty w hw _ _, ⟨rfl, rfl⟩, hnow, hsent, rfl, hreplies⟩,
      ?_, ?_⟩, ?_, ?_⟩
    · simp only [left, Script.stock, List.length_nil]
      omega
    · simp only [right, Script.stock, List.length_nil]
      omega
    · rintro (h | h) <;> exact absurd rfl h
    · exact Nat.le_of_eq (by simp only [left, session, hc]; rfl)
  rw [hc, heq, heq']
  exact hright ▸ Abreast.ok htwinned

end
end Call

theorem Config.timeout_of_valid {config : Config} (h : config.Valid) : 0 < config.timeout := by
  unfold Config.Valid Config.fault? at h
  split at h
  · cases h
  · split at h
    · cases h
    · rename_i hzero
      have hpos : config.timeoutMs.toNat ≠ 0 := fun he => hzero (UInt64.toNat_inj.mp he)
      unfold Config.timeout
      omega

end Client

namespace Script

open Client Sdo

def client (config : Config) (valid : config.Valid) (patience : Nat) :
    Client (Script TransportError) :=
  { link := link, config, valid, patience }

/-- Frames with other IDs, and all those that came before, make no difference to an operation. -/
theorem foreign_frames_ignored (config : Config) (valid : config.Valid)
    (interval : 1 ≤ config.pollInterval) (node : UInt8) (target : Address) (op : Operation)
    (v w : Script TransportError) (hv : v.Plain) (hw : w.Plain) (now : v.now = w.now)
    (sent : v.sent = w.sent)
    (replies : v.repliesOn (.std (0x580 + node.toUInt16))
      = w.repliesOn (.std (0x580 + node.toUInt16))) :
    ∃ p, ∀ patience, p ≤ patience →
      let left := (client config valid patience).perform node target op v
      let right := (client config valid patience).perform node target op w
      left.1 ≠ .error .unfinished ∧ left.1 = right.1 ∧ left.2.sent = right.2.sent := by
  refine ⟨v.stock + w.stock + config.retries.toNat + config.timeout + 1, fun patience hp => ?_⟩
  let client := client config valid patience
  have timeout := Config.timeout_of_valid valid
  have hconcludes : (client.perform node target op v).1 ≠ .error .unfinished :=
    perform_concludes (show client.link.Finite stock from finite) interval
      (show v.stock + config.retries.toNat + config.timeout < patience by omega) node target op
  have halike : Alike Call.SameSent (fun _ => Call.SameSent) (client.perform node target op v)
      ((client.onLink link).perform node target op w) := by
    refine perform_alike (R := fun n => Call.Twinned n config.timeout (v.stock + w.stock)) ?_ ?_
      (fun _ _ => sent) (fun h _ _ => h) op
    · intro n _ direction
      exact Call.tracks_twinned (c := client.call n target direction) rfl timeout interval
        (show v.stock + w.stock + config.timeout < patience by omega)
    · rintro n rfl direction mode
      exact Call.prepare_twinned (c := client.call n target direction) rfl hv hw now sent replies
        (show v.stock + w.stock < patience by omega) mode
  refine ⟨hconcludes, halike.result, ?_⟩
  cases hresult : (client.perform node target op v).1 with
  | ok a => exact halike.value a hresult
  | error e => exact halike.failure e hresult

/-- An abort left over from an earlier transfer, and a frame with an extended ID in front of the
answer. -/
theorem foreign_frames_ignored_around_upload :
    ∃ p, ∀ patience, p ≤ patience →
      let answer : Message :=
        { id := .std 0x585, data := #v[0x43, 0, 0x20, 0, 1, 2, 3, 4], dlc := 8, rtr := false }
      let stale : Message :=
        { id := .std 0x585, data := #v[0x80, 0, 0x20, 0, 0, 0, 4, 5], dlc := 8, rtr := false }
      let foreign : Message :=
        { id := .extended 0x585, data := #v[0x80, 0, 0, 0, 0, 0, 0, 0], dlc := 3, rtr := false }
      let quiet : Script TransportError := { replies := [.ok [.event (.frame answer) 0 1]] }
      let busy : Script TransportError :=
        { queue := [(0, .frame stale), (0, .frame foreign)]
          replies := [.ok [.event (.frame foreign) 0 2, .event (.frame answer) 0 1]] }
      let left := (client {} (by decide) patience).perform 5 ⟨0x2000, 0⟩ .upload quiet
      let right := (client {} (by decide) patience).perform 5 ⟨0x2000, 0⟩ .upload busy
      left.1 ≠ .error .unfinished ∧ left.1 = right.1 ∧ left.2.sent = right.2.sent := by
  refine foreign_frames_ignored {} (by decide) (by decide) 5 ⟨0x2000, 0⟩ .upload _ _
    ⟨rfl, by simp, by simp⟩ ⟨rfl, by simp, by simp⟩ rfl rfl ?_
  rfl

end Script
end Canopen
