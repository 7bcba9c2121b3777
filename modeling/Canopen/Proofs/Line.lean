import Canopen.Client.Transfer
import Canopen.Server
import Canopen.Proofs.Ends
import Canopen.Proofs.Framing

/-!
A client and a server with nothing but a line between them. What one side sends is with the other
at once, in order, or is lost. Time passes only while the client sleeps.
-/

set_option autoImplicit false

namespace Canopen

open Can (Message)
open Sdo (Response)

structure Losses where
  /-- Whether frame number `i` of the client is lost, counted from zero. -/
  request : Nat → Bool := fun _ => false
  /-- Whether frame number `k` of the answer to frame number `i` of the client is lost. -/
  answer : Nat → Nat → Bool := fun _ _ => false

/-- Frames are kept with the oldest one first. -/
structure Line where
  server : Server
  inbox : List Message := []
  sent : List Message := []
  now : Nat := 0
  warnings : List Record := []

namespace Line

def survivors (lost : Nat → Bool) (k : Nat) : List Message → List Message
  | [] => []
  | m :: ms => if lost k then survivors lost (k + 1) ms else m :: survivors lost (k + 1) ms

def note (r : Record) (l : Line) : Line :=
  if r.level = .warn then { l with warnings := l.warnings ++ [r] } else l

/-- The server answers at once. -/
def send (x : Losses) (m : Message) (l : Line) : Line :=
  if x.request l.sent.length then { l with sent := l.sent ++ [m] }
  else
    let r := l.server.handle m
    r.effects.foldl (fun l r => l.note r)
      { l with
        server := r.device
        inbox := l.inbox ++ survivors (x.answer l.sent.length) 0 r.frames
        sent := l.sent ++ [m] }

def receive (l : Line) : Option Message × Line :=
  match l.inbox with
  | m :: rest => (some m, { l with inbox := rest })
  | [] => (none, l)

def link (x : Losses) : Client.Link Line where
  send m l := (.ok (), l.send x m)
  receive l := (.ok l.receive.1, l.receive.2)
  backlog l := l.inbox.length
  note := note
  now := (·.now)
  sleep t l := { l with now := l.now + t }
  cancelled _ := false
  resume l := l

/-- How many frames of the client were lost. -/
def countLost (lost : Nat → Bool) (l : Line) : Nat := (List.range l.sent.length).countP lost

theorem survivors_sublist (lost : Nat → Bool) (k : Nat) (ms : List Message) :
    (survivors lost k ms).Sublist ms := by
  induction ms generalizing k with
  | nil => exact .slnil
  | cons m ms ih =>
    rw [survivors]
    split
    · exact (ih (k + 1)).cons m
    · exact (ih (k + 1)).cons_cons m

theorem survivors_eq_self {lost : Nat → Bool} (h : ∀ k, lost k = false) (k : Nat)
    (ms : List Message) : survivors lost k ms = ms := by
  induction ms generalizing k with
  | nil => rfl
  | cons m ms ih => simp [survivors, h, ih]

theorem send_of_lost {x : Losses} {m : Message} {l : Line} (h : x.request l.sent.length = true) :
    l.send x m = { l with sent := l.sent ++ [m] } := by
  simp [send, h]

theorem foldl_note (rs : List Record) (l : Line) :
    ∃ ws, rs.foldl (fun l r => l.note r) l = { l with warnings := ws } := by
  induction rs generalizing l with
  | nil => exact ⟨l.warnings, rfl⟩
  | cons r rs ih =>
    obtain ⟨ws, h⟩ := ih (l.note r)
    refine ⟨ws, h.trans ?_⟩
    unfold note
    split <;> rfl

theorem send_delivered {x : Losses} {m : Message} {l : Line}
    (h : x.request l.sent.length = false) :
    ∃ ws, l.send x m =
      { l with
        server := (l.server.handle m).device
        inbox := l.inbox ++ survivors (x.answer l.sent.length) 0 (l.server.handle m).frames
        sent := l.sent ++ [m]
        warnings := ws } := by
  rw [send, if_neg (by simp [h])]
  exact foldl_note _ _

theorem send_of_handle {x : Losses} {m : Message} {l : Line} {frames : List Message} {s : Server}
    (h : x.request l.sent.length = false)
    (hs : l.server.handle m = { frames, device := s }) :
    l.send x m =
      { l with
        server := s
        inbox := l.inbox ++ survivors (x.answer l.sent.length) 0 frames
        sent := l.sent ++ [m] } := by
  simp [send, h, hs]

theorem sent_send {x : Losses} {l : Line} {m : Message} :
    (l.send x m).sent = l.sent ++ [m] := by
  cases h : x.request l.sent.length with
  | true => rw [send_of_lost h]
  | false =>
    obtain ⟨ws, hw⟩ := send_delivered (m := m) h
    rw [hw]

theorem countLost_send {x : Losses} {l : Line} {m : Message} {lost : Nat → Bool} :
    (l.send x m).countLost lost = l.countLost lost + if lost l.sent.length then 1 else 0 := by
  simp [countLost, sent_send, List.range_succ, List.countP_append, List.countP_cons]

theorem countLost_le (lost : Nat → Bool) {l m : Line} (h : l.sent.length ≤ m.sent.length) :
    l.countLost lost ≤ m.countLost lost := by
  obtain ⟨d, hd⟩ := Nat.exists_eq_add_of_le h
  rw [countLost, countLost, hd, List.range_add, List.countP_append]
  exact Nat.le_add_right _ _

theorem exists_lost {lost : Nat → Bool} {l : Line} (h : 0 < l.countLost lost) :
    ∃ i, lost i = true := by
  obtain ⟨i, -, hi⟩ := List.countP_pos_iff.mp h
  exact ⟨i, hi⟩

end Line

namespace Client.Call

open Transfer

variable {x : Losses} {c : Call Line} {s : Session Line}

theorem ends_note (hc : c.link = Line.link x) (level : Level) (h : level ≠ .warn := by decide)
    (text : String) {Q : Unit → Session Line → Prop} {E : Stop → Session Line → Prop} :
    Ends (c.note level text) s Q E ↔ Q () s := by
  simp [note, hc, Line.link, Line.note, h]

theorem ends_warn (hc : c.link = Line.link x) (text : String)
    {Q : Unit → Session Line → Prop} {E : Stop → Session Line → Prop} :
    Ends (c.note .warn text) s Q E ↔
    Q () { s with world := { s.world with warnings := s.world.warnings ++ [⟨.warn, text⟩] } } := by
  simp [note, hc, Line.link, Line.note]

theorem ends_sendMessage (hc : c.link = Line.link x) (m : Message)
    {Q : Unit → Session Line → Prop} {E : Stop → Session Line → Prop} :
    Ends (c.sendMessage m) s Q E ↔
      Q () { s with
        world := s.world.send x m
        deadline := (s.world.send x m).now + c.config.timeout } := by
  simp only [sendMessage, trySend, ends_bind, ends_note hc .trace,
    ends_act]
  simp [hc, Line.link, restartDeadline, Except.isOk, Except.toBool]

theorem ends_receive (hc : c.link = Line.link x)
    {Q : Option Message → Session Line → Prop} {E : Stop → Session Line → Prop} :
    Ends c.receive s Q E ↔ Q s.world.receive.1 { s with world := s.world.receive.2 } := by
  simp [receive, hc, Line.link]

theorem ends_overdue (hc : c.link = Line.link x)
    {Q : Bool → Session Line → Prop} {E : Stop → Session Line → Prop} :
    Ends c.overdue s Q E ↔ Q (s.deadline ≤ s.world.now) s := by
  simp [overdue, hc, Line.link]

theorem ends_poll_nil (hc : c.link = Line.link x) {n : Nat} (hi : s.world.inbox = [])
    {Q : Option Message → Session Line → Prop} {E : Stop → Session Line → Prop} :
    Ends (c.poll (n + 1)) s Q E ↔
      if s.deadline ≤ s.world.now then Q none s
      else Ends (c.poll n)
        { s with world := { s.world with now := s.world.now + c.config.pollInterval } } Q E := by
  have hx : c.link.cancelled s.world = false := by rw [hc]; rfl
  have hr : s.world.receive = (none, s.world) := by simp [Line.receive, hi]
  rw [poll]
  simp only [ends_bind, ends_get, hx, Bool.false_eq_true, if_false, ends_receive hc, hr,
    ends_overdue hc, decide_eq_true_eq]
  split
  · rfl
  · simp only [ends_bind, ends_act, hc, Line.link]

theorem ends_poll_cons (hc : c.link = Line.link x) {n : Nat} {m : Message} {rest : List Message}
    (hi : s.world.inbox = m :: rest) (hm : m.id = c.node.responseId)
    {Q : Option Message → Session Line → Prop} {E : Stop → Session Line → Prop} :
    Ends (c.poll (n + 1)) s Q E ↔
      Q (some m) { s with world := { s.world with inbox := rest } } := by
  have hx : c.link.cancelled s.world = false := by rw [hc]; rfl
  have hr : s.world.receive = (some m, { s.world with inbox := rest }) := by
    simp [Line.receive, hi]
  rw [poll]
  simp only [ends_bind, ends_get, hx, Bool.false_eq_true, if_false, ends_receive hc, hr, hm,
    if_true, ends_note hc .trace, ends_pure]

theorem ends_poll_silent (hc : c.link = Line.link x) {n : Nat} (hi : s.world.inbox = []) :
    Ends (c.poll n) s
      (fun r t => r = none ∧ ∃ now, t = { s with world := { s.world with now } } ∧
        s.world.now ≤ now ∧ s.deadline ≤ now)
      (fun e _ => e = .unfinished ∧
        (c.config.pollInterval = 0 ∨ n ≤ s.deadline - s.world.now)) := by
  induction n generalizing s with
  | zero => exact ⟨rfl, .inr (Nat.zero_le _)⟩
  | succ n ih =>
    rw [ends_poll_nil hc hi]
    split
    · rename_i h
      exact ⟨rfl, s.world.now, rfl, Nat.le_refl _, h⟩
    · rename_i h
      let w := { s.world with now := s.world.now + c.config.pollInterval }
      refine (ih (s := { s with world := w }) hi).mono ?_ ?_
      · intro r t hq
        obtain ⟨rfl, now, rfl, hle, hd⟩ := hq
        have hle' : s.world.now + c.config.pollInterval ≤ now := hle
        exact ⟨rfl, now, rfl, by omega, hd⟩
      · intro e t hq
        obtain ⟨rfl, hz | hle⟩ := hq
        · exact ⟨rfl, .inl hz⟩
        · have hle' : n ≤ s.deadline - (s.world.now + c.config.pollInterval) := hle
          exact ⟨rfl, by omega⟩

theorem ends_nextMessage_cons (hc : c.link = Line.link x) {m : Message} {rest : List Message}
    (hi : s.world.inbox = m :: rest) (hm : m.id = c.node.responseId)
    {Q : Option Message → Session Line → Prop} {E : Stop → Session Line → Prop}
    (taken : Q (some m) { s with world := { s.world with inbox := rest } })
    (unfinished : c.patience = 0 → E .unfinished s) : Ends c.nextMessage s Q E := by
  rw [nextMessage]
  cases hp : c.patience with
  | zero => exact unfinished hp
  | succ n =>
    rw [ends_poll_cons hc hi hm]
    exact taken

theorem ends_nextMessage_nil (hc : c.link = Line.link x) (hi : s.world.inbox = [])
    (hd : s.deadline ≤ s.world.now + c.config.timeout)
    {Q : Option Message → Session Line → Prop} {E : Stop → Session Line → Prop}
    (silent : ∀ now, Q none { s with world := { s.world with now } })
    (unfinished : ∀ t, c.config.pollInterval = 0 ∨ c.patience ≤ c.config.timeout →
      E .unfinished t) : Ends c.nextMessage s Q E := by
  refine (ends_poll_silent hc hi).mono ?_ ?_
  · intro r t hq
    obtain ⟨rfl, now, rfl, -, -⟩ := hq
    exact silent now
  · intro e t hq
    obtain ⟨rfl, hz | hle⟩ := hq
    · exact unfinished t (.inl hz)
    · exact unfinished t (.inr (by omega))

theorem ends_awaitRounds (hc : c.link = Line.link x) {resend : Transfer Line Unit} {k : UInt32}
    {n : Nat} {Q : Response → Session Line → Prop} {E : Stop → Session Line → Prop}
    (hd : s.deadline ≤ s.world.now + c.config.timeout)
    (heard : ∀ a rest, s.world.inbox = a :: rest → a.id = c.node.responseId ∧
      Ends (c.readResponse a) { s with world := { s.world with inbox := rest } } Q E)
    (silent : s.world.inbox = [] → ∀ now,
      Ends (c.takeRetry k) { s with world := { s.world with now } }
        (fun _ t => Ends resend t (fun _ t => Ends (c.awaitRounds resend (k + 1) n) t Q E) E) E)
    (unfinished : ∀ t, s.world.inbox = [] ∧ c.config.pollInterval = 0 ∨
      c.patience ≤ c.config.timeout → E .unfinished t) :
    Ends (c.awaitRounds resend k (n + 1)) s Q E := by
  rw [awaitRounds, nextResponse]
  simp only [ends_bind]
  cases hi : s.world.inbox with
  | nil =>
    refine ends_nextMessage_nil hc hi hd (fun now => ?_) fun t ht =>
      unfinished t (ht.imp_left fun hz => ⟨hi, hz⟩)
    simp only [ends_bind, ends_pure]
    exact silent hi now
  | cons a rest =>
    obtain ⟨ha, hr⟩ := heard a rest hi
    refine ends_nextMessage_cons hc hi ha ?_ fun hp => unfinished s (.inr (by omega))
    simp only [ends_map, ends_pure]
    exact hr

theorem ends_takeRetry_zero (hc : c.link = Line.link x) {k : UInt32} (h : s.retries = 0)
    {Q : Unit → Session Line → Prop} {E : Stop → Session Line → Prop}
    (fails : ∀ ws, E (.failed (.timeout k))
      { s with world := { s.world with warnings := ws }, retries := 0 }) :
    Ends (c.takeRetry k) s Q E := by
  simp only [takeRetry, ends_bind, ends_get, h, ends_warn hc, ends_fail]
  exact fails _

theorem ends_takeRetry_succ (hc : c.link = Line.link x) {k : UInt32} {r : Nat}
    (h : s.retries = r + 1)
    {Q : Unit → Session Line → Prop} {E : Stop → Session Line → Prop}
    (goes : ∀ ws, Q () { s with world := { s.world with warnings := ws }, retries := r }) :
    Ends (c.takeRetry k) s Q E := by
  simp only [takeRetry, ends_bind, ends_get, h, ends_modify, ends_warn hc]
  exact goes _

/-- What a wait for a response comes to, by an invariant `J` of the line and the number of
retries left. -/
theorem ends_await (hc : c.link = Line.link x) {m : Message} (J : Line → Nat → Prop)
    {Q : Response → Session Line → Prop} {E : Stop → Session Line → Prop}
    (start : J s.world s.retries) (hd : s.deadline ≤ s.world.now + c.config.timeout)
    (heard : ∀ w r d a rest, J w r → w.inbox = a :: rest → a.id = c.node.responseId ∧
      Ends (c.readResponse a)
        { s with world := { w with inbox := rest }, retries := r, deadline := d } Q E)
    (resent : ∀ w r now ws, J w (r + 1) → w.inbox = [] →
      J (({ w with now, warnings := ws } : Line).send x m) r)
    (expired : ∀ w d now ws k, J w 0 → w.inbox = [] →
      E (.failed (.timeout k))
        { s with world := { w with now, warnings := ws }, retries := 0, deadline := d })
    (unfinished : ∀ t, (∃ w r, J w r ∧ w.inbox = []) ∧ c.config.pollInterval = 0 ∨
      c.patience ≤ c.config.timeout → E .unfinished t) :
    Ends (c.await (c.sendMessage m)) s Q E := by
  have rounds : ∀ r w d k, J w r → d ≤ w.now + c.config.timeout →
      Ends (c.awaitRounds (c.sendMessage m) k (r + 1))
        { s with world := w, retries := r, deadline := d } Q E := by
    intro r
    -- There is a round for each retry and one more, so that the rounds do not run out first.
    induction r with
    | zero =>
      intro w d k hJ hd
      refine ends_awaitRounds hc hd (fun a rest hi => heard w 0 d a rest hJ hi) ?_
        fun t ht => unfinished t (ht.imp_left fun h => ⟨⟨w, 0, hJ, h.1⟩, h.2⟩)
      intro hi now
      exact ends_takeRetry_zero hc rfl fun ws => expired w d now ws k hJ hi
    | succ r ih =>
      intro w d k hJ hd
      refine ends_awaitRounds hc hd (fun a rest hi => heard w _ d a rest hJ hi) ?_
        fun t ht => unfinished t (ht.imp_left fun h => ⟨⟨w, _, hJ, h.1⟩, h.2⟩)
      intro hi now
      refine ends_takeRetry_succ hc rfl fun ws => ?_
      rw [ends_sendMessage hc]
      exact ih _ _ _ (resent w r now ws hJ hi) (Nat.le_refl _)
  rw [await]
  simp only [ends_bind, ends_get]
  exact rounds _ _ _ _ start hd

theorem ends_readResponse_abort (hc : c.link = Line.link x) {m : Message} {a : Sdo.Address}
    {code : UInt32} (h : Response.ofMessage m = .ok (.abort a code))
    {Q : Response → Session Line → Prop} {E : Stop → Session Line → Prop} :
    Ends (c.readResponse m) s Q E ↔
      E (.failed (.serverAbort a (Sdo.AbortReason.ofCode code))) s := by
  rw [readResponse, h]
  simp only [ends_bind, ends_note hc .debug, ends_fail]

theorem ends_abort (hc : c.link = Line.link x) {code : Sdo.AbortCode}
    {Q : Unit → Session Line → Prop} {E : Stop → Session Line → Prop}
    (goes : ∀ ws d, Q () { s with
      world := ({ s.world with warnings := ws } : Line).send x
        ((Sdo.Request.abortWith c.target code).message c.node)
      deadline := d }) :
    Ends (c.abort code) s Q E := by
  rw [abort]
  simp only [ends_bind, ends_warn hc, trySend, ends_note hc .trace,
    ends_act]
  simp [hc, Line.link, restartDeadline, Except.isOk, Except.toBool]
  exact goes _ _

end Client.Call
end Canopen
