import Canopen.Proofs.Line
import Canopen.Proofs.Service

/-!
The exchange of a request and its response on a line that loses requests only. The request is
sent until it arrives, and each retry is paid with a lost frame.
-/

set_option autoImplicit false

namespace Canopen

open Can (Message)
open Sdo (Request Response)

namespace Line

/-- Nothing is on its way, and the server is `srv` in some state of its transfers. -/
def Rests (l : Line) (srv : Server) (state : Server.State) : Prop :=
  l.inbox = [] ∧ ∃ k, l.server = srv.during state k

theorem send_answered {lost : Nat → Bool} {m : Message} {l : Line} {frames : List Message}
    {s : Server} (h : lost l.sent.length = false)
    (hs : l.server.handle m = { frames, device := s }) :
    l.send { request := lost } m =
      { l with server := s, inbox := l.inbox ++ frames, sent := l.sent ++ [m] } := by
  rw [send_of_handle h hs, survivors_eq_self fun _ => rfl]

theorem lost_or_answered (lost : Nat → Bool) {m : Message} {l : Line} {frames : List Message}
    {s : Server} (hs : l.server.handle m = { frames, device := s }) :
    l.send { request := lost } m = { l with sent := l.sent ++ [m] } ∧
        (l.send { request := lost } m).countLost lost = l.countLost lost + 1 ∨
      l.send { request := lost } m =
          { l with server := s, inbox := l.inbox ++ frames, sent := l.sent ++ [m] } ∧
        (l.send { request := lost } m).countLost lost = l.countLost lost := by
  rw [countLost_send]
  cases hlost : lost l.sent.length with
  | true => exact .inl ⟨send_of_lost hlost, rfl⟩
  | false => exact .inr ⟨send_answered hlost hs, rfl⟩

theorem objects_send_abort {x : Losses} {l : Line} {a : Sdo.Address} {code : UInt32}
    {node : NodeId} :
    (l.send x ((Request.abort a code).message node)).server.objects = l.server.objects := by
  cases h : x.request l.sent.length with
  | true => rw [send_of_lost h]
  | false =>
    obtain ⟨ws, hw⟩ := send_delivered (m := (Request.abort a code).message node) h
    rw [hw]
    exact Server.objects_handle_abort l.server a code node

/-- How a line with a client that has so many retries left has come on. Each retry was paid with
a lost frame; unless one was lost, these frames were sent and nothing else has happened. -/
structure Onward (lost : Nat → Bool) (l : Line) (retries : Nat) (m : Line) (left : Nat)
    (frames : List Message) : Prop where
  sent : l.sent.length ≤ m.sent.length
  used : left ≤ retries
  paid : retries + l.countLost lost ≤ left + m.countLost lost
  calm : m.countLost lost = l.countLost lost →
    m.now = l.now ∧ m.warnings = l.warnings ∧ m.sent = l.sent ++ frames

variable {lost : Nat → Bool} {l m n : Line} {i j k : Nat} {frames more : List Message}

theorem Onward.refl : Onward lost l i l i [] :=
  ⟨Nat.le_refl _, Nat.le_refl _, Nat.le_refl _, fun _ => ⟨rfl, rfl, (List.append_nil _).symm⟩⟩

theorem Onward.trans (h : Onward lost l i m j frames) (h' : Onward lost m j n k more) :
    Onward lost l i n k (frames ++ more) := by
  refine ⟨Nat.le_trans h.sent h'.sent, Nat.le_trans h'.used h.used, Nat.le_trans h.paid h'.paid,
    fun hl => ?_⟩
  have h1 := countLost_le lost h.sent
  have h2 := countLost_le lost h'.sent
  obtain ⟨hn, hw, hs⟩ := h.calm (by omega)
  obtain ⟨hn', hw', hs'⟩ := h'.calm (by omega)
  exact ⟨hn'.trans hn, hw'.trans hw, by rw [hs', hs, List.append_assoc]⟩

theorem Onward.withInbox (h : Onward lost l i m j frames) (inbox : List Message) :
    Onward lost l i { m with inbox } j frames :=
  ⟨h.sent, h.used, h.paid, h.calm⟩

theorem Onward.of_lost (h : Onward lost l i m j frames)
    (hl : l.countLost lost < m.countLost lost) : Onward lost l i m j more :=
  ⟨h.sent, h.used, h.paid, fun he => absurd he (Nat.ne_of_gt hl)⟩

theorem onward_send (lost : Nat → Bool) (i : Nat) {msg : Message} {frames : List Message}
    {s : Server} (hs : l.server.handle msg = { frames, device := s }) :
    Onward lost l i (l.send { request := lost } msg) i [msg] := by
  have hsent : l.sent.length ≤ (l.send { request := lost } msg).sent.length := by
    rw [sent_send, List.length_append]
    exact Nat.le_add_right _ _
  rcases lost_or_answered lost hs with ⟨-, hcount⟩ | ⟨hsend, hcount⟩
  · exact ⟨hsent, Nat.le_refl _, by omega, fun he => absurd he (by omega)⟩
  · refine ⟨hsent, Nat.le_refl _, by omega, fun _ => ?_⟩
    rw [hsend]
    exact ⟨rfl, rfl, rfl⟩

end Line

namespace Client

namespace Session

/-- The session has come on with these frames to where the server is `srv` in some state. -/
def Reached (lost : Nat → Bool) (s : Session Line) (srv : Server) (state : Server.State)
    (frames : List Message) (t : Session Line) : Prop :=
  Line.Onward lost s.world s.retries t.world t.retries frames ∧ t.world.Rests srv state

/-- The same at the end of a transfer. A server that has missed the last frame is not idle. -/
def Finished (lost : Nat → Bool) (s : Session Line) (srv : Server) (frames : List Message)
    (t : Session Line) : Prop :=
  Line.Onward lost s.world s.retries t.world t.retries frames ∧
    ∃ state, t.world.Rests srv state ∧
      (t.world.countLost lost = s.world.countLost lost → state = .idle)

def TimedOut (lost : Nat → Bool) (s : Session Line) (objects : Server.Dictionary) (e : Stop)
    (t : Session Line) : Prop :=
  (∃ k, e = .failed (.timeout k)) ∧
    s.retries + s.world.countLost lost < t.world.countLost lost ∧
    t.world.server.objects = objects

theorem Reached.trans {lost : Nat → Bool} {s t u : Session Line} {frames more : List Message}
    {srv : Server} {state : Server.State}
    (h' : t.Reached lost srv state more u)
    (h : Line.Onward lost s.world s.retries t.world t.retries frames) :
    s.Reached lost srv state (frames ++ more) u :=
  ⟨h.trans h'.1, h'.2⟩

theorem Reached.finished {lost : Nat → Bool} {s t : Session Line} {frames : List Message}
    {srv : Server} (h : s.Reached lost srv .idle frames t) : s.Finished lost srv frames t :=
  ⟨h.1, .idle, h.2, fun _ => rfl⟩

theorem Finished.trans {lost : Nat → Bool} {s t u : Session Line} {frames more : List Message}
    {srv : Server} (h' : t.Finished lost srv more u)
    (h : Line.Onward lost s.world s.retries t.world t.retries frames) :
    s.Finished lost srv (frames ++ more) u := by
  obtain ⟨hon, state, hrests, hidle⟩ := h'
  have h1 := Line.countLost_le lost h.sent
  have h2 := Line.countLost_le lost hon.sent
  exact ⟨h.trans hon, state, hrests, fun he => hidle (by omega)⟩

theorem TimedOut.trans {lost : Nat → Bool} {s t u : Session Line} {frames : List Message}
    {objects : Server.Dictionary} {e : Stop} (h' : t.TimedOut lost objects e u)
    (h : Line.Onward lost s.world s.retries t.world t.retries frames) :
    s.TimedOut lost objects e u :=
  ⟨h'.1, Nat.lt_of_le_of_lt h.paid h'.2.1, h'.2.2⟩

end Session

namespace Transfer

variable {lost : Nat → Bool} {s t : Session Line} {frames : List Message} {α : Type}
variable {Q Q' : α → Session Line → Prop} {objects : Server.Dictionary}

theorem Ends.after {y : Transfer Line α} (hy : Ends y t Q (t.TimedOut lost objects))
    (h : Line.Onward lost s.world s.retries t.world t.retries frames)
    (hq : ∀ a u, Q a u → Q' a u) : Ends y t Q' (s.TimedOut lost objects) :=
  hy.mono hq fun _ _ he => he.trans h

end Transfer

namespace Call

open Transfer

variable {lost : Nat → Bool} {c : Call Line} {s : Session Line}
variable {Q : Response → Session Line → Prop} {E : Stop → Session Line → Prop}

structure Setting (c : Call Line) (lost : Nat → Bool) (srv : Server) (switch : Bool) : Prop where
  link : c.link = Line.link { request := lost }
  node : c.node = srv.node
  faults : srv.faults = { switchProtocol := switch }
  interval : ∀ i, lost i = true → 0 < c.config.pollInterval
  patient : c.config.timeout < c.patience

variable {srv srv' : Server} {state state' : Server.State} {switch : Bool}

/-- A message was sent from the line `l`. It has been lost each time, or has been answered. -/
def Asked (lost : Nat → Bool) (l : Line) (retries : Nat) (srv : Server) (state : Server.State)
    (m : Message) (answers : List Message) (srv' : Server) (state' : Server.State) (w : Line)
    (n : Nat) : Prop :=
  Line.Onward lost l retries w n [m] ∧
    (w.Rests srv state ∧ retries + l.countLost lost < n + w.countLost lost ∧
        l.countLost lost < w.countLost lost ∨
      w.inbox = answers ∧ ∃ k, w.server = srv'.during state' k)

theorem asked_send {l w : Line} {retries n : Nat} {m : Message} {answers : List Message}
    (hr : w.Rests srv state)
    (hl : l.sent.length ≤ w.sent.length) (hu : n ≤ retries)
    (hn : retries + l.countLost lost ≤ n + w.countLost lost)
    (hw : w.countLost lost = l.countLost lost → w = l)
    (ha : ∀ k, (srv.during state k).handle m
      = { frames := answers, device := srv'.during state' (k + 1) }) :
    Asked lost l retries srv state m answers srv' state' (w.send { request := lost } m) n := by
  have hle := Line.countLost_le lost hl
  have hlen : (w.send { request := lost } m).sent.length = w.sent.length + 1 := by
    rw [Line.sent_send, List.length_append]
    rfl
  obtain ⟨hi, k, hk⟩ := hr
  have hhandle : w.server.handle m
      = { frames := answers, device := srv'.during state' (k + 1) } := by
    rw [hk]
    exact ha k
  rcases Line.lost_or_answered lost hhandle with ⟨hsend, hcount⟩ | ⟨hsend, hcount⟩
  · refine ⟨⟨by omega, hu, by omega, fun he => absurd he (by omega)⟩, .inl ⟨?_, by omega, by omega⟩⟩
    rw [hsend]
    exact ⟨hi, k, hk⟩
  · refine ⟨⟨by omega, hu, by omega, fun he => ?_⟩, .inr ?_⟩
    · rw [hsend, hw (by omega)]
      exact ⟨rfl, rfl, rfl⟩
    · rw [hsend]
      exact ⟨by rw [hi]; rfl, k + 1, rfl⟩

theorem ends_ask (h : c.Setting lost srv switch) (hs : s.world.Rests srv state)
    {m : Message} (q : Response) (srv' : Server) (state' : Server.State)
    (ha : ∀ k, (srv.during state k).handle m
      = { frames := [q.message c.node], device := srv'.during state' (k + 1) })
    (heard : ∀ w n d,
      s.Reached lost srv' state' [m] { s with world := w, retries := n, deadline := d } →
      Ends (c.readResponse (q.message c.node))
        { s with world := w, retries := n, deadline := d } Q E)
    (expired : ∀ e t, s.TimedOut lost srv.objects e t → E e t) :
    Ends (c.sendMessage m) s (fun _ t => Ends (c.await (c.sendMessage m)) t Q E) E := by
  rw [ends_sendMessage h.link]
  refine ends_await h.link
    (Asked lost s.world s.retries srv state m [q.message c.node] srv' state')
    ?_ (Nat.le_refl _) ?_ ?_ ?_ ?_
  · exact asked_send hs (Nat.le_refl _) (Nat.le_refl _) (Nat.le_refl _) (fun _ => rfl) ha
  -- What comes is the answer.
  · intro w n d a rest hJ hw
    obtain ⟨ho, ⟨⟨hi, -⟩, -, -⟩ | ⟨hi, hk⟩⟩ := hJ
    · rw [hi] at hw
      cases hw
    · rw [hi] at hw
      obtain ⟨rfl, rfl⟩ := List.cons.inj hw
      exact ⟨q.message_id c.node, heard _ n d ⟨ho.withInbox [], rfl, hk⟩⟩
  -- Nothing has come, so that the message was lost.
  · intro w n now ws hJ hi
    obtain ⟨ho, ⟨⟨-, hk⟩, hn, hl⟩ | ⟨hi', -⟩⟩ := hJ
    · have hn' : s.retries + s.world.countLost lost ≤ n + w.countLost lost := by omega
      exact asked_send ⟨hi, hk⟩ ho.sent (Nat.le_of_succ_le ho.used) hn'
        (fun he => absurd he (Nat.ne_of_gt hl)) ha
    · rw [hi] at hi'
      cases hi'
  · intro w d now ws k hJ hi
    obtain ⟨ho, ⟨⟨-, j, hj⟩, hn, hl⟩ | ⟨hi', -⟩⟩ := hJ
    · have hn' : s.retries + s.world.countLost lost < w.countLost lost := by omega
      have hobjects : w.server.objects = srv.objects := by
        rw [hj]
        rfl
      exact expired _ _ ⟨⟨k, rfl⟩, hn', hobjects⟩
    · rw [hi] at hi'
      cases hi'
  -- Time passes where a message was lost, and there is patience until the deadline.
  · intro t hq
    rcases hq with ⟨⟨w, r, ⟨-, ⟨-, -, hl⟩ | ⟨hi, -⟩⟩, hi'⟩, hz⟩ | hp
    · obtain ⟨i, hi⟩ := Line.exists_lost (Nat.zero_lt_of_lt hl)
      exact absurd (h.interval i hi) (Nat.not_lt.mpr (Nat.le_of_eq hz))
    · rw [hi] at hi'
      cases hi'
    · exact absurd h.patient (Nat.not_lt.mpr hp)

theorem ends_exchange (h : c.Setting lost srv switch) (hs : s.world.Rests srv state)
    (hst : ∀ t, state ≠ .downloadBlock t) {r : Request} {q : Response} (hr : r.Regular)
    (ha : ∀ k, (srv.during state k).proceed r
      = { frames := [q.message srv.node], device := srv'.during state' k })
    (hq : q.Regular)
    (heard : ∀ w n d,
      s.Reached lost srv' state' [r.message c.node]
        { s with world := w, retries := n, deadline := d } →
      Q q { s with world := w, retries := n, deadline := d })
    (expired : ∀ e t, s.TimedOut lost srv.objects e t → E e t) :
    Ends (c.exchange r) s Q E := by
  rw [exchange]
  simp only [ends_bind]
  refine ends_ask h hs q srv' state' (fun k => ?_) (fun w n d ht => ?_) expired
  · rw [h.node, Server.handle_request h.faults hst hr, ha]
  · rw [ends_readResponse (Response.ofMessage_message c.node hq.fits hq.tidy) hq.goes]
    exact heard w n d ht

theorem ends_exchange_refused (h : c.Setting lost srv switch) (hs : s.world.Rests srv state)
    (hst : ∀ t, state ≠ .downloadBlock t) {r : Request} (hr : r.Regular) {a : Sdo.Address}
    {code : Sdo.AbortCode}
    (ha : ∀ k, (srv.during state k).proceed r = (srv.during .idle k).refuse a code)
    (refused : ∀ t, s.Reached lost srv .idle [r.message c.node] t →
      E (.failed (.serverAbort a (Sdo.AbortReason.ofCode code.code))) t)
    (expired : ∀ e t, s.TimedOut lost srv.objects e t → E e t) :
    Ends (c.exchange r) s Q E := by
  rw [exchange]
  simp only [ends_bind]
  refine ends_ask h hs (.abortWith a code) srv .idle (fun k => ?_) (fun w n d ht => ?_) expired
  · rw [h.node, Server.handle_request h.faults hst hr, ha]
    rfl
  · rw [ends_readResponse_abort h.link
      (Response.ofMessage_message c.node (r := .abortWith a code) trivial trivial)]
    exact refused _ ht

end Call
end Client
end Canopen
