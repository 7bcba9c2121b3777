import Canopen.Proofs.Exchange

/-!
The exchange of a request and its response on a line that loses frames of both sides. A request
may now come twice, and the server may be ahead of the client. What is shown here is only of
values: a transfer may fail in any way.
-/

set_option autoImplicit false

namespace Canopen

open Can (Message)
open Sdo (Request Response AbortCode)

namespace Server

/-- The server is the same as before, but for the state of its transfers. -/
abbrev Reacts (s : Server) (state : State) (m : Message) (frames : List Message)
    (state' : State) : Prop :=
  s.Responds state m frames s state'

variable {s : Server} {switch : Bool} {state : State} {r : Request}

def Refuses (s : Server) (state : State) (m : Message) : Prop :=
  ∃ a code, s.Reacts state m [(Response.abort a code).message s.node] .idle

theorem refuses_of_proceed (hf : s.faults = { switchProtocol := switch })
    (hs : ∀ t, state ≠ .downloadBlock t) (hr : r.Regular) {a : Sdo.Address} {code : AbortCode}
    (h : ∀ k, ∃ rs, (s.during state k).proceed r =
      { (s.during .idle k).refuse a code with effects := rs }) :
    s.Refuses state (r.message s.node) := by
  refine ⟨a, code.code, fun k => ?_⟩
  obtain ⟨rs, h⟩ := h (k + 1)
  rw [handle_request hf hs hr, h]
  exact ⟨rs, rfl⟩

end Server

namespace Line

variable {x : Losses} {l : Line} {srv : Server} {state state' : Server.State} {m : Message}
variable {frames : List Message} {k : Nat}

theorem send_cases (hk : l.server = srv.during state k) (h : srv.Reacts state m frames state') :
    ((l.send x m).inbox = l.inbox ∧ ∃ j, (l.send x m).server = srv.during state j) ∨
      ∃ ms, ms.Sublist frames ∧ (l.send x m).inbox = l.inbox ++ ms ∧
        ∃ j, (l.send x m).server = srv.during state' j := by
  cases hlost : x.request l.sent.length with
  | true =>
    rw [send_of_lost hlost]
    exact .inl ⟨rfl, k, hk⟩
  | false =>
    obtain ⟨ws, hsend⟩ := send_delivered (m := m) hlost
    obtain ⟨rs, hhandle⟩ := h k
    rw [hk, hhandle] at hsend
    rw [hsend]
    exact .inr ⟨_, survivors_sublist _ 0 frames, rfl, k + 1, rfl⟩

/-- What frame number `n` of the client comes to when it finds the server to be `s`. It is lost; or
there is no answer, or one that is lost; or the answer arrives. Of a server that is not heard `P`
holds again, of a good answer `G`. -/
structure Meets (x : Losses) (node : NodeId) (P : Nat → Server → Prop)
    (G : Response → Nat → Server → Prop) (m : Message) (n : Nat) (s : Server) : Prop where
  lost : x.request n = true → P (n + 1) s
  taken : x.request n = false →
    (s.handle m).frames = [] ∧ P (n + 1) (s.handle m).device ∨
      ∃ q : Response, (s.handle m).frames = [q.message node] ∧
        (x.answer n 0 = true → P (n + 1) (s.handle m).device) ∧
          (x.answer n 0 = false →
            (∃ a code, q = .abort a code) ∨ q.Regular ∧ G q (n + 1) (s.handle m).device)

/-- Nothing is on its way to the client, or one answer is. -/
def Awaits (node : NodeId) (P : Nat → Server → Prop) (G : Response → Nat → Server → Prop)
    (l : Line) : Prop :=
  l.inbox = [] ∧ P l.sent.length l.server ∨
    ∃ q : Response, l.inbox = [q.message node] ∧
      ((∃ a code, q = .abort a code) ∨ q.Regular ∧ G q l.sent.length l.server)

theorem Meets.send {node : NodeId} {P : Nat → Server → Prop} {G : Response → Nat → Server → Prop}
    (h : Meets x node P G m l.sent.length l.server) (hi : l.inbox = []) :
    Awaits node P G (l.send x m) := by
  have hlength : (l.send x m).sent.length = l.sent.length + 1 := by
    rw [sent_send, List.length_append]
    rfl
  unfold Awaits
  rw [hlength]
  cases hlost : x.request l.sent.length with
  | true =>
    rw [send_of_lost hlost]
    exact .inl ⟨hi, h.lost hlost⟩
  | false =>
    obtain ⟨ws, hsend⟩ := send_delivered (m := m) hlost
    rw [hsend, hi]
    rcases h.taken hlost with ⟨hframes, hP⟩ | ⟨q, hframes, hunheard, hheard⟩
    · rw [hframes]
      exact .inl ⟨rfl, hP⟩
    · rw [hframes]
      simp only [survivors, List.nil_append]
      cases hanswer : x.answer l.sent.length 0 with
      | true => exact .inl ⟨rfl, hunheard hanswer⟩
      | false => exact .inr ⟨q, rfl, hheard hanswer⟩

end Line

namespace Client.Call

open Transfer

variable {x : Losses} {c : Call Line} {s : Session Line} {srv : Server} {state : Server.State}
variable {α : Type}

theorem ends_abandon (hc : c.link = Line.link x) (code : AbortCode) (e : Error)
    {Q : α → Session Line → Prop} :
    Ends (c.abandon code e : Transfer Line α) s Q fun _ _ => True := by
  rw [abandon]
  simp only [ends_bind]
  exact ends_abort hc fun ws d => trivial

theorem ends_unexpected_lossy (hc : c.link = Line.link x) (r : Response)
    {Q : α → Session Line → Prop} :
    Ends (c.unexpected r : Transfer Line α) s Q fun _ _ => True := by
  rw [unexpected]
  simp only [ends_bind]
  rw [ends_warn hc]
  exact ends_abandon hc _ _

structure Exposed (c : Call Line) (x : Losses) (srv : Server) : Prop where
  link : c.link = Line.link x
  node : c.node = srv.node
  faults : srv.faults = { switchProtocol := false }
  blockSize : 0 < c.config.blockSize.toNat ∧ c.config.blockSize.toNat ≤ 127

theorem ends_ask_lossy (hc : c.link = Line.link x) {m : Message} {P : Nat → Server → Prop}
    {G : Response → Nat → Server → Prop} (hi : s.world.inbox = [])
    (hP : P s.world.sent.length s.world.server)
    (meets : ∀ n s, P n s → Line.Meets x c.node P G m n s) {Q : Response → Session Line → Prop}
    (heard : ∀ q w n d, w.inbox = [] → G q w.sent.length w.server →
      Q q { s with world := w, retries := n, deadline := d }) :
    Ends (c.sendMessage m) s
      (fun _ t => Ends (c.await (c.sendMessage m)) t Q fun _ _ => True) fun _ _ => True := by
  rw [ends_sendMessage hc]
  refine ends_await hc (fun w _ => w.Awaits c.node P G) ((meets _ _ hP).send hi) (Nat.le_refl _)
    ?_ ?_ (fun _ _ _ _ _ _ _ => trivial) fun _ _ => trivial
  · intro w n d a rest hw ha
    rcases hw with ⟨hi', -⟩ | ⟨q, hi', hq⟩
    · rw [hi'] at ha
      cases ha
    · rw [hi'] at ha
      obtain ⟨rfl, rfl⟩ := List.cons.inj ha
      refine ⟨q.message_id c.node, ?_⟩
      rcases hq with ⟨a, code, rfl⟩ | ⟨hq, hgood⟩
      · rw [ends_readResponse_abort hc
          (Response.ofMessage_message c.node (r := .abort a code) trivial trivial)]
        trivial
      · rw [ends_readResponse (Response.ofMessage_message c.node hq.fits hq.tidy) hq.goes]
        exact heard q _ n d rfl hgood
  · intro w n now ws hw hi'
    rcases hw with ⟨-, hP'⟩ | ⟨q, hi'', -⟩
    · exact Line.Meets.send (l := { w with now, warnings := ws }) (meets _ _ hP') hi'
    · rw [hi''] at hi'
      cases hi'

/-- An exchange, by what the server may be like while it lasts, and what is a good answer. -/
theorem ends_exchange_lossy (h : c.Exposed x srv)
    (P : Server.State → Prop) (G : Response → Server.State → Prop) {r : Request}
    (hs : s.world.Rests srv state) (hstate : P state)
    (reacts : ∀ st, P st → ∃ (q : Response) (st' : Server.State),
      srv.Reacts st (r.message srv.node) [q.message srv.node] st' ∧ P st' ∧
        ((∃ a code, q = .abort a code) ∨ q.Regular ∧ G q st'))
    {Q : Response → Session Line → Prop}
    (heard : ∀ q st w n d, G q st → w.Rests srv st →
      Q q { s with world := w, retries := n, deadline := d }) :
    Ends (c.exchange r) s Q fun _ _ => True := by
  obtain ⟨hi, k, hk⟩ := hs
  rw [exchange]
  simp only [ends_bind]
  refine ends_ask_lossy h.link (P := fun _ s => ∃ st k, s = srv.during st k ∧ P st)
    (G := fun q _ s => ∃ st k, s = srv.during st k ∧ G q st) hi ⟨state, k, hk, hstate⟩ ?_ ?_
  · rintro n _ ⟨st, k, rfl, hst⟩
    refine ⟨fun _ => ⟨st, k, rfl, hst⟩, fun _ => ?_⟩
    obtain ⟨q, st', hreacts, hst', hq⟩ := reacts st hst
    obtain ⟨rs, hhandle⟩ := hreacts k
    rw [h.node, hhandle]
    refine .inr ⟨q, rfl, fun _ => ⟨st', k + 1, rfl, hst'⟩, fun _ => ?_⟩
    exact hq.imp_right fun hq => ⟨hq.1, st', k + 1, rfl, hq.2⟩
  · rintro q w n d hi ⟨st, k, hk, hG⟩
    exact heard q st w n d hG ⟨hi, k, hk⟩

theorem ends_exchange_refused_lossy (h : c.Exposed x srv) {r : Request} (hr : r.Regular)
    (hs : s.world.Rests srv .idle)
    {a : Sdo.Address} {code : AbortCode}
    (ha : ∀ k, (srv.during .idle k).proceed r = (srv.during .idle k).refuse a code)
    {Q : Response → Session Line → Prop} : Ends (c.exchange r) s Q fun _ _ => True := by
  refine ends_exchange_lossy h (· = .idle) (fun _ _ => False) hs rfl ?_
    fun _ _ _ _ _ h => h.elim
  intro st h
  subst h
  obtain ⟨a, code, hreacts⟩ := Server.refuses_of_proceed h.faults (by simp) hr
    fun k => ⟨[], ha k⟩
  exact ⟨_, _, hreacts, rfl, .inl ⟨a, code, rfl⟩⟩

theorem ends_checkSize_lossy (hc : c.link = Line.link x) {Q : Unit → Session Line → Prop}
    (fits : (∀ n, s.announced = some (n + 1) → n + 1 = s.transferred) → Q () s) :
    Ends c.checkSize s Q fun _ _ => True := by
  rw [checkSize]
  simp only [ends_bind, ends_get]
  split
  · rename_i hn
    refine fits fun n hs => ?_
    rw [hn] at hs
    cases hs
  · rename_i hz
    refine fits fun n hs => ?_
    rw [hz] at hs
    cases hs
  · rename_i n hzero hn
    split
    · exact ends_abandon hc _ _
    · rename_i heq
      refine fits fun k hs => ?_
      rw [hn] at hs
      have hsize : n = s.transferred := Decidable.not_not.mp heq
      rw [← hsize]
      exact (Option.some.inj hs).symm

end Client.Call
end Canopen
