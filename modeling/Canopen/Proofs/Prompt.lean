import Canopen.Proofs.Ends
import Canopen.Proofs.Service

/-!
Links on which a server answers at once. Nothing is lost on them but the end of an answer that is
too long, so a client only waits in vain where nothing is to come.
-/

set_option autoImplicit false

namespace Canopen

open Can (Message)
open Sdo

namespace Server

theorem responds_abort {s : Server} (hf : s.faults = {}) {node : NodeId} (hn : node = s.node)
    (state : State) (a : Address) (code : UInt32) :
    s.Responds state ((Request.abort a code).message node) []
      { s with lastAbort := some (a, code) } .idle := by
  subst hn
  have hattentive : s.faults.Attentive := hf ▸ Faults.attentive_switching false
  have hhead : ((Request.abort a code).message s.node).data.get 0 = 0x80 := by
    refine (Frame.build_payload_head .client s.node .abort (Request.abort a code).toBytes).trans ?_
    rfl
  intro k
  have hread : (s.during state (k + 1)).readRequest ((Request.abort a code).message s.node)
      = { device := Server.during { s with lastAbort := some (a, code) } .idle (k + 1) } := by
    rw [readRequest, Request.ofMessage_message s.node (r := .abort a code) trivial trivial]
    rfl
  refine ⟨[], ?_⟩
  rw [handle_eq_read_of_attentive hattentive (Request.message_id _ s.node), read]
  cases state with
  | downloadBlock t => exact (if_pos hhead).trans hread
  | _ => exact hread

end Server

namespace Client

variable {σ α : Type}

/-- In the view `V`, a world shows a server and what is on its way to a client. The server answers
at once, and of an answer the first `room` frames stay. -/
structure Link.Prompt (a : Link σ) (node : NodeId) (room : Nat)
    (V : σ → Server → List Message → Prop) : Prop where
  note : ∀ {w srv ms}, V w srv ms → ∀ r, V (a.note r w) srv ms ∧ a.now (a.note r w) = a.now w
  send : ∀ {w srv}, V w srv [] → ∀ m : Message, m.id = node.requestId →
    (srv.handle m).frames.length ≤ 127 →
    (a.send m w).1 = .ok () ∧
      V (a.send m w).2 (srv.handle m).device ((srv.handle m).frames.take room)
  receive : ∀ {w srv ms}, V w srv ms →
    (a.receive w).1 = .ok ms.head? ∧ V (a.receive w).2 srv ms.tail ∧
      a.now (a.receive w).2 = a.now w
  sleep : ∀ {w srv ms}, V w srv ms → ∀ t,
    V (a.sleep t w) srv ms ∧ a.now (a.sleep t w) = a.now w + t
  cancelled : ∀ {w srv ms}, V w srv ms → a.cancelled w = false
  resume : ∀ {w srv ms}, V w srv ms → V (a.resume w) srv ms

namespace Call

open Transfer

/-- A call over such a link, with patience until the deadline. Two halves of a block are kept if
they come one after the other. -/
structure Prompt (c : Call σ) (room : Nat) (V : σ → Server → List Message → Prop) : Prop where
  link : c.link.Prompt c.node room V
  roomy : 64 ≤ room
  interval : 0 < c.config.pollInterval
  patient : c.config.timeout < c.patience

structure Faces (c : Call σ) (srv : Server) : Prop where
  node : c.node = srv.node
  faults : srv.faults = {}

/-- The call has come to where this server is in some state of its transfers, and these messages
are on their way. -/
def Sees (c : Call σ) (V : σ → Server → List Message → Prop) (s : Session σ) (srv : Server)
    (state : Server.State) (ms : List Message) : Prop :=
  (∃ k, V s.world (srv.during state k) ms) ∧ s.deadline ≤ c.link.now s.world + c.config.timeout

variable {c : Call σ} {room : Nat} {V : σ → Server → List Message → Prop}
variable {srv srv' : Server} {state state' : Server.State} {s : Session σ} {ms : List Message}

theorem Sees.of_eq {t : Session σ} (h : c.Sees V s srv state ms) (hw : t.world = s.world)
    (hd : t.deadline = s.deadline) : c.Sees V t srv state ms := by
  rw [Sees, hw, hd]
  exact h

namespace Faces

theorem responds (hc : c.Faces srv) (hs : ∀ t, state ≠ .downloadBlock t) {r : Request}
    (hr : r.Regular) {frames : List Message}
    (h : ∀ k, (srv.during state k).proceed r = { frames, device := srv'.during state' k }) :
    srv.Responds state (r.message c.node) frames srv' state' :=
  hc.node ▸ Server.responds_of_proceed hc.faults hs hr h

end Faces

namespace Prompt

theorem ends_note (h : c.Prompt room V) (hs : c.Sees V s srv state ms) {level : Level}
    {text : String} {Q : Unit → Session σ → Prop} {E : Stop → Session σ → Prop}
    (goes : ∀ w, c.Sees V { s with world := w } srv state ms → Q () { s with world := w }) :
    Ends (c.note level text) s Q E := by
  obtain ⟨⟨k, hv⟩, hd⟩ := hs
  obtain ⟨hv', hnow⟩ := h.link.note hv ⟨level, text⟩
  rw [← hnow] at hd
  rw [note, ends_act]
  exact goes _ ⟨⟨k, hv'⟩, hd⟩

theorem send (h : c.Prompt room V) {w : σ} (hv : ∃ k, V w (srv.during state k) []) {m : Message}
    (hm : m.id = c.node.requestId) {frames : List Message}
    (ha : srv.Responds state m frames srv' state') (hlen : frames.length ≤ 127) :
    (c.link.send m w).1 = .ok () ∧
      ∃ k, V (c.link.send m w).2 (srv'.during state' k) (frames.take room) := by
  obtain ⟨k, hv⟩ := hv
  obtain ⟨rs, hhandle⟩ := ha k
  obtain ⟨hsent, hv'⟩ := h.link.send hv m hm (by rw [hhandle]; exact hlen)
  rw [hhandle] at hv'
  exact ⟨hsent, k + 1, hv'⟩

theorem ends_sendMessage (h : c.Prompt room V) (hs : c.Sees V s srv state []) {m : Message}
    (hm : m.id = c.node.requestId) {frames : List Message}
    (ha : srv.Responds state m frames srv' state') (hlen : frames.length ≤ 127)
    {Q : Unit → Session σ → Prop} {E : Stop → Session σ → Prop}
    (goes : ∀ w d, c.Sees V { s with world := w, deadline := d } srv' state' (frames.take room) →
      Q () { s with world := w, deadline := d }) :
    Ends (c.sendMessage m) s Q E := by
  simp only [sendMessage, trySend, ends_bind]
  refine h.ends_note hs fun w hw => ?_
  obtain ⟨hsent, hv⟩ := h.send hw.1 hm ha hlen
  simp only [ends_act, hsent, Except.isOk, Except.toBool, if_true, restartDeadline]
  exact goes _ _ ⟨hv, Nat.le_refl _⟩

theorem ends_poll_nil (h : c.Prompt room V) (hs : c.Sees V s srv state []) {n : Nat}
    (hn : s.deadline - c.link.now s.world < n) {Q : Option Message → Session σ → Prop}
    {E : Stop → Session σ → Prop}
    (goes : ∀ w, c.Sees V { s with world := w } srv state [] → Q none { s with world := w }) :
    Ends (c.poll n) s Q E := by
  have hinterval := h.interval
  -- On the looks left: there are enough of them to sleep until the deadline.
  induction n generalizing s with
  | zero => exact absurd hn (Nat.not_lt_zero _)
  | succ n ih =>
    obtain ⟨⟨k, hv⟩, hd⟩ := hs
    obtain ⟨hreceived, hv', hnow⟩ := h.link.receive hv
    have hcalm := h.link.cancelled hv
    rw [poll, ends_bind, ends_get, hcalm, if_neg Bool.false_ne_true, ends_bind, receive, ends_bind,
      ends_act, hreceived]
    simp only [List.head?_nil, ends_pure, ends_bind, overdue, ends_get, decide_eq_true_eq]
    split
    · rw [← hnow] at hd
      exact goes _ ⟨⟨k, hv'⟩, hd⟩
    · rename_i hwaits
      let w := c.link.sleep c.config.pollInterval (c.link.receive s.world).2
      obtain ⟨hv'', hlater⟩ := h.link.sleep hv' c.config.pollInterval
      have hnow' : c.link.now w = c.link.now s.world + c.config.pollInterval :=
        hlater.trans (congrArg (· + c.config.pollInterval) hnow)
      have hpassed : c.link.now (c.link.receive s.world).2 < s.deadline := Nat.not_le.mp hwaits
      have hd' : s.deadline ≤ c.link.now w + c.config.timeout := by omega
      have hn' : s.deadline - c.link.now w < n := by omega
      rw [ends_bind, ends_act]
      exact ih (s := { s with world := w }) ⟨⟨k, hv''⟩, hd'⟩ hn' goes

theorem ends_nextMessage_nil (h : c.Prompt room V) (hs : c.Sees V s srv state [])
    {Q : Option Message → Session σ → Prop} {E : Stop → Session σ → Prop}
    (goes : ∀ w, c.Sees V { s with world := w } srv state [] → Q none { s with world := w }) :
    Ends c.nextMessage s Q E := by
  have hpatient := h.patient
  have hd := hs.2
  exact h.ends_poll_nil hs (by omega) goes

theorem ends_nextMessage_cons (h : c.Prompt room V) {m : Message}
    (hs : c.Sees V s srv state (m :: ms)) (hm : m.id = c.node.responseId)
    {Q : Option Message → Session σ → Prop} {E : Stop → Session σ → Prop}
    (goes : ∀ w, c.Sees V { s with world := w } srv state ms → Q (some m) { s with world := w }) :
    Ends c.nextMessage s Q E := by
  obtain ⟨⟨k, hv⟩, hd⟩ := hs
  obtain ⟨hreceived, hv', hnow⟩ := h.link.receive hv
  obtain ⟨n, hn⟩ : ∃ n, c.patience = n + 1 := Nat.exists_eq_succ_of_ne_zero (by
    have := h.patient
    omega)
  have hcalm := h.link.cancelled hv
  rw [← hnow] at hd
  rw [nextMessage, hn, poll, ends_bind, ends_get, hcalm, if_neg Bool.false_ne_true, ends_bind,
    receive, ends_bind, ends_act, hreceived]
  simp only [List.head?_cons, ends_pure, hm, if_true, ends_bind]
  let t : Session σ := { s with world := (c.link.receive s.world).2 }
  exact h.ends_note (s := t) ⟨⟨k, hv'⟩, hd⟩ goes

theorem ends_awaitRounds (h : c.Prompt room V) {q : Response}
    (hs : c.Sees V s srv state [q.message c.node]) (hq : q.Regular) {resend : Transfer σ Unit}
    {attempts : UInt32} {n : Nat} {Q : Response → Session σ → Prop} {E : Stop → Session σ → Prop}
    (heard : ∀ w, c.Sees V { s with world := w } srv state [] → Q q { s with world := w }) :
    Ends (c.awaitRounds resend attempts (n + 1)) s Q E := by
  rw [awaitRounds, ends_bind, nextResponse, ends_bind]
  refine h.ends_nextMessage_cons hs (q.message_id c.node) fun w hw => ?_
  dsimp only
  rw [ends_map, ends_readResponse (Response.ofMessage_message c.node hq.fits hq.tidy) hq.goes]
  exact heard w hw

theorem ends_await (h : c.Prompt room V) {q : Response}
    (hs : c.Sees V s srv state [q.message c.node]) (hq : q.Regular) {resend : Transfer σ Unit}
    {Q : Response → Session σ → Prop} {E : Stop → Session σ → Prop}
    (heard : ∀ w, c.Sees V { s with world := w } srv state [] → Q q { s with world := w }) :
    Ends (c.await resend) s Q E := by
  rw [await, ends_bind, ends_get]
  exact h.ends_awaitRounds hs hq heard

theorem ends_await_refused (h : c.Prompt room V) {a : Address} {code : AbortCode}
    (hs : c.Sees V s srv state [(Response.abortWith a code).message c.node])
    {resend : Transfer σ Unit} {Q : Response → Session σ → Prop} {E : Stop → Session σ → Prop}
    (refused : ∀ w, c.Sees V { s with world := w } srv state [] →
      E (.failed (.serverAbort a (AbortReason.ofCode code.code))) { s with world := w }) :
    Ends (c.await resend) s Q E := by
  rw [await, ends_bind, ends_get, awaitRounds, ends_bind, nextResponse, ends_bind]
  refine h.ends_nextMessage_cons hs (Response.message_id _ c.node) fun w hw => ?_
  dsimp only
  rw [ends_map, readResponse,
    Response.ofMessage_message c.node (r := .abortWith a code) trivial trivial]
  dsimp only [Response.abortWith]
  rw [ends_bind]
  refine h.ends_note hw fun w' hw' => ?_
  rw [ends_fail]
  exact refused w' hw'

theorem ends_exchange (h : c.Prompt room V) (hs : c.Sees V s srv state []) {r : Request}
    {q : Response} (ha : srv.Responds state (r.message c.node) [q.message c.node] srv' state')
    (hq : q.Regular) {Q : Response → Session σ → Prop} {E : Stop → Session σ → Prop}
    (heard : ∀ w d, c.Sees V { s with world := w, deadline := d } srv' state' [] →
      Q q { s with world := w, deadline := d }) :
    Ends (c.exchange r) s Q E := by
  have hroomy := h.roomy
  rw [exchange, ends_bind]
  refine h.ends_sendMessage hs (r.message_id c.node) ha (by simp) fun w d hw => ?_
  rw [List.take_of_length_le (by simp; omega)] at hw
  exact h.ends_await hw hq fun w' hw' => heard w' d hw'

theorem ends_exchange_refused (h : c.Prompt room V) (hs : c.Sees V s srv state []) {r : Request}
    {a : Address} {code : AbortCode}
    (ha : srv.Responds state (r.message c.node) [(Response.abortWith a code).message c.node] srv'
      state') {Q : Response → Session σ → Prop} {E : Stop → Session σ → Prop}
    (refused : ∀ w d, c.Sees V { s with world := w, deadline := d } srv' state' [] →
      E (.failed (.serverAbort a (AbortReason.ofCode code.code)))
        { s with world := w, deadline := d }) :
    Ends (c.exchange r) s Q E := by
  have hroomy := h.roomy
  rw [exchange, ends_bind]
  refine h.ends_sendMessage hs (r.message_id c.node) ha (by simp) fun w d hw => ?_
  rw [List.take_of_length_le (by simp; omega)] at hw
  exact h.ends_await_refused hw fun w' hw' => refused w' d hw'

theorem ends_takeRetry (h : c.Prompt room V) (hs : c.Sees V s srv state ms) {attempts : UInt32}
    {Q : Unit → Session σ → Prop} {E : Stop → Session σ → Prop}
    (expired : s.retries = 0 → ∀ w, c.Sees V { s with world := w } srv state ms →
      E (.failed (.timeout attempts)) { s with world := w })
    (goes : ∀ n, s.retries = n + 1 → ∀ w,
      c.Sees V { s with world := w, retries := n } srv state ms →
        Q () { s with world := w, retries := n }) :
    Ends (c.takeRetry attempts) s Q E := by
  rw [takeRetry, ends_bind, ends_get]
  cases hn : s.retries with
  | zero =>
    dsimp only
    rw [ends_bind]
    refine h.ends_note hs fun w hw => ?_
    rw [ends_fail]
    exact expired hn w hw
  | succ n =>
    dsimp only
    rw [ends_bind, ends_modify]
    exact h.ends_note (s := { s with retries := n }) (hs.of_eq rfl rfl) (goes n hn)

theorem ends_abandon (h : c.Prompt room V) (hc : c.Faces srv) (hs : c.Sees V s srv state [])
    {code : AbortCode} {e : Error} {Q : α → Session σ → Prop} {E : Stop → Session σ → Prop}
    (fails : ∀ w d, c.Sees V { s with world := w, deadline := d }
        { srv with lastAbort := some (c.target, code.code) } .idle [] →
      E (.failed e) { s with world := w, deadline := d }) :
    Ends (c.abandon code e : Transfer σ α) s Q E := by
  rw [abandon, ends_bind, abort, ends_bind]
  refine h.ends_note hs fun w hw => ?_
  simp only [trySend, ends_bind]
  refine h.ends_note hw fun w' hw' => ?_
  have ha := Server.responds_abort hc.faults hc.node state c.target code.code
  obtain ⟨hsent, hv⟩ := h.send hw'.1 (Request.message_id _ c.node) ha (Nat.zero_le _)
  rw [List.take_nil] at hv
  have hsent' : (c.link.send ((Request.abortWith c.target code).message c.node) w').1 = .ok () :=
    hsent
  simp only [ends_act, hsent', Except.isOk, Except.toBool, if_true, restartDeadline, ends_fail]
  exact fails _ _ ⟨hv, Nat.le_refl _⟩

end Prompt
end Call
end Client
end Canopen
