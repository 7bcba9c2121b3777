import Canopen.Proofs.Commitments
import Canopen.Proofs.Supervision

set_option autoImplicit false

namespace Canopen.Client

open Can (Message)
open Sdo
open Transfer

/-- The client has waited in vain, or the link has failed it, or it has come to no end. -/
def Stop.Unanswered : Stop → Prop
  | .failed (.timeout _) | .failed (.transport _) | .unfinished => True
  | .failed _ => False

/-- The server is idle, unless the client was left without an answer. -/
def Released (e : Stop) (w : Supervised Line) : Prop :=
  e.Unanswered ∨ w.world.server.state = .idle

/-- The state of a server, and what it sent that the client has not yet taken. -/
abbrev View := Server.State → List Message → Prop

abbrev Resting (S : Server.State → Prop) : View := fun state ms => ms = [] ∧ S state

structure Viewed (node : NodeId) (blockSize : UInt8) (X : View) (w : Supervised Line) : Prop where
  listens : w.world.server.Listens node blockSize
  view : X w.world.server.state w.world.inbox

abbrev Call.At (c : Call (Supervised Line)) (blockSize : UInt8) (X : View) :
    Session (Supervised Line) → Prop :=
  fun s => Viewed c.node blockSize X s.world

namespace Call

variable {α : Type} {c : Call (Supervised Line)} {press : Nat → Bool} {blockSize : UInt8}
  {X Y : View} {w : Supervised Line} {G : α → Session (Supervised Line) → Prop}

theorem At.mono {s : Session (Supervised Line)} (h : c.At blockSize X s)
    (hv : ∀ state ms, X state ms → Y state ms) : c.At blockSize Y s :=
  ⟨h.listens, hv _ _ h.view⟩

theorem carries_of_view {x : Transfer (Supervised Line) α}
    (hx : Carries (c.At blockSize Y) Released x G) (hv : ∀ state ms, X state ms → Y state ms) :
    Carries (c.At blockSize X) Released x G :=
  hx.mono (fun _ hs => hs.mono hv) fun _ _ h => h

theorem carries_pure (a : α) (hv : ∀ state ms, X state ms → Y state ms) :
    Carries (c.At blockSize X) Released (pure a) fun _ => c.At blockSize Y :=
  fun _ hs => hs.mono hv

theorem carries_modify {f : Session (Supervised Line) → Session (Supervised Line)}
    (hf : ∀ s, (f s).world = s.world) :
    Carries (c.At blockSize X) Released (modify f) fun _ => c.At blockSize X := by
  intro s hs
  show Viewed c.node blockSize X (f s).world
  rw [hf]
  exact hs

section
variable (hc : c.link = (Line.link {}).supervised press)
include hc

theorem note_supervised (r : Record) : ∃ ws, (c.link.note r w).world =
    { w.world with warnings := ws } := by
  obtain ⟨ws, h⟩ := Line.foldl_note [r] w.world
  rw [hc]
  exact ⟨ws, h⟩

theorem viewed_note (h : Viewed c.node blockSize X w) (r : Record) :
    Viewed c.node blockSize X (c.link.note r w) := by
  obtain ⟨ws, hw⟩ := note_supervised hc (w := w) r
  refine ⟨?_, ?_⟩
  · rw [hw]
    exact h.listens
  · rw [hw]
    exact h.view

/-- What a message leads to, of a server that is seen like `X`. -/
def Brings (c : Call (Supervised Line)) (blockSize : UInt8) (X : View) (m : Message) (Y : View) :
    Prop :=
  ∀ (s : Server) (ms : List Message), s.Listens c.node blockSize → X s.state ms →
    Y (s.handle m).device.state (ms ++ (s.handle m).frames)

theorem viewed_send {m : Message} (hm : m.id = c.node.requestId) (h : Viewed c.node blockSize X w)
    (hsend : c.Brings blockSize X m Y) :
    (c.link.send m w).1 = .ok () ∧ Viewed c.node blockSize Y (c.link.send m w).2 := by
  obtain ⟨ws, hw⟩ := Line.send_delivered (x := {}) (m := m) (l := w.world) rfl
  rw [Line.survivors_eq_self fun _ => rfl] at hw
  have hworld : (c.link.send m w).2.world = w.world.send {} m := by
    rw [hc]
    rfl
  refine ⟨by rw [hc]; rfl, ?_, ?_⟩
  · rw [hworld, hw]
    exact h.listens.handle hm
  · rw [hworld, hw]
    exact hsend _ _ h.listens h.view

theorem carries_note (level : Level) (text : String) :
    Carries (c.At blockSize X) Released (c.note level text) fun _ => c.At blockSize X :=
  fun _ hs => viewed_note hc hs _

theorem carries_sendMessage {m : Message} (hm : m.id = c.node.requestId)
    (hsend : c.Brings blockSize X m Y) :
    Carries (c.At blockSize X) Released (c.sendMessage m) fun _ => c.At blockSize Y := by
  intro s hs
  simp only [sendMessage, trySend, note, ends_bind, ends_act]
  obtain ⟨hsent, hviewed⟩ := viewed_send hc hm (viewed_note hc hs ⟨.trace, s!"SDO tx: {m}"⟩) hsend
  rw [hsent]
  exact hviewed

theorem carries_abandon (code : AbortCode) (e : Error) :
    Carries (c.At blockSize X) Released (c.abandon code e) G := by
  intro s hs
  refine (ends_abandon_of_send (P := Viewed c.node blockSize X)
    (Q := fun w => w.world.server.state = .idle) (fun _ _ h => viewed_note hc h _) ?_ code e ?_
    hs).mono (fun _ _ h => h.elim) fun _ _ h => .inr h.2
  · intro v r hv
    obtain ⟨ws, hw⟩ := note_supervised hc (w := v) r
    rw [hw]
    exact hv
  · intro v hv
    obtain ⟨-, hviewed⟩ := viewed_send (Y := fun state _ => state = .idle) hc
      (Request.message_id _ c.node) hv fun _ _ hl _ => hl.idle_handle_abort c.target code.code
    exact hviewed.view

theorem carries_unexpected (r : Response) :
    Carries (c.At blockSize X) Released (c.unexpected r) G :=
  carries_bind (carries_note hc _ _) fun _ => carries_abandon hc _ _

theorem carries_malformed (e : ParseError) :
    Carries (c.At blockSize X) Released (c.malformed e) G :=
  carries_bind (carries_note hc _ _) fun _ => carries_abandon hc _ _

theorem carries_cancel : Carries (c.At blockSize X) Released c.cancel G :=
  carries_bind (carries_note hc _ _) fun _ => carries_abandon hc _ _

theorem carries_takeRetry (attempts : UInt32) :
    Carries (c.At blockSize X) Released (c.takeRetry attempts) fun _ => c.At blockSize X :=
  keeps_takeRetry_of_note (viewed_note hc) (fun _ _ _ => .inl trivial) attempts

theorem viewed_receive (h : Viewed c.node blockSize X w) :
    (w.world.inbox = [] ∧ (c.link.receive w).1 = .ok none ∧
      Viewed c.node blockSize (fun state ms => ms = [] ∧ X state []) (c.link.receive w).2) ∨
    ∃ m rest, w.world.inbox = m :: rest ∧ (c.link.receive w).1 = .ok (some m) ∧
      Viewed c.node blockSize (fun state ms => X state (m :: ms)) (c.link.receive w).2 := by
  obtain ⟨listens, view⟩ := h
  have hreceive : c.link.receive w
      = (.ok w.world.receive.1, w.next press w.world.receive.2) := by rw [hc]; rfl
  rw [hreceive, Line.receive]
  cases hi : w.world.inbox with
  | nil =>
    rw [hi] at view
    exact .inl ⟨rfl, rfl, listens, hi, view⟩
  | cons m rest =>
    rw [hi] at view
    exact .inr ⟨m, rest, rfl, rfl, listens, view⟩

theorem carries_nextMessage (own : ∀ state ms, X state ms → ∀ m ∈ ms, m.id = c.node.responseId) :
    Carries (c.At blockSize X) Released c.nextMessage fun received =>
      c.At blockSize fun state ms => match received with
        | some m => X state (m :: ms)
        | none => ms = [] ∧ X state [] := by
  intro s hs
  refine ends_poll_of_looks (W := fun _ => c.At blockSize X) (fun _ s hs => carries_cancel hc s hs)
    (fun _ _ => .inl trivial) ?_ ?_ ?_ ?_ c.patience hs
  · intro n s e v hs hr
    rcases viewed_receive hc hs with ⟨-, h, -⟩ | ⟨m, rest, -, h, -⟩
    · rw [hr] at h
      cases h
    · rw [hr] at h
      cases h
  · intro n s v hs hr
    rcases viewed_receive hc hs with ⟨-, h, hnone⟩ | ⟨m, rest, -, h, -⟩
    · rw [hr] at hnone
      split
      · exact hnone
      · have hsleep : (c.link.sleep c.config.pollInterval v).world
            = { v.world with now := v.world.now + c.config.pollInterval } := by
          rw [hc]
          rfl
        obtain ⟨listens, hi, hx⟩ := hnone
        refine ⟨?_, ?_⟩
        · rw [hsleep]
          exact listens
        · rw [hsleep]
          show X v.world.server.state v.world.inbox
          rw [hi]
          exact hx
    · rw [hr] at h
      cases h
  · intro n s m v hs hr hid
    rcases viewed_receive hc hs with ⟨-, h, -⟩ | ⟨m', rest, hi, h, -⟩
    · rw [hr] at h
      cases h
    · rw [hr] at h
      cases h
      exact absurd (own _ _ hs.view m (hi ▸ List.mem_cons_self)) hid
  · intro n s m v hs hr hid
    rcases viewed_receive hc hs with ⟨-, h, -⟩ | ⟨m', rest, -, h, hsome⟩
    · rw [hr] at h
      cases h
    · rw [hr] at h hsome
      cases h
      exact viewed_note hc hsome _

/-- An abort of the server tells that it is idle. -/
theorem carries_readResponse {m : Message} (habort : ∀ state ms, X state ms → ∀ target code,
      Response.ofMessage m = .ok (.abort target code) → state = .idle) :
    Carries (c.At blockSize X) Released (c.readResponse m) fun r s =>
      c.At blockSize X s ∧ Response.ofMessage m = .ok r ∧ r.kind ≠ .abort := by
  intro s hs
  rw [readResponse]
  cases hr : Response.ofMessage m with
  | error e => exact carries_malformed hc e s hs
  | ok r =>
    cases r with
    | abort target code =>
      have hidle := habort _ _ hs.view target code hr
      simp only [ends_bind, note, ends_act, ends_fail]
      obtain ⟨ws, hw⟩ := note_supervised hc (w := s.world)
        ⟨.debug, s!"Node {c.node} aborted transfer of {target}: {AbortReason.ofCode code}"⟩
      refine .inr ?_
      rw [hw]
      exact hidle
    | _ => exact ⟨hs, rfl, by simp [Response.kind]⟩

/-- What a wait for a response comes to when the message sent again changes nothing. -/
theorem carries_await {m : Message} (hm : m.id = c.node.requestId) {Z : Response → View}
    (own : ∀ state ms, X state ms → ∀ m ∈ ms, m.id = c.node.responseId)
    (hread : ∀ m state ms, X state (m :: ms) → ∀ r, Response.ofMessage m = .ok r →
      (r.kind = .abort → state = .idle) ∧ (r.kind ≠ .abort → Z r state ms))
    (hagain : c.Brings blockSize (Resting fun state => X state []) m X) :
    Carries (c.At blockSize X) Released (c.await (c.sendMessage m)) fun r =>
      c.At blockSize (Z r) := by
  intro s hs
  rw [await, ends_bind, ends_get]
  refine ends_awaitRounds_of_next (W := fun _ => c.At blockSize X)
    (L := fun _ => c.At blockSize (Resting fun state => X state []))
    (M := fun m => c.At blockSize fun state ms => X state (m :: ms))
    (fun _ _ => .inl trivial) ?_ ?_ ?_ 1 _ hs
  · intro n s hs
    refine (carries_nextMessage hc own s hs).mono (fun received t ht => ?_) fun _ _ he => he
    cases received with
    | some m => exact ht
    | none => exact ht
  · intro a s hs
    refine (carries_readResponse hc (m := a) ?_ s hs).mono ?_ fun _ _ he => he
    · intro state ms hx target code hr
      exact (hread a state ms hx _ hr).1 rfl
    · rintro r t ⟨ht, hr, hgoes⟩
      exact ht.mono fun state ms hx => (hread a state ms hx r hr).2 hgoes
  · intro attempts n
    exact carries_bind (carries_takeRetry hc attempts) fun _ => carries_sendMessage hc hm hagain

theorem carries_ask {S : Server.State → Prop} {D : Response → Server.State → Prop} {m : Message}
    (hm : m.id = c.node.requestId)
    (hbrings : c.Brings blockSize (Resting S) m (Server.Committed c.node S D)) :
    Carries (c.At blockSize (Resting S)) Released (do
      c.sendMessage m
      c.await (c.sendMessage m)) fun r => c.At blockSize (Resting (D r)) := by
  refine carries_bind (carries_sendMessage hc hm hbrings) fun _ => carries_await hc hm ?_ ?_ ?_
  · intro state ms h a ha
    cases h with
    | quiet => cases ha
    | refused target code =>
      rw [List.mem_singleton.mp ha]
      exact Response.message_id _ _
    | answered =>
      rw [List.mem_singleton.mp ha]
      exact Response.message_id _ _
  · intro a state ms h q hq
    generalize hall : a :: ms = all at h
    cases h with
    | quiet => cases hall
    | refused target code =>
      obtain ⟨rfl, rfl⟩ := List.cons.inj hall
      rw [Response.ofMessage_message c.node (r := .abort target code) trivial trivial] at hq
      cases hq
      exact ⟨fun _ => rfl, fun h => absurd rfl h⟩
    | answered hr hd =>
      obtain ⟨rfl, rfl⟩ := List.cons.inj hall
      rw [Response.ofMessage_message c.node hr.fits hr.tidy] at hq
      cases hq
      exact ⟨fun h => absurd h hr.goes, fun _ => ⟨rfl, hd⟩⟩
  · rintro s ms hl ⟨rfl, h⟩
    generalize hstate : s.state = state at h
    cases h with
    | quiet hs => exact hbrings s [] hl ⟨rfl, hstate ▸ hs⟩

theorem carries_exchange {S : Server.State → Prop} {D : Response → Server.State → Prop}
    {r : Request} (hread : ∀ s : Server, s.blockSize = blockSize → S s.state →
      (s.read (r.message s.node)).Commits s.node S D) :
    Carries (c.At blockSize (Resting S)) Released (c.exchange r) fun r =>
      c.At blockSize (Resting (D r)) := by
  refine carries_ask hc (r.message_id c.node) ?_
  rintro s ms hl ⟨rfl, hs⟩
  refine Server.handle_commits hl (r.message_id c.node) hs fun received => ?_
  obtain ⟨haddressed, hsized, -⟩ := hl
  rw [← haddressed]
  exact hread _ hsized hs

theorem carries_checkToggle (toggle : Bool) :
    Carries (c.At blockSize X) Released (c.checkToggle toggle) fun _ => c.At blockSize X := by
  refine keeps_get fun s => ?_
  split
  · exact carries_modify fun _ => rfl
  · exact carries_abandon hc _ _

theorem carries_checkSize :
    Carries (c.At blockSize X) Released c.checkSize fun _ => c.At blockSize X := by
  refine keeps_get fun s => ?_
  split
  · exact keeps_pure _
  · exact keeps_pure _
  · split
    · exact carries_abandon hc _ _
    · exact keeps_pure _

theorem carries_checkBlockSize (value : UInt8) :
    Carries (c.At blockSize X) Released (c.checkBlockSize value) fun size s =>
      size.value = value ∧ c.At blockSize X s := by
  unfold checkBlockSize BlockSize.ofByte?
  split
  · rename_i b hb
    split at hb <;> cases hb
    exact fun s hs => ⟨rfl, hs⟩
  · exact carries_abandon hc _ _

theorem carries_readSegment (m : Message) :
    Carries (c.At blockSize X) Released (c.readSegment m) fun segment s =>
      BlockSegment.ofMessage m = .ok segment ∧ c.At blockSize X s := by
  unfold readSegment
  cases BlockSegment.ofMessage m with
  | error e => exact carries_malformed hc e
  | ok segment =>
    show Carries _ _ (if segment.seqno = 0 ∨ c.config.blockSize < segment.seqno then _ else _) _
    split
    · exact carries_abandon hc _ _
    · exact fun s hs => ⟨rfl, hs⟩

theorem carries_takeSegment (segment : BlockSegment) :
    Carries (c.At blockSize X) Released (c.takeSegment segment) fun inOrder s =>
      (inOrder = true → s.seqno = segment.seqno) ∧ c.At blockSize X s := by
  refine carries_get fun s => ?_
  dsimp only
  split
  · exact fun s hs => ⟨fun _ => rfl, hs⟩
  · refine carries_bind (carries_note hc _ _) fun _ => ?_
    exact fun s hs => ⟨Bool.noConfusion, hs⟩

theorem carries_flush (S : Server.State → Prop) (n : Nat) :
    Carries (c.At blockSize fun state _ => S state) Released (c.flush n) fun _ =>
      c.At blockSize (Resting S) := by
  induction n with
  | zero => exact fun _ _ => .inl trivial
  | succ n ih =>
    intro s hs
    rw [flush]
    simp only [ends_bind, receive, ends_act]
    rcases viewed_receive hc hs with ⟨-, hr, hnone⟩ | ⟨m, rest, -, hr, hsome⟩
    · rw [hr]
      exact hnone
    · rw [hr]
      exact ih _ hsome

end

end Call

end Canopen.Client
