import Canopen.Proofs.Reading
import Canopen.Proofs.Trace
import Canopen.Proofs.Upholding
import Canopen.Script

set_option autoImplicit false

namespace Canopen

open Can (Message TransportError)
open Sdo

/-- Ends a transfer, whatever the client waits for. -/
def Can.Message.Terminal (m : Message) : Prop := m.dlc ≠ 8 ∨ m.data.get 0 = 0x80

namespace Client

open Transfer

variable {σ : Type}

def Act.Quiet (a : Act) : Prop := ∃ r, a = .noted r ∧ r.level ≠ .warn

def Act.Receives (a : Act) : Prop := ∃ outcome, a = .received outcome

/-- A client first drops what has come before, until there is nothing more. -/
def Flushed (events : List Event) : Prop := ∃ e ∈ events, e.act = .received (.ok none)

def Event.Ending (node : UInt8) (e : Event) : Prop :=
  ∃ m : Message, e.act = .received (.ok (some m)) ∧ m.id = .std (0x580 + node.toUInt16) ∧ m.Terminal

/-- No terminal frame has been taken since the flush. -/
def Clean (node : UInt8) (events : List Event) : Prop :=
  ∀ before e after, events = before ++ e :: after → Flushed before → ¬ e.Ending node

/-- This frame was taken when there was no terminal one before it, and of all acts behind it `p`
holds. -/
def Since (node : UInt8) (m : Message) (p : Act → Prop) (events : List Event) : Prop :=
  ∃ before time after, events = before ++ ⟨.received (.ok (some m)), time⟩ :: after ∧
    Clean node before ∧ ∀ e ∈ after, p e.act

/-- How a call may fail after these events: without a terminal frame, or as that one says. -/
inductive FailsAfter (node : UInt8) : Stop → List Event → Prop
  | clean {e : Stop} {events : List Event} (h : Clean node events) : FailsAfter node e events
  | short {m : Message} {events : List Event} (hdlc : m.dlc ≠ 8)
    (h : Since node m (fun a => ¬ a.Receives) events) :
    FailsAfter node (.failed (.malformed (.malformedLength m.dlc))) events
  | aborted {m : Message} {events : List Event} (hdlc : m.dlc = 8) (hhead : m.data.get 0 = 0x80)
    (h : Since node m Act.Quiet events) :
    FailsAfter node
      (.failed (.serverAbort (Address.ofPayload m.data) (.ofCode (lastWord m.data)))) events

theorem Clean.append {node : UInt8} {events : List Event} (h : Clean node events) {e : Event}
    (he : Flushed events → ¬ e.Ending node) : Clean node (events ++ [e]) := by
  intro before x after hsplit hflushed
  rcases split_of_snoc hsplit with ⟨after', -, hbefore⟩ | ⟨rfl, -, rfl⟩
  · exact h before x after' hbefore hflushed
  · exact he hflushed

theorem Clean.append_of_silent {node : UInt8} {events : List Event} (h : Clean node events)
    {e : Event} (he : ¬ e.act.Receives) : Clean node (events ++ [e]) := by
  refine h.append fun _ hending => ?_
  obtain ⟨m, hm, -⟩ := hending
  exact he ⟨_, hm⟩

theorem Since.append {node : UInt8} {m : Message} {p : Act → Prop} {events : List Event}
    (h : Since node m p events) {e : Event} (he : p e.act) : Since node m p (events ++ [e]) := by
  obtain ⟨before, time, after, rfl, hbefore, hafter⟩ := h
  refine ⟨before, time, after ++ [e], by simp, hbefore, ?_⟩
  simpa [or_imp, forall_and] using ⟨hafter, he⟩

theorem Since.mono {node : UInt8} {m : Message} {p q : Act → Prop} {events : List Event}
    (h : Since node m p events) (hpq : ∀ a, p a → q a) : Since node m q events := by
  obtain ⟨before, time, after, hsplit, hbefore, hafter⟩ := h
  exact ⟨before, time, after, hsplit, hbefore, fun e he => hpq _ (hafter e he)⟩

theorem Since.unique {node : UInt8} {m m' : Message} {p : Act → Prop} {events : List Event}
    (h : Since node m' p events) (hp : ∀ a, p a → ¬ a.Receives) {before after : List Event}
    {time : Nat} (hsplit : events = before ++ ⟨.received (.ok (some m)), time⟩ :: after)
    (hflushed : Flushed before) (hid : m.id = .std (0x580 + node.toUInt16))
    (hterminal : m.Terminal) : m = m' ∧ ∀ e ∈ after, p e.act := by
  obtain ⟨before', time', after', hsplit', hclean, hafter⟩ := h
  rw [hsplit'] at hsplit
  rcases List.append_eq_append_iff.mp hsplit with ⟨more, hbefore, hmore⟩ | ⟨more, rfl, hmore⟩
  · cases more with
    | nil =>
      cases hmore
      exact ⟨rfl, hafter⟩
    | cons x xs =>
      cases hmore
      exact absurd ⟨_, rfl⟩ (hp _ (hafter ⟨.received (.ok (some m)), time⟩ (by simp)))
  · cases more with
    | nil =>
      cases hmore
      exact ⟨rfl, hafter⟩
    | cons x xs =>
      cases hmore
      exact absurd ⟨m, rfl, hid, hterminal⟩ (hclean before _ xs rfl hflushed)

theorem Act.not_receives_of_quiet {a : Act} (h : a.Quiet) : ¬ a.Receives := by
  rintro ⟨outcome, hreceived⟩
  obtain ⟨r, hnoted, -⟩ := h
  rw [hreceived] at hnoted
  cases hnoted

theorem Act.not_receives_noted (r : Record) : ¬ (Act.noted r).Receives := by
  rintro ⟨_, h⟩
  cases h

theorem Act.not_receives_sent (m : Message) (outcome : Except TransportError Unit) :
    ¬ (Act.sent m outcome).Receives := by
  rintro ⟨_, h⟩
  cases h

theorem Act.not_receives_slept (time : Nat) : ¬ (Act.slept time).Receives := by
  rintro ⟨_, h⟩
  cases h

theorem FailsAfter.noted {node : UInt8} {e : Error} {events : List Event}
    (h : FailsAfter node (.failed e) events) {level : Level} (hlevel : level ≠ .warn)
    (text : String) (time : Nat) :
    FailsAfter node (.failed e) (events ++ [⟨.noted ⟨level, text⟩, time⟩]) := by
  cases h with
  | clean h => exact .clean (h.append_of_silent (Act.not_receives_noted _))
  | short hdlc h => exact .short hdlc (h.append (Act.not_receives_noted _))
  | aborted hdlc hhead h => exact .aborted hdlc hhead (h.append ⟨_, rfl, hlevel⟩)

def Unended (node : NodeId) (w : σ × List Event) : Prop := Flushed w.2 ∧ Clean node.value w.2

def Took (node : NodeId) (m : Message) (w : σ × List Event) : Prop :=
  m.id = node.responseId ∧
    (¬ m.Terminal ∧ Unended node w ∨ m.Terminal ∧ Since node.value m Act.Quiet w.2)

theorem Flushed.append {events : List Event} (h : Flushed events) (e : Event) :
    Flushed (events ++ [e]) := by
  obtain ⟨x, hx, hnone⟩ := h
  exact ⟨x, List.mem_append_left _ hx, hnone⟩

theorem not_flushed_append {events : List Event} (h : ¬ Flushed events) {e : Event}
    (he : e.act ≠ .received (.ok none)) : ¬ Flushed (events ++ [e]) := by
  rintro ⟨x, hx, hnone⟩
  rcases List.mem_append.mp hx with hx | hx
  · exact h ⟨x, hx, hnone⟩
  · rw [List.mem_singleton.mp hx] at hnone
    exact he hnone

theorem clean_of_not_flushed {node : UInt8} {events : List Event} (h : ¬ Flushed events) :
    Clean node events := by
  rintro before e after rfl ⟨x, hx, hnone⟩
  exact absurd ⟨x, List.mem_append_left _ hx, hnone⟩ h

section
variable (c : Call σ)

theorem preserves_unended : c.traced.link.Preserves (Unended c.node) where
  note h _ := ⟨h.1.append _, h.2.append_of_silent (Act.not_receives_noted _)⟩
  send h _ := ⟨h.1.append _, h.2.append_of_silent (Act.not_receives_sent _ _)⟩

theorem preserves_since (m : Message) :
    c.traced.link.Preserves fun w => Since c.node.value m (fun a => ¬ a.Receives) w.2 where
  note h _ := h.append (Act.not_receives_noted _)
  send h _ := h.append (Act.not_receives_sent _ _)

theorem keeps_abandon_unended {α : Type} (code : AbortCode) (e : Error) :
    Keeps (fun s => Unended c.node s.world) (fun e w => FailsAfter c.node.value e w.2)
      (c.traced.abandon code e : Transfer _ α) :=
  fun _ hs => (Call.ends_abandon_of_preserves (preserves_unended c) hs code e).mono
    (fun _ _ h => h.elim) fun _ _ h => .clean h.2.2

theorem ends_malformed_short {α : Type} {m : Message} (hdlc : m.dlc ≠ 8)
    {s : Session (σ × List Event)} {Q : α → Session (σ × List Event) → Prop}
    (hs : Since c.node.value m Act.Quiet s.world.2) :
    Ends (c.traced.malformed (.malformedLength m.dlc) : Transfer _ α) s Q
      fun e t => FailsAfter c.node.value e t.world.2 := by
  have hfirst := hs.mono fun _ => Act.not_receives_of_quiet
  refine (Call.ends_malformed_of_preserves (preserves_since c m) hfirst _).mono
    (fun _ _ h => h.elim) ?_
  rintro _ t ⟨rfl, ht⟩
  exact .short hdlc ht

theorem ends_readResponse_took {m : Message} {s : Session (σ × List Event)}
    (hs : Took c.node m s.world) :
    Ends (c.traced.readResponse m) s (fun _ t => ¬ m.Terminal ∧ Unended c.node t.world)
      fun e t => FailsAfter c.node.value e t.world.2 := by
  obtain ⟨hid, ⟨hgoes, hs⟩ | ⟨hterminal, hs⟩⟩ := hs
  · rw [Call.readResponse]
    split
    · exact (Call.ends_malformed_of_preserves (preserves_unended c) hs _).mono
        (fun _ _ h => h.elim) fun _ _ h => .clean h.2.2
    · exact .clean ((preserves_unended c).note hs _).2
    · exact ⟨hgoes, hs⟩
  · by_cases hdlc : m.dlc = 8
    · have hhead : m.data.get 0 = 0x80 := hterminal.resolve_left fun h => h hdlc
      have hquiet : Level.debug ≠ .warn := by decide
      rw [Call.readResponse, Response.ofMessage_abort hid hdlc hhead]
      exact .aborted hdlc hhead (hs.append ⟨_, rfl, hquiet⟩)
    · rw [Call.readResponse, Response.ofMessage_of_dlc hdlc]
      exact ends_malformed_short c hdlc hs

theorem Unended.received {w v : σ × List Event}
    {outcome : Except TransportError (Option Message)} (h : Unended c.node w)
    (hv : c.traced.link.receive w = (outcome, v))
    (hm : ∀ m, outcome = .ok (some m) → m.id = c.node.responseId → ¬ m.Terminal) :
    Unended c.node v := by
  cases hv
  refine ⟨h.1.append _, h.2.append fun _ hending => ?_⟩
  obtain ⟨m, hact, hid, hterminal⟩ := hending
  exact hm m (Act.received.inj hact) hid hterminal

theorem ends_nextMessage_took {s : Session (σ × List Event)} (hs : Unended c.node s.world) :
    Ends c.traced.nextMessage s
      (fun received t => match received with
        | some m => Took c.node m t.world
        | none => Unended c.node t.world)
      fun e t => FailsAfter c.node.value e t.world.2 := by
  have hpreserves := preserves_unended c
  refine Call.ends_poll_of_looks (c := c.traced) (W := fun _ s => Unended c.node s.world)
    (K := fun e w => FailsAfter c.node.value e w.2) ?_ ?_ ?_ ?_ ?_ ?_ c.patience hs
  · exact fun _ s hs => (Call.ends_cancel_of_preserves hpreserves hs).mono
      (fun _ _ h => h.elim) fun _ _ h => .clean h.2.2
  · exact fun s hs => .clean hs.2
  · exact fun _ s e w hs hw => .clean (hs.received c hw (by simp)).2
  · intro _ s w hs hw
    have hw' := hs.received c hw (by simp)
    split
    · exact hw'
    · exact ⟨hw'.1.append _, hw'.2.append_of_silent (Act.not_receives_slept _)⟩
  · intro _ s m w hs hw hid
    have hw' := hs.received c hw fun m' hm' hid' => by
      cases hm'
      exact absurd hid' hid
    dsimp only
    split
    · exact hpreserves.note hw' _
    · exact hpreserves.note hw' _
  · intro _ s m w hs hw hid
    refine ⟨hid, ?_⟩
    by_cases hterminal : m.Terminal
    · have hquiet : Level.trace ≠ .warn := by decide
      have hsince : Since c.node.value m Act.Quiet w.2 :=
        ⟨s.world.2, _, [], Link.traced_receive hw, hs.2, by simp⟩
      exact .inr ⟨hterminal, hsince.append ⟨_, rfl, hquiet⟩⟩
    · have hw' := hs.received c hw fun m' hm' _ => by
        cases hm'
        exact hterminal
      exact .inl ⟨hterminal, hpreserves.note hw' _⟩

theorem keeps_sendMessage_unended (m : Message) :
    Keeps (fun s => Unended c.node s.world) (fun e w => FailsAfter c.node.value e w.2)
      (c.traced.sendMessage m) :=
  Call.keeps_sendMessage_of_preserves (preserves_unended c) (fun _ _ h => .clean h.2) m

theorem keeps_takeRetry_unended (attempts : UInt32) :
    Keeps (fun s => Unended c.node s.world) (fun e w => FailsAfter c.node.value e w.2)
      (c.traced.takeRetry attempts) :=
  Call.keeps_takeRetry_of_preserves (preserves_unended c) (fun _ _ h => .clean h.2) attempts

theorem ends_readSegment_took {m : Message} {s : Session (σ × List Event)}
    (hs : Took c.node m s.world) (hhead : m.data.get 0 ≠ 0x80) :
    Ends (c.traced.readSegment m) s (fun _ t => Unended c.node t.world)
      fun e t => FailsAfter c.node.value e t.world.2 := by
  obtain ⟨hid, ⟨hgoes, hs⟩ | ⟨hterminal, hs⟩⟩ := hs
  · rw [Call.readSegment]
    split
    · exact (Call.ends_malformed_of_preserves (preserves_unended c) hs _).mono
        (fun _ _ h => h.elim) fun _ _ h => .clean h.2.2
    · split
      · exact keeps_abandon_unended c _ _ s hs
      · exact hs
  · have hdlc : m.dlc ≠ 8 := hterminal.resolve_right hhead
    rw [Call.readSegment, BlockSegment.ofMessage_of_dlc hdlc]
    exact ends_malformed_short c hdlc hs

theorem keeps_takeSegment_unended (segment : BlockSegment) :
    Keeps (fun s => Unended c.node s.world) (fun e w => FailsAfter c.node.value e w.2)
      (c.traced.takeSegment segment) := by
  refine keeps_get fun s => ?_
  dsimp only
  split
  · refine keeps_bind (keeps_modify fun _ hs => hs) fun _ => ?_
    refine keeps_bind (keeps_modify fun _ hs => hs) fun _ => ?_
    exact keeps_bind (keeps_modify fun _ hs => hs) fun _ => keeps_pure _
  · exact keeps_bind (Call.keeps_note_of_preserves (preserves_unended c) _ _) fun _ =>
      keeps_pure _

theorem keeps_acknowledge_unended :
    Keeps (fun s => Unended c.node s.world) (fun e w => FailsAfter c.node.value e w.2)
      c.traced.acknowledge := by
  refine keeps_get fun s => ?_
  refine keeps_bind (Call.keeps_note_of_preserves (preserves_unended c) _ _) fun _ => ?_
  refine keeps_bind (keeps_sendMessage_unended c _) fun _ => ?_
  split
  · exact keeps_bind (keeps_modify fun _ hs => hs) fun _ => keeps_pure _
  · exact keeps_pure _

/-- A segment is read in another way than a response, but not a frame that ends the transfer. -/
theorem keeps_receiveBlocks_unended (request : Request) (attempts : UInt32) (n : Nat) :
    Keeps (fun s => Unended c.node s.world) (fun e w => FailsAfter c.node.value e w.2)
      (c.traced.receiveBlocks request attempts n) := by
  intro s hs
  refine Call.ends_receiveBlocks_of_next (c := c.traced)
    (W := fun _ _ s => Unended c.node s.world) (L := fun _ _ s => Unended c.node s.world)
    (M := fun _ _ m s => Took c.node m s.world) (K := fun e w => FailsAfter c.node.value e w.2)
    (fun _ s hs => .clean hs.2) (fun _ _ s hs => ends_nextMessage_took c hs) ?_ ?_ ?_ attempts n hs
  · exact fun attempts _ _ s hs => (keeps_takeRetry_unended c attempts s hs).mono
      (fun _ t ht => keeps_sendMessage_unended c _ t ht) fun _ _ he => he
  · exact fun _ _ m s hs _ => (ends_readResponse_took c hs).mono (fun _ _ ht => ht.2)
      fun _ _ he => he
  · intro _ request m s hs hhead
    refine (ends_readSegment_took c hs hhead).mono (fun segment t ht => ?_) fun _ _ he => he
    refine (keeps_takeSegment_unended c segment t ht).mono (fun inOrder u hu => ?_) fun _ _ he => he
    split
    · exact hu
    · split
      · exact keeps_acknowledge_unended c u hu
      · exact hu

theorem keeps_await_unended (m : Message) :
    Keeps (fun s => Unended c.node s.world) (fun e w => FailsAfter c.node.value e w.2)
      (c.traced.await (c.traced.sendMessage m)) := by
  refine keeps_get fun s => fun t ht => ?_
  refine Call.ends_awaitRounds_of_next (c := c.traced) (W := fun _ s => Unended c.node s.world)
    (L := fun _ s => Unended c.node s.world) (M := fun m s => Took c.node m s.world)
    (K := fun e w => FailsAfter c.node.value e w.2)
    (fun s hs => .clean hs.2) (fun _ s hs => ends_nextMessage_took c hs) ?_ ?_ 1 _ ht
  · exact fun m s hs => (ends_readResponse_took c hs).mono (fun _ _ h => h.2) fun _ _ he => he
  · exact fun attempts _ => keeps_bind (keeps_takeRetry_unended c attempts) fun _ =>
      keeps_sendMessage_unended c m

theorem upholds_unended :
    c.traced.Upholds (fun s => Unended c.node s.world) (fun w => Clean c.node.value w.2)
      (fun e w => FailsAfter c.node.value e w.2) where
  adjust h hw _ _ := by rwa [hw]
  note := Call.keeps_note_of_preserves (preserves_unended c)
  tell m _ := keeps_sendMessage_unended c m
  ask m _ := keeps_bind (keeps_sendMessage_unended c m) fun _ => keeps_await_unended c m
  stream _ := by
    refine keeps_bind (keeps_sendMessage_unended c _) fun _ => ?_
    refine keeps_bind (keeps_modify fun _ hs => hs) fun _ => ?_
    exact keeps_receiveBlocks_unended c _ _ _
  abandon code e _ := keeps_abandon_unended c code e
  unfinished h := .clean h.2
  done h _ := ((preserves_unended c).note h _).2
  failed h text := h.noted (by decide) text _

theorem ends_flush_clean (n : Nat) {s : Session (σ × List Event)} (hs : ¬ Flushed s.world.2) :
    Ends (c.traced.flush n) s (fun _ t => Unended c.node t.world)
      fun e t => FailsAfter c.node.value e t.world.2 := by
  -- Nothing counts before a look finds nothing, and that is the last one of the flush.
  induction n generalizing s with
  | zero => exact .clean (clean_of_not_flushed hs)
  | succ n ih =>
    rw [Call.flush, ends_bind, Call.receive, ends_bind, ends_act]
    generalize hreceived : c.traced.link.receive s.world = p
    obtain ⟨received, w⟩ := p
    have hw := Link.traced_receive hreceived
    have hclean : Clean c.node.value s.world.2 := clean_of_not_flushed hs
    cases received with
    | error e =>
      have hgoes : ¬ Flushed w.2 := by
        rw [hw]
        exact not_flushed_append hs (by simp)
      exact .clean (clean_of_not_flushed hgoes)
    | ok m? =>
      cases m? with
      | none =>
        refine ⟨?_, ?_⟩
        · show Flushed w.2
          rw [hw]
          exact ⟨_, List.mem_append_right _ (List.mem_singleton_self _), rfl⟩
        · show Clean c.node.value w.2
          rw [hw]
          exact hclean.append fun hflushed => absurd hflushed hs
      | some m =>
        refine ih (s := { s with world := w }) ?_
        show ¬ Flushed w.2
        rw [hw]
        exact not_flushed_append hs (by simp)

theorem ends_prepare_clean (mode : Mode) {s : Session (σ × List Event)}
    (hs : ¬ Flushed s.world.2) :
    Ends (c.traced.prepare mode) s (fun _ t => Unended c.node t.world)
      fun e t => FailsAfter c.node.value e t.world.2 := by
  rw [Call.prepare, ends_bind, Call.note, ends_act]
  exact ends_flush_clean c c.patience (s := { s with world := _ })
    (not_flushed_append hs (by simp))

end

/-- An operation that takes a frame on the channel of its node after the flush ends with it if that
frame has not eight bytes, or is an abort. An abort is given as it came, and nothing is sent
behind it; nor is a retry taken, which would show as a warning in the log. -/
theorem terminal_frame_ends_operation (client : Client σ) (node : UInt8) (target : Address)
    (op : Operation) (w : σ) {before after : List Event} {m : Message} {time : Nat}
    (htrace : (client.observe node target op w).2
      = before ++ ⟨.received (.ok (some m)), time⟩ :: after)
    (hflushed : ∃ e ∈ before, e.act = .received (.ok none))
    (hid : m.id = .std (0x580 + node.toUInt16)) :
    let result := (client.perform node target op w).1
    (m.dlc ≠ 8 → result = .error (.failed (.malformed (.malformedLength m.dlc)))) ∧
      (m.dlc = 8 → m.data.get 0 = 0x80 →
        (∃ reason : AbortReason, reason.code = lastWord m.data ∧
          result = .error (.failed (.serverAbort (Address.ofPayload m.data) reason))) ∧
        ∀ e ∈ after, ∃ r, e.act = .noted r ∧ r.level ≠ .warn) := by
  intro result
  have hleaves : Leaves (fun w => Clean node w.2) (fun e w => FailsAfter node e w.2)
      (client.traced.perform node target op (w, [])) := by
    have hempty : ¬ Flushed [] := by
      rintro ⟨e, he, -⟩
      cases he
    have hclean : Clean node [] := clean_of_not_flushed hempty
    refine perform_leaves (I := fun n s => Unended n s.world) ?_ ?_
      (fun _ _ => .clean hclean) fun _ h => .clean h
    · rintro n rfl
      exact upholds_unended (client.call n target op.direction)
    · rintro n rfl mode
      exact ends_prepare_clean (client.call n target op.direction) mode hempty
  have hresult : (client.traced.perform node target op (w, [])).1 = result :=
    client.observe_result node target op w
  have htrace' : (client.traced.perform node target op (w, [])).2.2
      = before ++ ⟨.received (.ok (some m)), time⟩ :: after := htrace
  clear_value result
  generalize client.traced.perform node target op (w, []) = o at hleaves hresult htrace'
  obtain ⟨r, v⟩ := o
  subst hresult
  have hdirty : m.Terminal → ¬ Clean node v.2 := fun hterminal hclean =>
    hclean before _ after htrace' hflushed ⟨m, rfl, hid, hterminal⟩
  -- With such a frame in its trace the call has failed, and for the first one that there is.
  cases r with
  | ok a =>
    have hclean : Clean node v.2 := hleaves
    exact ⟨fun hdlc => absurd hclean (hdirty (.inl hdlc)),
      fun _ hhead => absurd hclean (hdirty (.inr hhead))⟩
  | error e =>
    have hfails : FailsAfter node e v.2 := hleaves
    cases hfails with
    | clean h =>
      exact ⟨fun hdlc => absurd h (hdirty (.inl hdlc)),
        fun _ hhead => absurd h (hdirty (.inr hhead))⟩
    | @short m' _ hdlc h =>
      have hsame := fun hterminal =>
        h.unique (fun _ h => h) htrace' hflushed hid hterminal
      refine ⟨fun hdlc' => ?_, fun hdlc' hhead => ?_⟩
      · rw [(hsame (.inl hdlc')).1]
      · exact absurd ((hsame (.inr hhead)).1 ▸ hdlc') hdlc
    | @aborted m' _ hdlc hhead h =>
      have hsame := fun hterminal =>
        h.unique (fun _ => Act.not_receives_of_quiet) htrace' hflushed hid hterminal
      refine ⟨fun hdlc' => ?_, fun hdlc' hhead' => ?_⟩
      · exact absurd ((hsame (.inl hdlc')).1 ▸ hdlc) hdlc'
      · obtain ⟨rfl, hafter⟩ := hsame (.inr hhead')
        exact ⟨⟨_, AbortReason.code_ofCode _, rfl⟩, hafter⟩

/-- An abort with a code that is not in the list, as the answer to the first request. -/
theorem terminal_frame_ends_upload_with_unknown_code :
    let m : Message :=
      { id := .std 0x585, data := #v[0x80, 0, 0x20, 0, 0x78, 0x56, 0x34, 0x12], dlc := 8
        rtr := false }
    let client : Client (Script TransportError) := { link := Script.link, patience := 4 }
    let s : Script TransportError := { replies := [.ok [.event (.frame m) 0 1]] }
    let events := (client.observe 5 ⟨0x2000, 0⟩ .upload s).2
    events[4]?.map Event.act = some (.received (.ok (some m))) ∧
      ∃ reason : AbortReason, reason.code = 0x12345678 ∧
        (client.perform 5 ⟨0x2000, 0⟩ .upload s).1
          = .error (.failed (.serverAbort ⟨0x2000, 0⟩ reason)) := by
  intro m client s events
  have hflush : events[1]?.map Event.act = some (.received (.ok none)) := by decide +kernel
  have htaken : events[4]?.map Event.act = some (.received (.ok (some m))) := by decide +kernel
  obtain ⟨e, he, hnone⟩ := Option.map_eq_some_iff.mp hflush
  obtain ⟨⟨_, time⟩, hm, rfl⟩ := Option.map_eq_some_iff.mp htaken
  have htrace : events = events.take 4 ++ ⟨.received (.ok (some m)), time⟩ :: events.drop 5 := by
    obtain ⟨hlt, hget⟩ := List.getElem?_eq_some_iff.mp hm
    rw [← hget, ← List.drop_eq_getElem_cons hlt, List.take_append_drop]
  have hflushed : ∃ e ∈ events.take 4, e.act = .received (.ok none) :=
    ⟨e, List.mem_of_getElem? (i := 1) (by rw [List.getElem?_take_of_lt (by decide), he]), hnone⟩
  have hends := terminal_frame_ends_operation client 5 ⟨0x2000, 0⟩ .upload s htrace hflushed rfl
  have htarget : Address.ofPayload m.data = ⟨0x2000, 0⟩ := by decide
  have hcode : lastWord m.data = 0x12345678 := by decide
  obtain ⟨⟨reason, hreason, hresult⟩, -⟩ := hends.2 rfl rfl
  rw [htarget] at hresult
  exact ⟨htaken, reason, hreason.trans hcode, hresult⟩

end Client
end Canopen
