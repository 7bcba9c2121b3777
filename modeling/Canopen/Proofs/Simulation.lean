import Canopen.Proofs.Lockstep

set_option autoImplicit false

namespace Canopen.Client

open Can (Message)
open Sdo
open Transfer

variable {σ τ α : Type}

/-- Worlds that are related look the same to a client that sends to one node only, and stay
related. -/
structure Simulates (R : σ → τ → Prop) (node : NodeId) (a : Link σ) (b : Link τ) : Prop where
  send : ∀ {w l}, R w l → ∀ m : Message, m.id = node.requestId →
    (a.send m w).1 = (b.send m l).1 ∧ R (a.send m w).2 (b.send m l).2
  receive : ∀ {w l}, R w l → (a.receive w).1 = (b.receive l).1 ∧ R (a.receive w).2 (b.receive l).2
  note : ∀ {w l}, R w l → ∀ r, R (a.note r w) (b.note r l)
  now : ∀ {w l}, R w l → a.now w = b.now l
  sleep : ∀ {w l}, R w l → ∀ t, R (a.sleep t w) (b.sleep t l)
  cancelled : ∀ {w l}, R w l → a.cancelled w = b.cancelled l

def Follows (R : σ → τ → Prop) (o : Outcome σ α) (p : Outcome τ α) : Prop :=
  o.1 = p.1 ∧ ∀ v, o.1 = .ok v → R o.2 p.2

section
variable {R : σ → τ → Prop} {c : Call σ} {b : Link τ}

theorem Simulates.resembles {node : NodeId} {a : Link σ} (h : Simulates R node a b) :
    a.Resembles b R :=
  ⟨h.receive, h.note, h.now, h.sleep, h.cancelled⟩

theorem Simulates.lockstep_trySend {E : Stop → σ → τ → Prop} (h : Simulates R c.node c.link b)
    {m : Message} (hm : m.id = c.node.requestId) :
    Lockstep (OfWorlds R) E (c.trySend m) ((c.onLink b).trySend m) :=
  Call.lockstep_trySend h.resembles fun hr => h.send hr m hm

theorem Simulates.lockstep_abort {E : Stop → σ → τ → Prop} (h : Simulates R c.node c.link b)
    (code : AbortCode) : Lockstep (OfWorlds R) E (c.abort code) ((c.onLink b).abort code) := by
  refine lockstep_bind (Call.lockstep_note h.resembles _ _) fun _ => ?_
  refine lockstep_bind (h.lockstep_trySend (Request.message_id _ c.node)) fun sent => ?_
  cases sent with
  | ok _ => exact lockstep_pure _
  | error e => exact Call.lockstep_note h.resembles _ _

theorem Simulates.mirrors (h : Simulates R c.node c.link b) : c.Mirrors b R fun _ _ => True where
  toResembles := h.resembles
  send := fun hr m hm _ => h.send hr m hm
  stop := fun _ _ _ => trivial
  abandon := fun code _ _ => lockstep_bind (h.lockstep_abort code) fun _ =>
    lockstep_throw fun _ => trivial
  noted := fun _ _ => trivial

/-- Of the worlds that are left in the end less may be told. -/
theorem Simulates.tracks_of {J : σ → τ → Prop} {E : Stop → σ → τ → Prop}
    (h : Simulates R c.node c.link b) (hdone : ∀ {w l}, R w l → J w l)
    (hstop : ∀ {w l}, R w l → ∀ e, E e w l)
    (hnoted : ∀ {e w l}, E e w l → ∀ r, E e (c.link.note r w) (b.note r l)) :
    c.Tracks b (OfWorlds R) J E where
  adjust := by
    intro s t l hr hw _
    rw [OfWorlds, hw]
    exact hr
  note := Call.lockstep_note h.resembles
  restart := Call.lockstep_restartDeadline h.resembles
  tell m hm _ :=
    Call.lockstep_sendMessage h.resembles (fun hr e _ => hstop hr e) fun hr => h.send hr m hm
  next := by
    refine Call.lockstep_poll h.resembles (fun hr e _ => hstop hr e) ?_ c.patience
    refine lockstep_bind (Call.lockstep_note h.resembles _ _) fun _ => ?_
    exact lockstep_bind (h.lockstep_abort _) fun _ => lockstep_throw fun hr => hstop hr _
  stop hr e _ := hstop hr e
  abandon code _ _ :=
    lockstep_bind (h.lockstep_abort code) fun _ => lockstep_throw fun hr => hstop hr _
  done hr r := hdone (h.note hr r)
  noted he r := hnoted he r

theorem Simulates.tracks (h : Simulates R c.node c.link b) :
    c.Tracks b (OfWorlds R) R fun _ => R :=
  h.tracks_of (fun hr => hr) (fun hr _ => hr) h.note

theorem Simulates.transfer_alike {client : Client σ} {node : NodeId}
    (h : Simulates R node client.link b) {w : σ} {l : τ}
    (hr : R (client.link.resume w) (b.resume l)) (target : Address) (direction : Direction)
    (mode : Mode) {work : Call σ → Transfer σ α} {work' : Call τ → Transfer τ α}
    (hw : ∀ {c : Call σ}, c.Tracks b (OfWorlds R) R (fun _ => R) →
      Lockstep (OfWorlds R) (fun _ => R) (work c) (work' (c.onLink b))) :
    Alike R (fun _ => R) (client.transfer node.value target direction mode work w)
      ((client.onLink b).transfer node.value target direction mode work' l) := by
  let c := client.call node target direction
  have hc : Simulates R c.node c.link b := h
  rw [transfer_node, transfer_node]
  refine Call.run_alike hc.tracks (hw hc.tracks) ?_
  exact Call.prepare_abreast hc.resembles (fun hr _ _ => hr) hr mode

end

theorem perform_follows {R : σ → τ → Prop} {client : Client σ} {b : Link τ} {node : NodeId}
    (h : Simulates R node client.link b) {w : σ} {l : τ}
    (hr : R (client.link.resume w) (b.resume l)) (target : Address) (op : Operation) :
    Follows R (client.perform node.value target op w)
      ((client.onLink b).perform node.value target op l) := by
  have hmirrors : ∀ n : NodeId, n.value = node.value → ∀ direction,
      (client.call n target direction).Mirrors b R fun _ _ => True := by
    intro n hn direction
    obtain rfl : n = node :=
      Option.some.inj (by rw [← n.ofByte?_value, ← node.ofByte?_value, hn])
    exact Simulates.mirrors (c := client.call n target direction) h
  obtain ⟨hresult, hvalue, -⟩ := perform_parallel hmirrors (fun _ _ => trivial) hr
    (fun _ _ _ => trivial) op
  exact ⟨hresult, hvalue⟩

end Canopen.Client
