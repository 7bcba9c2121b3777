import Canopen.Proofs.Attachment
import Canopen.Proofs.Upholding

set_option autoImplicit false

namespace Canopen.Client

open Can (Message)
open Sdo
open Transfer

variable {σ τ α β : Type}

/-- A world and someone who watches its link. -/
structure Supervised (σ : Type) where
  world : σ
  uses : Nat := 0
  cancelled : Bool := false

def Supervised.next (w : Supervised σ) (press : Nat → Bool) (world : σ) : Supervised σ :=
  { world, uses := w.uses + 1, cancelled := w.cancelled || press w.uses }

/-- A link on which the transfer under way is cancelled at use number `i` if `press i`. All that a
client does between two looks at the switch uses the link, so that this can be at any moment. -/
def Link.supervised (a : Link σ) (press : Nat → Bool) : Link (Supervised σ) where
  send m w := ((a.send m w.world).1, w.next press (a.send m w.world).2)
  receive w := ((a.receive w.world).1, w.next press (a.receive w.world).2)
  backlog w := a.backlog w.world
  note r w := w.next press (a.note r w.world)
  now w := a.now w.world
  sleep t w := w.next press (a.sleep t w.world)
  cancelled w := a.cancelled w.world || w.cancelled
  resume w := { world := a.resume w.world, uses := w.uses }

def supervised (client : Client σ) (press : Nat → Bool) : Client (Supervised σ) :=
  client.onLink (client.link.supervised press)

structure Together (R : σ → τ → Prop) (w : Supervised σ) (l : Supervised τ) : Prop where
  worlds : R w.world l.world
  uses : w.uses = l.uses
  cancelled : w.cancelled = l.cancelled

theorem Together.next {R : σ → τ → Prop} {w : Supervised σ} {l : Supervised τ}
    (h : Together R w l) (press : Nat → Bool) {v : σ} {k : τ} (hr : R v k) :
    Together R (w.next press v) (l.next press k) := by
  obtain ⟨-, huses, hcancelled⟩ := h
  refine ⟨hr, congrArg (· + 1) huses, ?_⟩
  show (w.cancelled || press w.uses) = (l.cancelled || press l.uses)
  rw [huses, hcancelled]

/-- Watching does not tell one link from another. -/
theorem Simulates.supervised {R : σ → τ → Prop} {node : NodeId} {a : Link σ} {b : Link τ}
    (h : Simulates R node a b) (press : Nat → Bool) :
    Simulates (Together R) node (a.supervised press) (b.supervised press) where
  send hr m hm := by
    obtain ⟨hresult, hworlds⟩ := h.send hr.worlds m hm
    exact ⟨hresult, hr.next press hworlds⟩
  receive hr := by
    obtain ⟨hresult, hworlds⟩ := h.receive hr.worlds
    exact ⟨hresult, hr.next press hworlds⟩
  note hr r := hr.next press (h.note hr.worlds r)
  now hr := h.now hr.worlds
  sleep hr t := hr.next press (h.sleep hr.worlds t)
  cancelled {w l} hr := by
    show (a.cancelled w.world || w.cancelled) = (b.cancelled l.world || l.cancelled)
    rw [h.cancelled hr.worlds, hr.cancelled]

end Canopen.Client
