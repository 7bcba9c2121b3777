import Canopen.Proofs.Simulation
import Mathlib.Control.Monad.Basic

set_option autoImplicit false

namespace Canopen

section
variable {α : Type} {l es before since : List α} {e x : α}

theorem split_of_append (h : l ++ es = before ++ x :: since) :
    (∃ since', since = since' ++ es ∧ l = before ++ x :: since') ∨
      ∃ between, es = between ++ x :: since ∧ before = l ++ between := by
  obtain ⟨between, hbefore, hes⟩ | ⟨rest, hl, hrest⟩ := List.append_eq_append_iff.mp h
  · exact .inr ⟨between, hes, hbefore⟩
  · cases rest with
    | nil => exact .inr ⟨[], hrest.symm, by simpa using hl.symm⟩
    | cons y rest =>
      obtain ⟨rfl, rfl⟩ := List.cons.inj hrest
      exact .inl ⟨rest, rfl, hl⟩

theorem split_singleton (h : [e] = before ++ x :: since) : before = [] ∧ x = e ∧ since = [] := by
  cases before with
  | nil =>
    obtain ⟨rfl, rfl⟩ := List.cons.inj h
    exact ⟨rfl, rfl, rfl⟩
  | cons y before => simp at h

theorem split_of_snoc (h : l ++ [e] = before ++ x :: since) :
    (∃ since', since = since' ++ [e] ∧ l = before ++ x :: since') ∨
      x = e ∧ since = [] ∧ before = l := by
  obtain hearlier | ⟨between, hlast, rfl⟩ := split_of_append h
  · exact .inl hearlier
  · obtain ⟨rfl, rfl, rfl⟩ := split_singleton hlast
    exact .inr ⟨rfl, rfl, List.append_nil l⟩

end

namespace Client

open Can (Message TransportError)
open Sdo (Address)

variable {σ : Type}

inductive Act where
  | sent (m : Message) (outcome : Except TransportError Unit)
  | received (outcome : Except TransportError (Option Message))
  | noted (r : Record)
  | slept (time : Nat)
  deriving DecidableEq

/-- An act, and what the clock shows behind it. -/
structure Event where
  act : Act
  time : Nat
  deriving DecidableEq

def Link.traced (a : Link σ) : Link (σ × List Event) where
  send m w :=
    let (outcome, v) := a.send m w.1
    (outcome, v, w.2 ++ [⟨.sent m outcome, a.now v⟩])
  receive w :=
    let (outcome, v) := a.receive w.1
    (outcome, v, w.2 ++ [⟨.received outcome, a.now v⟩])
  backlog w := a.backlog w.1
  note r w :=
    let v := a.note r w.1
    (v, w.2 ++ [⟨.noted r, a.now v⟩])
  now w := a.now w.1
  sleep t w :=
    let v := a.sleep t w.1
    (v, w.2 ++ [⟨.slept t, a.now v⟩])
  cancelled w := a.cancelled w.1
  resume w := (a.resume w.1, w.2)

theorem Link.traced_send {a : Link σ} {m : Message} {w v : σ × List Event}
    {outcome : Except TransportError Unit} (h : a.traced.send m w = (outcome, v)) :
    v.2 = w.2 ++ [⟨.sent m outcome, a.now v.1⟩] := by
  cases h
  rfl

theorem Link.traced_receive {a : Link σ} {w v : σ × List Event}
    {outcome : Except TransportError (Option Message)} (h : a.traced.receive w = (outcome, v)) :
    v.2 = w.2 ++ [⟨.received outcome, a.now v.1⟩] := by
  cases h
  rfl

def traced (client : Client σ) : Client (σ × List Event) := client.onLink client.link.traced

def Call.traced (c : Call σ) : Call (σ × List Event) := c.onLink c.link.traced

/-- What an operation came to, and all that was done at the link meanwhile. -/
def observe (client : Client σ) (node : UInt8) (target : Address) (op : Operation) (w : σ) :
    Except Stop Value × List Event :=
  let (result, _, events) := client.traced.perform node target op (w, [])
  (result, events)

theorem simulates_traced (a : Link σ) (node : NodeId) :
    Simulates (fun w l => w.1 = l) node a.traced a where
  send := by
    rintro w _ rfl m -
    exact ⟨rfl, rfl⟩
  receive := by
    rintro w _ rfl
    exact ⟨rfl, rfl⟩
  note := by
    rintro w _ rfl r
    rfl
  now := by
    rintro w _ rfl
    rfl
  sleep := by
    rintro w _ rfl t
    rfl
  cancelled := by
    rintro w _ rfl
    rfl

theorem observe_result (client : Client σ) (node : UInt8) (target : Address) (op : Operation)
    (w : σ) :
    (client.observe node target op w).1 = (client.perform node target op w).1 := by
  have hmirrors : ∀ n : NodeId, n.value = node → ∀ direction,
      (client.traced.call n target direction).Mirrors client.link (fun w l => w.1 = l)
        fun _ _ => True :=
    fun n _ direction =>
      Simulates.mirrors (c := client.traced.call n target direction) (simulates_traced _ n)
  have hparallel := perform_parallel (w := (w, [])) (l := w) hmirrors (fun _ _ => trivial) rfl
    (fun _ _ _ => trivial) op
  exact hparallel.result

end Client

end Canopen
