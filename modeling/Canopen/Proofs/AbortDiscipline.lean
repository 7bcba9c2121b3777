import Canopen.Proofs.Ends
import Canopen.Proofs.Lockstep

set_option autoImplicit false

namespace Canopen

open Can (Message TransportError)
open Sdo
open Sdo.Traffic (NoAbort noAbort_nil)

namespace Client

open Transfer

variable {σ τ α : Type}

def Link.recording (a : Link σ) : Link (σ × List Message) where
  send m w :=
    let (sent, v) := a.send m w.1
    (sent, v, w.2 ++ [m])
  receive w :=
    let (received, v) := a.receive w.1
    (received, v, w.2)
  backlog w := a.backlog w.1
  note r w := (a.note r w.1, w.2)
  now w := a.now w.1
  sleep t w := (a.sleep t w.1, w.2)
  cancelled w := a.cancelled w.1
  resume w := (a.resume w.1, w.2)

/-- The same link, with another fate for the aborts. -/
def Link.abortingBy (a : Link σ) (f : Message → σ → Except TransportError Unit × σ) : Link σ :=
  { a with send := fun m w => if m.data.get 0 = 0x80 then f m w else a.send m w }

theorem Link.abortingBy_send (a : Link σ) : a.abortingBy a.send = a := by
  simp [abortingBy]

def abortFrame (node : UInt8) (target : Address) (code : UInt32) : Message where
  id := .std (0x600 + node.toUInt16)
  data := #v[0x80, byteAt target.index.toNat 0, byteAt target.index.toNat 1, target.sub,
    byteAt code.toNat 0, byteAt code.toNat 1, byteAt code.toNat 2, byteAt code.toNat 3]
  dlc := 8
  rtr := false

/-- One abort with this code, behind all else; or none at all. -/
def AbortsWith (node : UInt8) (target : Address) (code? : Option UInt32) (sent : List Message) :
    Prop :=
  match code? with
  | none => NoAbort sent
  | some code => ∃ before, NoAbort before ∧ sent = before ++ [abortFrame node target code]

def resultCode? : Except Stop α → Option UInt32
  | .ok _ => none
  | .error e => e.abortCode?

theorem message_abort (target : Address) (code : UInt32) (node : NodeId) :
    (Request.abort target code).message node = abortFrame node.value target code :=
  Request.message_eq node trivial trivial

theorem Call.ends_abandon_of_send {c : Call σ} {P Q : σ → Prop}
    (hP : ∀ w r, P w → P (c.link.note r w)) (hQ : ∀ w r, Q w → Q (c.link.note r w))
    (code : AbortCode) (e : Error)
    (hsend : ∀ w, P w → Q (c.link.send ((Request.abort c.target code.code).message c.node) w).2)
    {s : Session σ} (hs : P s.world) :
    Ends (c.abandon code e : Transfer σ α) s (fun _ _ => False)
      (fun stop t => stop = .failed e ∧ Q t.world) := by
  simp only [abandon, abort, trySend, note, Request.abortWith, ends_bind, ends_act]
  generalize hm : (Request.abort c.target code.code).message c.node = m at hsend
  generalize hsent : c.link.send m _ = p
  obtain ⟨sent, w⟩ := p
  have hw : Q (sent, w).2 := by
    rw [← hsent]
    exact hsend _ (hP _ _ (hP _ _ hs))
  cases sent with
  | ok _ => exact ⟨rfl, hw⟩
  | error _ => exact ⟨rfl, hQ _ _ hw⟩

theorem Abreast.of_fails {R : Session σ → τ → Prop} {E : Stop → σ → Prop} {x : Transfer σ α}
    {y : Transfer τ α} {e : Error} {s : Session σ} {t : Session τ}
    (hx : Ends x s (fun _ _ => False) fun stop s => stop = .failed e ∧ E stop s.world)
    (hy : Ends y t (fun _ _ => False) fun stop _ => stop = .failed e) :
    Abreast R (fun e w _ => E e w) (x s) (y t) := by
  unfold Ends at hx hy
  generalize x s = p at hx
  generalize y t = q at hy
  cases p with
  | ok => exact hx.elim
  | error =>
    cases q with
    | ok => exact hy.elim
    | error =>
      obtain ⟨rfl, hE⟩ := hx
      obtain rfl := hy
      exact .error hE

/-- Nothing that a client does before it aborts can be told by how aborts are sent. -/
theorem mirrors_recording (c : Call σ) (f : Message → σ → Except TransportError Unit × σ) :
    (c.onLink c.link.recording).Mirrors (c.link.abortingBy f)
      (fun w l => w.1 = l ∧ NoAbort w.2)
      (fun e w => AbortsWith c.node.value c.target e.abortCode? w.2) where
  receive := by
    rintro w _ ⟨rfl, hw⟩
    exact ⟨rfl, rfl, hw⟩
  note := by
    rintro w _ ⟨rfl, hw⟩ r
    exact ⟨rfl, hw⟩
  now := by
    rintro w _ ⟨rfl, hw⟩
    rfl
  sleep := by
    rintro w _ ⟨rfl, hw⟩ t
    exact ⟨rfl, hw⟩
  cancelled := by
    rintro w _ ⟨rfl, hw⟩
    rfl
  send := by
    rintro w _ ⟨rfl, hw⟩ m hm hhead
    have hsend : (c.link.abortingBy f).send m w.1 = c.link.send m w.1 := if_neg hhead
    rw [hsend]
    exact ⟨rfl, rfl, hw.append (noAbort_nil.cons hhead)⟩
  stop := by
    rintro w _ ⟨rfl, hw⟩ e he
    rw [he]
    exact hw
  abandon := by
    -- The abort is kept on the one side and sent on the other, and then both have failed.
    rintro α code e he s _ ⟨rfl, hw⟩
    have hfails := Call.ends_abandon_of_send (c := c.onLink (c.link.abortingBy f)) (α := α)
      (P := fun _ => True) (Q := fun _ => True) (fun _ _ h => h) (fun _ _ h => h) code e
      (fun _ h => h) (s := s.inWorld s.world.1) trivial
    have hrecords := Call.ends_abandon_of_send (c := c.onLink c.link.recording) (α := α)
      (P := fun w => w.2 = s.world.2)
      (Q := fun w => w.2 = s.world.2 ++ [(Request.abort c.target code.code).message c.node])
      (fun _ _ h => h) (fun _ _ h => h) code e (fun _ h => congrArg (· ++ _) h) (s := s) rfl
    refine Abreast.of_fails (e := e) (hrecords.mono (fun _ _ h => h) ?_)
      (hfails.mono (fun _ _ h => h) ?_)
    · rintro _ t ⟨rfl, hsent⟩
      refine ⟨rfl, ?_⟩
      show AbortsWith c.node.value c.target e.abortCode? t.world.2
      rw [he, hsent, message_abort]
      exact ⟨s.world.2, hw, rfl⟩
    · exact fun _ _ h => h.1
  noted := fun he _ => he

/-- Whatever the world does, the result of an operation tells whether an abort was sent, which one,
and that nothing was sent behind it. How the abort itself fares makes no difference. -/
theorem abort_fits_result (client : Client σ) (node : UInt8) (target : Address) (op : Operation)
    (w : σ) :
    let o := (client.onLink client.link.recording).perform node target op (w, [])
    o.1 = (client.perform node target op w).1 ∧
      AbortsWith node target (resultCode? o.1) o.2.2 ∧
      ∀ f, ((client.onLink (client.link.abortingBy f)).perform node target op w).1 = o.1 := by
  intro o
  have hparallel : ∀ f, Parallel (fun w l => w.1 = l ∧ NoAbort w.2)
      (fun e w => AbortsWith node target e.abortCode? w.2) o
      ((client.onLink (client.link.abortingBy f)).perform node target op w) := by
    intro f
    have hmirrors : ∀ n : NodeId, n.value = node → ∀ direction,
        ((client.onLink client.link.recording).call n target direction).Mirrors
          (client.link.abortingBy f) (fun w l => w.1 = l ∧ NoAbort w.2)
          (fun e w => AbortsWith node target e.abortCode? w.2) := by
      rintro n rfl direction
      exact mirrors_recording (client.call n target direction) f
    refine perform_parallel (w := (w, [])) (l := w) hmirrors ?_ ⟨rfl, noAbort_nil⟩ ?_ op
    · intro e he
      rw [he]
      exact noAbort_nil
    · rintro w l ⟨-, hw⟩ e he
      rw [he]
      exact hw
  refine ⟨?_, ?_, fun f => (hparallel f).result.symm⟩
  · have hsame := (hparallel client.link.send).result
    rw [Link.abortingBy_send] at hsame
    exact hsame
  · have hany := hparallel client.link.send
    cases ho : o.1 with
    | ok v => exact (hany.value v ho).2
    | error e => exact hany.failure e ho

end Client
end Canopen
