import Canopen.Proofs.Outcomes
import Mathlib.Data.Finset.Card
import Mathlib.Data.Finset.Range

set_option autoImplicit false

namespace Canopen

open Sdo (Address)

namespace Line

theorem countLost_le_card (lost : Finset Nat) (l : Line) :
    l.countLost (· ∈ lost) ≤ lost.card := by
  rw [countLost, List.countP_eq_length_filter,
    ← List.toFinset_card_of_nodup (List.nodup_range.filter _)]
  apply Finset.card_le_card
  intro i hi
  rw [List.mem_toFinset, List.mem_filter] at hi
  exact of_decide_eq_true hi.2

end Line

namespace Client

theorem Concludes.ne_unfinished {α : Type} {lost : Nat → Bool} {l : Line} {retries : Nat}
    {verdict : Except Error (α × Server)} {frames : List Can.Message} {o : Outcome Line α}
    (h : Concludes lost l retries verdict frames o) : o.1 ≠ .error .unfinished := by
  rcases h with h | ⟨⟨k, hk⟩, -⟩
  · cases verdict with
    | ok r => simp [h.1]
    | error e => simp [h.1]
  · simp [hk]

def resultOf {α : Type} : Except Error (α × Server) → Except Stop α
  | .ok (v, _) => .ok v
  | .error e => .error (.failed e)

def objectsOf {α : Type} (objects : Server.Dictionary) :
    Except Error (α × Server) → Server.Dictionary
  | .ok (_, srv) => srv.objects
  | .error _ => objects

theorem Concludes.determined {α : Type} {lost : Nat → Bool} {l : Line} {retries : Nat}
    {verdict : Except Error (α × Server)} {frames : List Can.Message} {o : Outcome Line α}
    (h : Concludes lost l retries verdict frames o) :
    Expires lost l retries o ∨
      o.1 = resultOf verdict ∧ o.2.server.objects = objectsOf l.server.objects verdict := by
  rcases h with h | h
  · right
    cases verdict with
    | ok r =>
      obtain ⟨hr, left, state, -, ⟨-, k, hk⟩, -⟩ := h
      refine ⟨hr, ?_⟩
      rw [hk]
      rfl
    | error e => exact h
  · exact .inl h

/-- The operation gave up waiting. -/
def TimedOut {σ α : Type} (o : Outcome σ α) : Prop :=
  ∃ attempts, o.1 = .error (.failed (.timeout attempts))

/-- Lost requests are not noticed, but for the time it takes: an operation comes to the same as if
nothing were lost, or it gives up, as more was lost than there were retries. -/
theorem lost_requests_transparent (config : Config) (valid : config.Valid)
    (interval : 1 ≤ config.pollInterval) (lost : Finset Nat) (l : Line)
    (faultless : l.server.faults = {}) (idle : l.server.state = .idle) (target : Address)
    (op : Operation)
    (small : op.Fetches → ∀ object, l.server.objects.get? target = some object →
      object.length < UInt32.size) :
    ∃ p, ∀ patience, p ≤ patience →
      let lossy := (Line.client { request := (· ∈ lost) } config valid patience).perform
        l.server.node.value target op l
      let free := (Line.client {} config valid patience).perform l.server.node.value target op l
      lossy.1 ≠ .error .unfinished ∧
      ((¬TimedOut lossy ∧ lossy.1 = free.1 ∧
          lossy.2.server.objects = free.2.server.objects) ∨
        (TimedOut lossy ∧ lossy.2.server.objects = l.server.objects ∧
          config.retries.toNat <
            lossy.2.countLost (· ∈ lost) - l.countLost (· ∈ lost))) := by
  refine ⟨patienceFor config l target lost.card, fun patience hp => ?_⟩
  have hlossy := (ready config valid hp (fun _ _ => interval) (Line.countLost_le_card lost)
    faultless idle).concludes op fun hop => takes config valid hp _ (small hop)
  have hnone : ∀ m : Line, m.countLost (fun _ => false) ≤ lost.card := fun m => by
    simp [Line.countLost]
  have hfree := (ready config valid hp (fun _ _ => interval) hnone faultless idle).concludes op
    fun hop => takes config valid hp _ (small hop)
  intro lossy free
  refine ⟨hlossy.ne_unfinished, ?_⟩
  -- Without losses the verdict is reached. With them it is too, or more was lost than paid for.
  rcases hfree.determined with ⟨-, -, hsome⟩ | ⟨hfree, hfree'⟩
  · simp [Line.countLost] at hsome
  rcases hlossy.determined with ⟨hk, hobjects, hmore⟩ | ⟨hlossy, hlossy'⟩
  · have hmore' : config.retries.toNat + l.countLost (· ∈ lost)
        < lossy.2.countLost (· ∈ lost) := hmore
    exact .inr ⟨hk, hobjects, by omega⟩
  · refine .inl ⟨?_, hlossy.trans hfree.symm, hlossy'.trans hfree'.symm⟩
    intro hq
    obtain ⟨k, hk⟩ := hq
    have hresult : resultOf (op.verdict config l.server target) = .error (.failed (.timeout k)) :=
      hlossy.symm.trans hk
    unfold resultOf at hresult
    split at hresult
    · cases hresult
    · rename_i e he
      cases hresult
      exact Operation.verdict_ne_timeout he

theorem lost_requests_transparent_for_two_segments :
    ∃ p, ∀ patience, p ≤ patience →
      let l : Line := { server := { node := ⟨5, by decide, by decide⟩ } }
      ((Line.client { request := (· ∈ ({1, 2} : Finset Nat)) } {} (by decide) patience).perform 5
        ⟨0x2000, 0⟩ (.downloadSegmented [1, 2, 3, 4, 5, 6, 7, 8]) l).1 ≠ .error .unfinished := by
  let l : Line := { server := { node := ⟨5, by decide, by decide⟩ } }
  obtain ⟨p, hp⟩ := lost_requests_transparent {} (by decide) (by decide) {1, 2} l rfl rfl
    ⟨0x2000, 0⟩ (.downloadSegmented [1, 2, 3, 4, 5, 6, 7, 8]) (fun hop => hop.elim)
  exact ⟨p, fun patience hle => (hp patience hle).1⟩

end Client
end Canopen
