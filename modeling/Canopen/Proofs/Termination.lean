import Canopen.Proofs.Upholding
import Canopen.Script

/-!
A client of a link from which only so much can still come always comes to a result, if it has the
patience for that. Each message that it takes is one less to come. A wait for one ends at a
deadline, and then it takes a retry to wait again.
-/

set_option autoImplicit false

namespace Canopen.Client

open Can (Message)
open Sdo
open Transfer

variable {σ α β : Type}

/-- Only so many messages can still come, as `stock` tells, and time goes by while a client
sleeps. -/
structure Link.Finite (a : Link σ) (stock : σ → Nat) : Prop where
  received : ∀ {w v m}, a.receive w = (.ok (some m), v) → stock v < stock w ∧ a.now w ≤ a.now v
  silent : ∀ {w v}, a.receive w = (.ok none, v) → stock v ≤ stock w ∧ a.now w ≤ a.now v
  note : ∀ w r, stock (a.note r w) ≤ stock w ∧ a.now w ≤ a.now (a.note r w)
  send : ∀ w m, stock (a.send m w).2 ≤ stock w ∧ a.now w ≤ a.now (a.send m w).2
  sleep : ∀ w t, stock (a.sleep t w) ≤ stock w ∧ a.now w + t ≤ a.now (a.sleep t w)
  resume : ∀ w, stock (a.resume w) ≤ stock w

/-- A call that can still take so many messages and retries, all of them together. -/
structure Call.Solvent (c : Call σ) (stock : σ → Nat) (budget : Nat) (s : Session σ) : Prop where
  funds : stock s.world + s.retries ≤ budget
  timely : s.deadline ≤ c.link.now s.world + c.config.timeout

abbrev Concluded (e : Stop) (_ : σ) : Prop := e ≠ .unfinished

theorem Call.Solvent.mono {c : Call σ} {stock : σ → Nat} {n m : Nat} {s : Session σ}
    (h : c.Solvent stock n s) (hle : n ≤ m) : c.Solvent stock m s :=
  ⟨Nat.le_trans h.funds hle, h.timely⟩

def Call.Pays (c : Call σ) (stock : σ → Nat) (budget : Nat) (x : Transfer σ α) : Prop :=
  ∀ s, c.Solvent stock budget s →
    Ends x s (fun _ t => ∃ left < budget, c.Solvent stock left t) fun e t => Concluded e t.world

namespace Call

variable {c : Call σ} {stock : σ → Nat} {budget : Nat}

theorem Pays.bind {x : Transfer σ α} {f : α → Transfer σ β} (hx : c.Pays stock budget x)
    (hf : ∀ a, ∀ left < budget, Keeps (c.Solvent stock left) Concluded (f a)) :
    Keeps (c.Solvent stock budget) Concluded (x >>= f) := by
  intro s hs
  rw [ends_bind]
  refine (hx s hs).mono (fun a t ht => ?_) fun _ _ he => he
  obtain ⟨left, hlt, ht⟩ := ht
  exact (hf a left hlt t ht).mono (fun _ _ hu => hu.mono (Nat.le_of_lt hlt)) fun _ _ he => he

theorem Pays.keeps {x : Transfer σ α} (hx : c.Pays stock budget x) :
    Keeps (c.Solvent stock budget) Concluded x := fun s hs =>
  (hx s hs).mono (fun _ _ ⟨_, hlt, ht⟩ => ht.mono (Nat.le_of_lt hlt)) fun _ _ he => he

theorem ends_abandon_concluded (code : AbortCode) (e : Error) {s : Session σ}
    {Q : α → Session σ → Prop} :
    Ends (c.abandon code e : Transfer σ α) s Q fun e t => Concluded e t.world := by
  have hfails := ends_abandon_of_send (c := c) (α := α) (s := s) (P := fun _ => True)
    (Q := fun _ => True) (fun _ _ h => h) (fun _ _ h => h) code e (fun _ h => h) trivial
  refine hfails.mono (fun _ _ h => h.elim) fun _ _ h => ?_
  rw [h.1]
  exact Stop.noConfusion

section
variable (hf : c.link.Finite stock)
include hf

theorem Solvent.note {s : Session σ} (h : c.Solvent stock budget s) (r : Record) :
    c.Solvent stock budget { s with world := c.link.note r s.world } := by
  obtain ⟨hstock, hnow⟩ := hf.note s.world r
  have hfunds := h.funds
  have htimely := h.timely
  exact ⟨by dsimp only; omega, by dsimp only; omega⟩

theorem keeps_note_solvent (level : Level) (text : String) :
    Keeps (c.Solvent stock budget) Concluded (c.note level text) :=
  fun _ hs => hs.note hf _

theorem ends_sendMessage_solvent (m : Message) {s : Session σ} (hs : c.Solvent stock budget s) :
    Ends (c.sendMessage m) s (fun _ t => c.Solvent stock budget t ∧ t.retries = s.retries)
      fun e t => Concluded e t.world := by
  simp only [sendMessage, trySend, Call.note, ends_bind, ends_act]
  have hnoted := hs.note hf ⟨.trace, s!"SDO tx: {m}"⟩
  obtain ⟨hstock, hnow⟩ := hf.send (c.link.note ⟨.trace, s!"SDO tx: {m}"⟩ s.world) m
  have hfunds := hnoted.funds
  generalize c.link.send m _ = p at hstock hnow
  obtain ⟨sent, w⟩ := p
  cases sent with
  | ok _ => exact ⟨⟨Nat.le_trans (Nat.add_le_add_right hstock _) hfunds, Nat.le_refl _⟩, rfl⟩
  | error e => exact Stop.noConfusion

theorem keeps_sendMessage_solvent (m : Message) :
    Keeps (c.Solvent stock budget) Concluded (c.sendMessage m) := fun _ hs =>
  (ends_sendMessage_solvent hf m hs).mono (fun _ _ ht => ht.1) fun _ _ he => he

theorem ends_takeRetry_solvent (attempts : UInt32) {s : Session σ}
    (hs : c.Solvent stock budget s) :
    Ends (c.takeRetry attempts) s
      (fun _ t => t.retries < s.retries ∧ ∃ left < budget, c.Solvent stock left t)
      fun e t => Concluded e t.world := by
  rw [takeRetry, ends_bind, ends_get]
  cases hretries : s.retries with
  | zero => exact Stop.noConfusion
  | succ left =>
    have hfunds := hs.funds
    have hsolvent : c.Solvent stock (budget - 1) { s with retries := left } :=
      ⟨by dsimp only; omega, hs.timely⟩
    exact ⟨Nat.lt_succ_self left, budget - 1, by omega, hsolvent.note hf _⟩

theorem ends_nextMessage_solvent (interval : 0 < c.config.pollInterval)
    (hp : budget + c.config.timeout < c.patience) {s : Session σ} (hs : c.Solvent stock budget s) :
    Ends c.nextMessage s
      (fun received t => t.retries = s.retries ∧ match received with
        | some _ => ∃ left < budget, c.Solvent stock left t
        | none => c.Solvent stock budget t)
      fun e t => Concluded e t.world := by
  -- Each look takes a message or is followed by a sleep, and there is only so long to sleep.
  let W (n : Nat) (t : Session σ) : Prop := c.Solvent stock budget t ∧ t.retries = s.retries ∧
    stock t.world + (t.deadline - c.link.now t.world) < n
  have hfunds := hs.funds
  have htimely := hs.timely
  refine ends_poll_of_looks (W := W) ?_ ?_ ?_ ?_ ?_ ?_ c.patience ⟨hs, rfl, by omega⟩
  · intro n t ht
    rw [cancel, ends_bind, Call.note, ends_act]
    exact ends_abandon_concluded _ _
  · rintro t ⟨-, -, hlt⟩
    omega
  · rintro n t e w - -
    exact Stop.noConfusion
  · rintro n t w ⟨ht, hr, hlt⟩ hw
    obtain ⟨hstock, hnow⟩ := hf.silent hw
    obtain ⟨hfunds, htimely⟩ := ht
    split
    · exact ⟨hr, ⟨by dsimp only; omega, by dsimp only; omega⟩⟩
    · rename_i hgoes
      obtain ⟨hslept, hlater⟩ := hf.sleep w c.config.pollInterval
      exact ⟨⟨by dsimp only; omega, by dsimp only; omega⟩, hr, by dsimp only; omega⟩
  · rintro n t m w ⟨ht, hr, hlt⟩ hw -
    obtain ⟨hstock, hnow⟩ := hf.received hw
    obtain ⟨hfunds, htimely⟩ := ht
    have hw' : c.Solvent stock budget { t with world := w } :=
      ⟨by dsimp only; omega, by dsimp only; omega⟩
    obtain ⟨hnoted, hlater⟩ := hf.note w ⟨.trace, s!"Ignoring {m}"⟩
    dsimp only
    split
    · exact ⟨hr, hw'.note hf _⟩
    · exact ⟨hw'.note hf _, hr, by dsimp only; omega⟩
  · rintro n t m w ⟨ht, hr, hlt⟩ hw -
    obtain ⟨hstock, hnow⟩ := hf.received hw
    obtain ⟨hfunds, htimely⟩ := ht
    have hw' : c.Solvent stock (budget - 1) { t with world := w } :=
      ⟨by dsimp only; omega, by dsimp only; omega⟩
    exact ⟨hr, budget - 1, by omega, hw'.note hf _⟩

theorem keeps_readResponse_solvent (m : Message) :
    Keeps (c.Solvent stock budget) Concluded (c.readResponse m) := by
  unfold readResponse
  split
  · exact keeps_bind (keeps_note_solvent hf _ _) fun _ s _ => ends_abandon_concluded _ _
  · exact keeps_bind (keeps_note_solvent hf _ _) fun _ => keeps_throw fun _ _ => Stop.noConfusion
  · exact keeps_pure _

theorem keeps_readSegment_solvent (m : Message) :
    Keeps (c.Solvent stock budget) Concluded (c.readSegment m) := by
  unfold readSegment
  split
  · exact keeps_bind (keeps_note_solvent hf _ _) fun _ s _ => ends_abandon_concluded _ _
  · split
    · exact fun s _ => ends_abandon_concluded _ _
    · exact keeps_pure _

theorem keeps_takeSegment_solvent (segment : BlockSegment) :
    Keeps (c.Solvent stock budget) Concluded (c.takeSegment segment) := by
  refine keeps_get fun s => ?_
  dsimp only
  split
  · refine keeps_bind (keeps_modify fun t ht => ⟨ht.funds, Nat.le_refl _⟩) fun _ => ?_
    refine keeps_bind (keeps_modify fun t ht => ⟨ht.funds, ht.timely⟩) fun _ => ?_
    exact keeps_bind (keeps_modify fun t ht => ⟨ht.funds, ht.timely⟩) fun _ => keeps_pure _
  · exact keeps_bind (keeps_note_solvent hf _ _) fun _ => keeps_pure _

theorem keeps_acknowledge_solvent : Keeps (c.Solvent stock budget) Concluded c.acknowledge := by
  refine keeps_get fun s => ?_
  refine keeps_bind (keeps_note_solvent hf _ _) fun _ => ?_
  refine keeps_bind (keeps_sendMessage_solvent hf _) fun _ => ?_
  dsimp only
  split
  · exact keeps_bind (keeps_modify fun t ht => ⟨ht.funds, ht.timely⟩) fun _ => keeps_pure _
  · exact keeps_pure _

section
variable (interval : 0 < c.config.pollInterval) (hp : budget + c.config.timeout < c.patience)
include interval hp

theorem pays_await (m : Message) : c.Pays stock budget (c.await (c.sendMessage m)) := by
  intro s hs
  rw [await, ends_bind, ends_get]
  refine ends_awaitRounds_of_next (W := fun n t => c.Solvent stock budget t ∧ t.retries < n)
    (L := fun n t => c.Solvent stock budget t ∧ t.retries ≤ n)
    (M := fun _ t => ∃ left < budget, c.Solvent stock left t) ?_ ?_ ?_ ?_ 1 _
    ⟨hs, Nat.lt_succ_self _⟩
  · rintro t ⟨-, hlt⟩
    omega
  · rintro n t ⟨ht, hlt⟩
    refine (ends_nextMessage_solvent hf interval hp ht).mono (fun received u hu => ?_)
      fun _ _ he => he
    cases received with
    | some m => exact hu.2
    | none => exact ⟨hu.2, by omega⟩
  · rintro m t ⟨left, hlt, ht⟩
    exact (keeps_readResponse_solvent hf m t ht).mono (fun _ u hu => ⟨left, hlt, hu⟩)
      fun _ _ he => he
  · rintro attempts n t ⟨ht, hle⟩
    rw [ends_bind]
    refine (ends_takeRetry_solvent hf attempts ht).mono (fun _ u hu => ?_) fun _ _ he => he
    obtain ⟨hless, left, hlt, hu⟩ := hu
    refine (ends_sendMessage_solvent hf m hu).mono (fun _ v hv => ?_) fun _ _ he => he
    exact ⟨hv.1.mono (Nat.le_of_lt hlt), by omega⟩

theorem pays_exchange (m : Message) : c.Pays stock budget (do
    c.sendMessage m
    c.await (c.sendMessage m)) := by
  intro s hs
  rw [ends_bind]
  exact (keeps_sendMessage_solvent hf m s hs).mono (fun _ t ht => pays_await hf interval hp m t ht)
    fun _ _ he => he

theorem sustains_solvent : c.Sustains (c.Solvent stock budget) Concluded where
  adjust h hw hr hd := by
    obtain ⟨hfunds, htimely⟩ := h
    exact ⟨by rw [hw, hr]; exact hfunds, by rw [hw, hd]; exact htimely⟩
  note := keeps_note_solvent hf
  tell m _ := keeps_sendMessage_solvent hf m
  ask m _ := (pays_exchange hf interval hp m).keeps
  abandon code e _ := fun _ _ => ends_abandon_concluded code e

end

section
variable (interval : 0 < c.config.pollInterval)
include interval

/-- Each segment is asked for, so that there are no more of them than messages to come. -/
theorem keeps_uploadSegments_solvent (n : Nat) (hn : budget < n)
    (hp : budget + c.config.timeout < c.patience) :
    Keeps (c.Solvent stock budget) Concluded (c.uploadSegments n) := by
  induction n generalizing budget with
  | zero => omega
  | succ n ih =>
    refine keeps_get fun s => ?_
    refine (pays_exchange hf interval hp _).bind fun r left hlt => ?_
    have h : c.Sustains (c.Solvent stock left) Concluded := sustains_solvent hf interval (by omega)
    cases r with
    | uploadSegment t unused last d =>
      refine keeps_bind (h.keeps_checkToggle t) fun _ => ?_
      refine keeps_bind (h.keeps_store _) fun _ => ?_
      cases last with
      | true => exact keeps_pure _
      | false => exact ih (by omega) (by omega)
    | _ => exact h.keeps_unexpected _

/-- A block is sent again only when it was acknowledged in part. -/
theorem keeps_downloadBlockFrom_solvent (data : List UInt8) (start length first n : Nat)
    (hn : budget < n) (hp : budget + c.config.timeout < c.patience) :
    Keeps (c.Solvent stock budget) Concluded (c.downloadBlockFrom data start length first n) := by
  induction n generalizing first budget with
  | zero => omega
  | succ n ih =>
    refine keeps_bind (keeps_forM fun seqno _ => keeps_sendMessage_solvent hf _) fun _ => ?_
    refine (pays_await hf interval hp _).bind fun r left hlt => ?_
    have h : c.Sustains (c.Solvent stock left) Concluded := sustains_solvent hf interval (by omega)
    cases r with
    | confirmBlock seqno next =>
      show Keeps _ _ (if length < seqno.toNat then _ else if seqno.toNat = length then _ else _)
      split
      · exact h.abandon _ _ rfl
      · split
        · exact h.keeps_checkBlockSize _
        · exact keeps_bind (h.note _ _) fun _ => ih _ (by omega) (by omega)
    | _ => exact h.keeps_unexpected _

theorem keeps_receiveBlocks_solvent (request : Request) (attempts : UInt32) (n : Nat)
    (hn : budget < n) (hp : budget + c.config.timeout < c.patience) :
    Keeps (c.Solvent stock budget) Concluded (c.receiveBlocks request attempts n) := by
  intro s hs
  let Left (n : Nat) (t : Session σ) : Prop := ∃ left < n, left ≤ budget ∧ c.Solvent stock left t
  refine (ends_receiveBlocks_of_next (K := Concluded) (W := fun n _ => Left n)
    (L := fun n _ => Left (n + 1)) (M := fun n _ _ => Left n) (I := c.Solvent stock budget)
    ?_ ?_ ?_ ?_ ?_ attempts n ⟨budget, hn, Nat.le_refl _, hs⟩)
  · rintro request t ⟨left, hlt, -⟩
    omega
  · rintro n request t ⟨left, hlt, hle, ht⟩
    refine (ends_nextMessage_solvent hf interval (by omega) ht).mono (fun received u hu => ?_)
      fun _ _ he => he
    cases received with
    | none => exact ⟨left, hlt, hle, hu.2⟩
    | some m =>
      obtain ⟨-, less, hless, hu⟩ := hu
      exact ⟨less, by omega, by omega, hu⟩
  · rintro attempts n request t ⟨left, hlt, hle, ht⟩
    refine (ends_takeRetry_solvent hf attempts ht).mono (fun _ u hu => ?_) fun _ _ he => he
    obtain ⟨-, less, hless, hu⟩ := hu
    exact (keeps_sendMessage_solvent hf _ u hu).mono
      (fun _ v hv => ⟨less, by omega, by omega, hv⟩) fun _ _ he => he
  · rintro n request m t ⟨left, hlt, hle, ht⟩ -
    exact (keeps_readResponse_solvent hf m t ht).mono (fun _ u hu => ⟨left, hlt, hle, hu⟩)
      fun _ _ he => he
  · rintro n request m t ⟨left, hlt, hle, ht⟩ -
    refine (keeps_readSegment_solvent hf m t ht).mono (fun segment u hu => ?_) fun _ _ he => he
    refine (keeps_takeSegment_solvent hf segment u hu).mono (fun inOrder v hv => ?_)
      fun _ _ he => he
    split
    · exact hv.mono hle
    · split
      · exact (keeps_acknowledge_solvent hf v hv).mono (fun _ x hx => ⟨left, hlt, hle, hx⟩)
          fun _ _ he => he
      · exact ⟨left, hlt, hle, hv⟩

theorem completes_solvent (hp : budget + c.config.timeout < c.patience) :
    c.Completes (c.Solvent stock budget) (fun _ => True) Concluded where
  toSustains := sustains_solvent hf interval hp
  segments _ := keeps_uploadSegments_solvent hf interval c.patience (by omega) hp
  block _ data start length _ :=
    keeps_downloadBlockFrom_solvent hf interval data start length 1 c.patience (by omega) hp
  stream _ := by
    refine keeps_bind (keeps_sendMessage_solvent hf _) fun _ => ?_
    refine keeps_bind (keeps_modify fun t ht => ⟨ht.funds, ht.timely⟩) fun _ => ?_
    exact keeps_receiveBlocks_solvent hf interval _ _ c.patience (by omega) hp
  done _ _ := trivial
  failed _ _ := Stop.noConfusion

end

theorem keeps_flush_solvent (n : Nat) (hn : budget < n) :
    Keeps (c.Solvent stock budget) Concluded (c.flush n) := by
  induction n generalizing budget with
  | zero => omega
  | succ n ih =>
    intro s hs
    rw [flush, ends_bind, receive, ends_bind, ends_act]
    obtain ⟨hfunds, htimely⟩ := hs
    generalize hreceived : c.link.receive s.world = p
    obtain ⟨received, w⟩ := p
    cases received with
    | error e => exact Stop.noConfusion
    | ok m? =>
      cases m? with
      | none =>
        obtain ⟨hstock, hnow⟩ := hf.silent hreceived
        exact ⟨by dsimp only; omega, by dsimp only; omega⟩
      | some m =>
        obtain ⟨hstock, hnow⟩ := hf.received hreceived
        have hw : c.Solvent stock (budget - 1) { s with world := w } :=
          ⟨by dsimp only; omega, by dsimp only; omega⟩
        exact (ih (show budget - 1 < n by omega) _ hw).mono
          (fun _ _ hu => hu.mono (Nat.sub_le _ _)) fun _ _ he => he

end
end Call

/-- Where only so much can still come, an operation comes to a result. -/
theorem perform_concludes {client : Client σ} {stock : σ → Nat} (hf : client.link.Finite stock)
    (interval : 0 < client.config.pollInterval) {w : σ}
    (hp : stock w + client.config.retries.toNat + client.config.timeout < client.patience)
    (node : UInt8) (target : Address) (op : Operation) :
    (client.perform node target op w).1 ≠ .error .unfinished := by
  let budget := stock w + client.config.retries.toNat
  have hleaves : Leaves (fun _ => True) Concluded (client.perform node target op w) := by
    refine perform_leaves_of_completes
      (I := fun n => (client.call n target op.direction).Solvent stock budget) ?_ ?_
      (fun _ _ => Stop.noConfusion) fun _ _ => Stop.noConfusion
    · exact fun n _ => Call.completes_solvent hf interval hp
    · intro n _ mode
      have hresumed := hf.resume w
      refine keeps_bind (Call.keeps_note_solvent hf _ _) (fun _ =>
        Call.keeps_flush_solvent hf client.patience (by omega)) _ ?_
      exact ⟨Nat.add_le_add_right hresumed _, Nat.le_refl _⟩
  intro hunfinished
  rw [Leaves, hunfinished] at hleaves
  exact hleaves rfl

end Canopen.Client

namespace Canopen.Script

open Can (Message TransportError)

variable {ε : Type}

def Cue.count : Cue → Nat
  | .event _ _ times => times
  | .cancelNow => 0

def countReply : Except ε (List Cue) → Nat
  | .ok cues => cues.foldr (fun cue n => cue.count + n) 0
  | .error _ => 0

def stock (s : Script ε) : Nat :=
  s.queue.length + s.replies.foldr (fun reply n => countReply reply + n) 0

theorem next_length (now : Nat) (queue : List (Nat × Event)) :
    (next now queue).2.2.length + (if (next now queue).1.isSome then 1 else 0) ≤ queue.length := by
  induction queue with
  | nil => exact Nat.le_refl 0
  | cons entry rest ih =>
    obtain ⟨ready, e⟩ := entry
    by_cases hready : ready ≤ now
    · cases e with
      | cancel =>
        simp only [next, if_pos hready]
        exact Nat.le_succ_of_le ih
      | _ =>
        simp only [next, if_pos hready]
        exact Nat.le_refl _
    · cases e <;> simp only [next, if_neg hready] <;> exact Nat.le_refl _

theorem enqueueCue_eq (s : Script ε) (cue : Cue) :
    (s.enqueueCue cue).queue.length = s.queue.length + cue.count ∧
      (s.enqueueCue cue).replies = s.replies ∧ (s.enqueueCue cue).now = s.now := by
  cases cue with
  | event e delay times => simp [enqueueCue, Cue.count]
  | cancelNow => exact ⟨rfl, rfl, rfl⟩

theorem enqueue_eq (s : Script ε) (cues : List Cue) :
    (s.enqueue cues).queue.length = s.queue.length + countReply (.ok cues : Except ε (List Cue)) ∧
      (s.enqueue cues).replies = s.replies ∧ (s.enqueue cues).now = s.now := by
  induction cues generalizing s with
  | nil => exact ⟨rfl, rfl, rfl⟩
  | cons cue cues ih =>
    obtain ⟨hqueue, hreplies, hnow⟩ := ih (s.enqueueCue cue)
    obtain ⟨hqueue', hreplies', hnow'⟩ := s.enqueueCue_eq cue
    refine ⟨?_, hreplies.trans hreplies', hnow.trans hnow'⟩
    rw [countReply, List.foldr_cons, ← Nat.add_assoc, ← hqueue']
    exact hqueue

theorem stock_send (m : Message) (s : Script ε) :
    (s.send m).2.stock ≤ s.stock ∧ (s.send m).2.now = s.now := by
  unfold send
  split
  · rename_i e rest h
    refine ⟨?_, rfl⟩
    simp only [stock, h, List.foldr_cons]
    omega
  · rename_i cues rest h
    obtain ⟨hqueue, hreplies, hnow⟩ :=
      enqueue_eq { s with replies := rest, sent := s.sent.push (s.now, m) } cues
    refine ⟨?_, hnow⟩
    simp only [stock, h, hqueue, hreplies, List.foldr_cons]
    omega
  · exact ⟨Nat.le_refl _, rfl⟩

theorem receive_eq (s : Script ε) :
    ∃ cancel, s.receive.2 =
      { s with
        now := s.now + s.receiveCost
        queue := (next (s.now + s.receiveCost) s.queue).2.2
        looks := s.looks + 1
        cancelled := s.cancelled || cancel } := ⟨_, rfl⟩

theorem isSome_of_receive {s : Script ε} {m : Message} (h : s.receive.1 = .ok (some m)) :
    (next (s.now + s.receiveCost) s.queue).1.isSome = true := by
  simp only [receive] at h
  generalize (next (s.now + s.receiveCost) s.queue).1 = e? at h
  cases e? with
  | none => cases h
  | some e => rfl

theorem receive_some {s v : Script ε} {m : Message} (h : s.receive = (.ok (some m), v)) :
    v.stock < s.stock ∧ s.now ≤ v.now := by
  have hlength := next_length (s.now + s.receiveCost) s.queue
  rw [if_pos (isSome_of_receive (congrArg Prod.fst h))] at hlength
  obtain ⟨cancel, hv⟩ := s.receive_eq
  rw [h] at hv
  subst hv
  simp only [stock]
  omega

theorem receive_none {s v : Script ε} (h : s.receive = (.ok none, v)) :
    v.stock ≤ s.stock ∧ s.now ≤ v.now := by
  have hlength := next_length (s.now + s.receiveCost) s.queue
  obtain ⟨cancel, hv⟩ := s.receive_eq
  rw [h] at hv
  subst hv
  simp only [stock]
  omega

/-- A script is finite, so that every operation over it comes to a result. -/
theorem finite : link.Finite stock where
  received := receive_some
  silent := receive_none
  note _ _ := ⟨Nat.le_refl _, Nat.le_refl _⟩
  send w m := by
    obtain ⟨hstock, hnow⟩ := stock_send m w
    exact ⟨hstock, Nat.le_of_eq hnow.symm⟩
  sleep _ _ := ⟨Nat.le_refl _, Nat.le_refl _⟩
  resume _ := Nat.le_refl _

end Canopen.Script
