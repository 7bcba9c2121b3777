import Canopen.Fanout
import Canopen.Proofs.Trace
import Mathlib.Data.List.Perm.Subperm

set_option autoImplicit false

namespace Canopen

open Can (Interface Message TransportError)

namespace Can.Interface

variable {σ τ : Type}

theorem drainUpTo_map {a : Interface σ} {b : Interface τ} {φ : σ → τ}
    (h : ∀ w, b.receive (φ w) = ((a.receive w).1, φ (a.receive w).2)) (limit : Nat) (w : σ) :
    b.drainUpTo limit (φ w) =
      ((a.drainUpTo limit w).1, (a.drainUpTo limit w).2.1, φ (a.drainUpTo limit w).2.2) := by
  induction limit generalizing w with
  | zero => rfl
  | succ limit ih =>
    rw [drainUpTo, drainUpTo, h]
    generalize a.receive w = p
    obtain ⟨received, v⟩ := p
    cases received with
    | error e => rfl
    | ok m? =>
      cases m? with
      | none => rfl
      | some m => simp only [ih]

theorem drainUpTo_keeps {a : Interface σ} {P : σ → Prop} (h : ∀ w, P w → P (a.receive w).2)
    (limit : Nat) {w : σ} (hw : P w) : P (a.drainUpTo limit w).2.2 := by
  induction limit generalizing w with
  | zero => exact hw
  | succ limit ih =>
    have hnext := h w hw
    rw [drainUpTo]
    generalize a.receive w = p at hnext
    obtain ⟨received, v⟩ := p
    cases received with
    | error e => exact hnext
    | ok m? =>
      cases m? with
      | none => exact hnext
      | some m => exact ih hnext

end Can.Interface

namespace Fanout

variable {σ τ : Type}

inductive Happening where
  | made (i : Nat)
  | closed (i : Nat)
  | arrived (m : Message)
  | failed (e : TransportError)
  | given (i : Nat) (m : Message)
  | reported (i : Nat) (e : TransportError)
  deriving DecidableEq

def taking : Except TransportError (Option Message) → List Happening
  | .ok (some m) => [.arrived m]
  | .ok none => []
  | .error e => [.failed e]

def giving (i : Nat) : Except TransportError (Option Message) → List Happening
  | .ok (some m) => [.given i m]
  | .ok none => []
  | .error e => [.reported i e]

def remembering (a : Interface σ) : Interface (σ × List Happening) where
  send m w :=
    let (sent, v) := a.send m w.1
    (sent, v, w.2)
  receive w :=
    let (received, v) := a.receive w.1
    (received, v, w.2 ++ taking received)
  backlog w := a.backlog w.1
  note r w := (a.note r w.1, w.2)

def remember (hs : List Happening) (f : Fanout (σ × List Happening)) :
    Fanout (σ × List Happening) :=
  { f with world := (f.world.1, f.world.2 ++ hs) }

def history (f : Fanout (σ × List Happening)) : List Happening := f.world.2

def forget (f : Fanout (σ × List Happening)) : Fanout σ :=
  { world := f.world.1, channels := f.channels }

def watched (a : Interface σ) (i : Nat) : Interface (Fanout (σ × List Happening)) :=
  { interface (remembering a) i with
    receive := fun f =>
      let (received, f) := receive (remembering a) i f
      (received, f.remember (giving i received)) }

/-- What can be done with a shared interface. A clone of a channel is one more channel, which begins
with an empty queue. -/
inductive Operation where
  | connect
  | close (i : Nat)
  | send (i : Nat) (m : Message)
  | receive (i : Nat)
  | flush (i : Nat)

inductive Outcome where
  | channel (i : Nat)
  | closed
  | sent (outcome : Except TransportError Unit)
  | received (outcome : Except TransportError (Option Message))
  | flushed (outcome : Except TransportError Unit)

section
variable (channel : Nat → Interface (Fanout τ)) (mark : Happening → Fanout τ → Fanout τ)

def perform : Operation → Fanout τ → Outcome × Fanout τ
  | .connect, f => (.channel f.connect.1, mark (.made f.connect.1) f.connect.2)
  | .close i, f => (.closed, mark (.closed i) (f.close i))
  | .send i m, f => (.sent ((channel i).send m f).1, ((channel i).send m f).2)
  | .receive i, f => (.received ((channel i).receive f).1, ((channel i).receive f).2)
  | .flush i, f => (.flushed ((channel i).flush f).1, ((channel i).flush f).2)

def run : List Operation → Fanout τ → List Outcome × Fanout τ
  | [], f => ([], f)
  | op :: ops, f =>
    let (outcome, f) := perform channel mark op f
    let (outcomes, f) := run ops f
    (outcome :: outcomes, f)

end

def plainRun (a : Interface σ) : List Operation → Fanout σ → List Outcome × Fanout σ :=
  run (interface a) fun _ f => f

def watchedRun (a : Interface σ) :
    List Operation → Fanout (σ × List Happening) → List Outcome × Fanout (σ × List Happening) :=
  run (watched a) fun h => remember [h]

def Happening.arrival : Happening → List Message
  | .arrived m => [m]
  | _ => []

def Happening.gift (i : Nat) : Happening → List Message
  | .given j m => if j = i then [m] else []
  | _ => []

def arrivals (history : List Happening) : List Message := history.flatMap (·.arrival)

def gifts (i : Nat) (history : List Happening) : List Message := history.flatMap (·.gift i)

inductive Moves (i : Nat) : Happening → List Message → List Message → Prop
  | stored {m : Message} {queue : List Message} (room : queue.length < 100) :
    Moves i (.arrived m) queue (queue ++ [m])
  | missed {m : Message} {queue : List Message} (full : queue.length = 100) :
    Moves i (.arrived m) queue queue
  | given {m : Message} {queue : List Message} : Moves i (.given i m) (m :: queue) queue
  | still {e : Happening} {queue : List Message} (arrived : ∀ m, e ≠ .arrived m)
    (given : ∀ m, e ≠ .given i m) : Moves i e queue queue

/-- What is in the queue of a channel when this has happened since it was made. -/
inductive Holds (i : Nat) : List Happening → List Message → Prop
  | made : Holds i [] []
  | next {since : List Happening} {e : Happening} {queue queue' : List Message}
    (h : Holds i since queue) (hm : Moves i e queue queue') : Holds i (since ++ [e]) queue'

def Open (history : List Happening) (i : Nat) : Prop :=
  ∃ before since, history = before ++ .made i :: since ∧ .closed i ∉ since

/-- What was given and what is left are all that came, but for what was missed. -/
theorem Holds.sublist {i : Nat} {since : List Happening} {queue : List Message}
    (h : Holds i since queue) : (gifts i since ++ queue).Sublist (arrivals since) := by
  induction h with
  | made => exact List.Sublist.refl []
  | @next since e queue _ _ hm ih =>
    have hgifts : gifts i (since ++ [e]) = gifts i since ++ e.gift i := by simp [gifts]
    have harrivals : arrivals (since ++ [e]) = arrivals since ++ e.arrival := by simp [arrivals]
    rw [hgifts, harrivals]
    cases hm with
    | @stored m =>
      show ((gifts i since ++ []) ++ (queue ++ [m])).Sublist (arrivals since ++ [m])
      rw [List.append_nil, ← List.append_assoc]
      exact ih.append (List.Sublist.refl _)
    | @missed m =>
      -- What comes to a full queue is among the arrivals only.
      show ((gifts i since ++ []) ++ queue).Sublist (arrivals since ++ [m])
      rw [List.append_nil]
      exact ih.trans (List.sublist_append_left _ _)
    | given => simpa [Happening.gift, Happening.arrival] using ih
    | still arrived given =>
      have hgift : e.gift i = [] := by
        cases e with
        | given j m => exact if_neg fun hj => given m (congrArg (Happening.given · m) hj)
        | _ => rfl
      have harrival : e.arrival = [] := by
        cases e with
        | arrived m => exact absurd rfl (arrived m)
        | _ => rfl
      rw [hgift, harrival, List.append_nil, List.append_nil]
      exact ih

theorem Holds.length_le {i : Nat} {since : List Happening} {queue : List Message}
    (h : Holds i since queue) : queue.length ≤ 100 := by
  induction h with
  | made => exact Nat.zero_le _
  | next _ hm ih =>
    cases hm with
    | stored room =>
      rw [List.length_append]
      exact room
    | missed => exact ih
    | given => exact Nat.le_of_succ_le ih
    | still => exact ih

theorem receive_remembering (a : Interface σ) (w : σ × List Happening) :
    (remembering a).receive w
      = ((a.receive w.1).1, (a.receive w.1).2, w.2 ++ taking (a.receive w.1).1) := rfl

theorem receive_watched (a : Interface σ) (i : Nat) (f : Fanout (σ × List Happening)) :
    (watched a i).receive f = ((receive (remembering a) i f).1,
      (receive (remembering a) i f).2.remember (giving i (receive (remembering a) i f).1)) := rfl

def Kept (f : Fanout (σ × List Happening)) : Prop :=
  ∀ before i since, f.history = before ++ .made i :: since → .closed i ∉ since →
    ∃ queue, f.channels[i]? = some (.live queue) ∧ Holds i since queue

/-- One thing happens, and each channel moves as it should. -/
structure Advances (f : Fanout (σ × List Happening)) (e : Happening)
    (g : Fanout (σ × List Happening)) : Prop where
  history : g.history = f.history ++ [e]
  moves : ∀ i queue, f.channels[i]? = some (.live queue) → queue.length ≤ 100 → e ≠ .closed i →
    ∃ queue', g.channels[i]? = some (.live queue') ∧ Moves i e queue queue'
  made : ∀ i, e = .made i → g.channels[i]? = some (.live [])

section
variable {a : Interface σ} {f g : Fanout (σ × List Happening)} {e : Happening}

theorem Kept.of_same (h : Kept f) (hhistory : g.history = f.history)
    (hchannels : g.channels = f.channels) : Kept g := by
  rw [Kept, hhistory, hchannels]
  exact h

theorem Kept.advance (h : Kept f) (ha : Advances f e g) : Kept g := by
  intro before i since hsplit hopen
  rw [ha.history] at hsplit
  obtain ⟨since', rfl, hhistory⟩ | ⟨rfl, rfl, -⟩ := split_of_snoc hsplit
  · obtain ⟨hopen', hclosed⟩ := not_or.mp (mt List.mem_append.mpr hopen)
    obtain ⟨queue, hq, hholds⟩ := h before i since' hhistory hopen'
    have hne : e ≠ .closed i := fun he => hclosed (List.mem_singleton.mpr he.symm)
    obtain ⟨queue', hq', hmoves⟩ := ha.moves i queue hq hholds.length_le hne
    exact ⟨queue', hq', hholds.next hmoves⟩
  · exact ⟨[], ha.made i rfl, .made⟩

theorem advances_still (hhistory : g.history = f.history ++ [e])
    (hchannels : g.channels = f.channels) (harrived : ∀ m, e ≠ .arrived m)
    (hgiven : ∀ i m, e ≠ .given i m) (hmade : ∀ i, e ≠ .made i) : Advances f e g where
  history := hhistory
  moves i queue hq _ _ := ⟨queue, hchannels ▸ hq, .still harrived (hgiven i)⟩
  made i he := absurd he (hmade i)

theorem advances_connect (f : Fanout (σ × List Happening)) :
    Advances f (.made f.connect.1) (f.connect.2.remember [.made f.connect.1]) where
  history := rfl
  moves i queue hq _ _ := by
    have hlt : i < f.channels.length := (List.getElem?_eq_some_iff.mp hq).1
    exact ⟨queue, (List.getElem?_append_left hlt).trans hq, .still (by simp) (by simp)⟩
  made i he := by
    obtain rfl : f.channels.length = i := Happening.made.inj he
    exact List.getElem?_concat_length

theorem advances_close (f : Fanout (σ × List Happening)) (i : Nat) :
    Advances f (.closed i) ((f.close i).remember [.closed i]) where
  history := rfl
  moves j queue hq _ hne := by
    have hij : i ≠ j := fun hij => hne (congrArg Happening.closed hij)
    exact ⟨queue, (List.getElem?_modify_ne _ _ hij).trans hq, .still (by simp) (by simp)⟩
  made j he := by cases he

theorem world_note_repeat (r : Record) (n : Nat) (w : σ × List Happening) :
    Nat.repeat ((remembering a).note r) n w = (Nat.repeat (a.note r) n w.1, w.2) := by
  induction n with
  | zero => rfl
  | succ n ih =>
    show (remembering a).note r (Nat.repeat ((remembering a).note r) n w) = _
    rw [ih]
    rfl

theorem advances_push (f : Fanout (σ × List Happening)) (m : Message) (v : σ) :
    Advances f (.arrived m)
      (push (remembering a) m { f with world := (v, f.history ++ [.arrived m]) }) where
  history := by
    rw [push, world_note_repeat]
    rfl
  moves i queue hq hle _ := by
    have hpushed : (f.channels.map (Channel.push m))[i]? = some (Channel.push m (.live queue)) := by
      rw [List.getElem?_map, hq]
      rfl
    by_cases hroom : queue.length < 100
    · refine ⟨queue ++ [m], hpushed.trans ?_, .stored hroom⟩
      rw [Channel.push, if_pos (show queue.length < Channel.depth from hroom)]
    · refine ⟨queue, hpushed.trans ?_, .missed (Nat.le_antisymm hle (Nat.not_lt.mp hroom))⟩
      rw [Channel.push, if_neg (show ¬ queue.length < Channel.depth from hroom)]
  made i he := by cases he

theorem advances_pop {i : Nat} {m : Message} (hpop : f.pop i = (some m, g)) :
    Advances f (.given i m) (g.remember [.given i m]) := by
  rw [pop] at hpop
  split at hpop
  · rename_i m' queue hq
    cases hpop
    refine ⟨rfl, fun j queue' hq' _ _ => ?_, fun j he => by cases he⟩
    by_cases hj : i = j
    · subst hj
      obtain rfl : m :: queue = queue' := Channel.live.inj (Option.some.inj (hq.symm.trans hq'))
      have hlt : i < f.channels.length := (List.getElem?_eq_some_iff.mp hq).1
      exact ⟨queue, List.getElem?_set_self hlt, .given⟩
    · refine ⟨queue', (List.getElem?_set_ne hj).trans hq', .still (by simp) fun m' he => ?_⟩
      exact hj (Happening.given.inj he).1
  · cases hpop

theorem pop_none {i : Nat} (hpop : f.pop i = (none, g)) : g = f := by
  rw [pop] at hpop
  split at hpop <;> cases hpop
  rfl

/-- Each fault is reported before anything else happens. -/
def Reported (history : List Happening) : Prop :=
  ∀ before e after, history = before ++ .failed e :: after → ∃ i rest, after = .reported i e :: rest

theorem Reported.append {history : List Happening} (h : Reported history)
    (he : ∀ t, e ≠ .failed t) : Reported (history ++ [e]) := by
  intro before t after hsplit
  obtain ⟨after', rfl, hhistory⟩ | ⟨hlast, -, -⟩ := split_of_snoc hsplit
  · obtain ⟨i, rest, rfl⟩ := h before t after' hhistory
    exact ⟨i, rest ++ [e], rfl⟩
  · exact absurd hlast.symm (he t)

theorem Reported.fault {history : List Happening} (h : Reported history) (i : Nat)
    (t : TransportError) : Reported (history ++ [.failed t, .reported i t]) := by
  intro before t' after hsplit
  obtain ⟨after', rfl, hhistory⟩ | ⟨between, hlast, -⟩ := split_of_append hsplit
  · obtain ⟨j, rest, rfl⟩ := h before t' after' hhistory
    exact ⟨j, rest ++ _, rfl⟩
  · cases between with
    | nil =>
      obtain ⟨he, rfl⟩ := List.cons.inj hlast
      cases he
      exact ⟨i, [], rfl⟩
    | cons x between =>
      cases between with
      | nil => simp at hlast
      | cons y between => simp at hlast

structure Sound (f : Fanout (σ × List Happening)) : Prop where
  kept : Kept f
  reported : Reported f.history

theorem Sound.advance (h : Sound f) (ha : Advances f e g) (he : ∀ t, e ≠ .failed t) : Sound g :=
  ⟨h.kept.advance ha, ha.history ▸ h.reported.append he⟩

theorem Sound.of_same (h : Sound f) (hhistory : g.history = f.history)
    (hchannels : g.channels = f.channels) : Sound g :=
  ⟨h.kept.of_same hhistory hchannels, hhistory ▸ h.reported⟩

theorem drain_sound (limit : Nat) (h : Sound f) :
    match drain (remembering a) limit f with
    | (.ok _, g) => Sound g
    | (.error e, g) => ∃ g₀ : Fanout (σ × List Happening), Sound g₀ ∧
      g.history = g₀.history ++ [.failed e] ∧ g.channels = g₀.channels := by
  induction limit generalizing f with
  | zero => exact h
  | succ limit ih =>
    rw [drain, receive_remembering]
    generalize a.receive f.world.1 = p
    obtain ⟨received, v⟩ := p
    cases received with
    | error e => exact ⟨f, h, rfl, rfl⟩
    | ok m? =>
      cases m? with
      | none => exact h.of_same (List.append_nil _) rfl
      | some m => exact ih (h.advance (advances_push f m v) (by simp))

theorem watched_receive_sound (i : Nat) (h : Sound f) : Sound ((watched a i).receive f).2 := by
  rw [receive_watched, receive]
  generalize hpop : f.pop i = p
  obtain ⟨m?, g⟩ := p
  cases m? with
  | some m => exact h.advance (advances_pop hpop) (by simp)
  | none =>
    obtain rfl := pop_none hpop
    have hdrained := drain_sound (a := a) ((remembering a).backlog g.world + 1) h
    dsimp only
    generalize drain (remembering a) ((remembering a).backlog g.world + 1) g = p at hdrained
    obtain ⟨done, g'⟩ := p
    cases done with
    | error e =>
      obtain ⟨g₀, hg₀, hhistory, hchannels⟩ := hdrained
      have hkept : Kept g' := hg₀.kept.advance
        (advances_still hhistory hchannels (by simp) (by simp) (by simp))
      have hboth : (g'.remember [.reported i e]).history
          = g₀.history ++ [.failed e, .reported i e] := by
        show g'.history ++ [_] = _
        rw [hhistory, List.append_assoc]
        rfl
      refine ⟨hkept.advance (advances_still rfl rfl (by simp) (by simp) (by simp)), ?_⟩
      show Reported (g'.remember [.reported i e]).history
      rw [hboth]
      exact hg₀.reported.fault i e
    | ok _ =>
      dsimp only
      generalize hpop' : g'.pop i = p
      obtain ⟨m?, g''⟩ := p
      cases m? with
      | some m => exact Sound.advance hdrained (advances_pop hpop') (by simp)
      | none =>
        obtain rfl := pop_none hpop'
        exact Sound.of_same hdrained (List.append_nil _) rfl

theorem perform_sound (op : Operation) (h : Sound f) :
    Sound (perform (watched a) (fun h => remember [h]) op f).2 := by
  cases op with
  | connect => exact h.advance (advances_connect f) (by simp)
  | close i => exact h.advance (advances_close f i) (by simp)
  | send i m => exact h.of_same rfl rfl
  | receive i => exact watched_receive_sound i h
  | flush i => exact Interface.drainUpTo_keeps (fun _ => watched_receive_sound i) _ h

theorem watchedRun_sound (ops : List Operation) (h : Sound f) :
    Sound (watchedRun a ops f).2 := by
  induction ops generalizing f with
  | nil => exact h
  | cons op ops ih => exact ih (perform_sound op h)

theorem forget_push (m : Message) (f : Fanout (σ × List Happening)) :
    (push (remembering a) m f).forget = push a m f.forget := by
  rw [push, world_note_repeat]
  rfl

theorem forget_pop (i : Nat) (f : Fanout (σ × List Happening)) :
    f.forget.pop i = ((f.pop i).1, (f.pop i).2.forget) := by
  rw [pop, pop, forget]
  dsimp only
  split <;> rfl

theorem forget_drain (limit : Nat) (f : Fanout (σ × List Happening)) :
    drain a limit f.forget =
      ((drain (remembering a) limit f).1, (drain (remembering a) limit f).2.forget) := by
  induction limit generalizing f with
  | zero => rfl
  | succ limit ih =>
    have hworld : f.forget.world = f.world.1 := rfl
    rw [drain, drain, receive_remembering, hworld]
    generalize a.receive f.world.1 = p
    obtain ⟨received, v⟩ := p
    cases received with
    | error e => rfl
    | ok m? =>
      cases m? with
      | none => rfl
      | some m =>
        have hpushed :=
          forget_push (a := a) m { f with world := (v, f.world.2 ++ taking (.ok (some m))) }
        exact (congrArg (drain a limit) hpushed.symm).trans (ih _)

theorem forget_receive (i : Nat) (f : Fanout (σ × List Happening)) :
    receive a i f.forget = (((watched a i).receive f).1, ((watched a i).receive f).2.forget) := by
  show _ = ((receive (remembering a) i f).1, (receive (remembering a) i f).2.forget)
  rw [receive, receive, forget_pop]
  generalize f.pop i = p
  obtain ⟨m?, g⟩ := p
  cases m? with
  | some m => rfl
  | none =>
    have hbacklog : a.backlog g.forget.world = (remembering a).backlog g.world := rfl
    dsimp only
    rw [hbacklog, forget_drain]
    generalize drain (remembering a) ((remembering a).backlog g.world + 1) g = p
    obtain ⟨done, g'⟩ := p
    cases done with
    | error e => rfl
    | ok _ =>
      dsimp only
      rw [forget_pop]

theorem forget_perform (op : Operation) (f : Fanout (σ × List Happening)) :
    perform (interface a) (fun _ f => f) op f.forget =
      ((perform (watched a) (fun h => remember [h]) op f).1,
        (perform (watched a) (fun h => remember [h]) op f).2.forget) := by
  cases op with
  | connect => rfl
  | close i => rfl
  | send i m => rfl
  | receive i =>
    have hreceived : (interface a i).receive f.forget = receive a i f.forget := rfl
    rw [perform, perform, hreceived, forget_receive]
  | flush i =>
    have hdrained := Interface.drainUpTo_map (a := watched a i) (b := interface a i)
      (forget_receive i) ((watched a i).backlog f + 1) f
    have hbacklog : (interface a i).backlog f.forget = (watched a i).backlog f := rfl
    rw [perform, perform, Interface.flush, Interface.flush, Interface.drain, Interface.drain,
      hbacklog, hdrained]

theorem forget_run (ops : List Operation) (f : Fanout (σ × List Happening)) :
    plainRun a ops f.forget = ((watchedRun a ops f).1, (watchedRun a ops f).2.forget) := by
  induction ops generalizing f with
  | nil => rfl
  | cons op ops ih =>
    have hrest := ih (perform (watched a) (fun h => remember [h]) op f).2
    rw [plainRun, watchedRun] at hrest ⊢
    rw [run, run, forget_perform]
    dsimp only
    rw [hrest]

end

theorem length_le_count {f : Fanout σ} {is : List Nat} (hdistinct : is.Nodup)
    (hlive : ∀ i ∈ is, ∃ queue, f.channels[i]? = some (.live queue)) : is.length ≤ f.count := by
  let placed : Nat → Bool := fun i => !(f.channels[i]?.getD .removed).isRemoved
  have hnumbered : (List.range f.channels.length).map (fun i => f.channels[i]?.getD .removed)
      = f.channels := by
    apply List.ext_getElem?
    intro i
    by_cases hi : i < f.channels.length <;> simp [hi]
  have hcount : f.count = ((List.range f.channels.length).filter placed).length := by
    rw [count, ← hnumbered, List.countP_map, List.countP_eq_length_filter, hnumbered]
    rfl
  have hsubset : is ⊆ (List.range f.channels.length).filter placed := by
    intro i hi
    obtain ⟨queue, hq⟩ := hlive i hi
    have hlt : i < f.channels.length := (List.getElem?_eq_some_iff.mp hq).1
    refine List.mem_filter.mpr ⟨List.mem_range.mpr hlt, ?_⟩
    show (!(f.channels[i]?.getD .removed).isRemoved) = true
    rw [hq]
    rfl
  rw [hcount]
  exact (List.subperm_of_subset hdistinct hsubset).length_le

/-- Whatever is done at a shared interface, and whatever comes of it beneath: a channel that is open
has given, and still has in its queue, all that was taken from the interface since the channel was
made, in order and each frame once, but for what came when the queue held a hundred frames. It never
holds more. A fault is reported at once to the channel that met it, and what had arrived before it
is passed on like all else. No open channel is left out of the count. -/
theorem channels_pass_on (a : Interface σ) (w : σ) (ops : List Operation) :
    let (outcomes, f) := watchedRun a ops { world := (w, []) }
    plainRun a ops { world := w } = (outcomes, f.forget) ∧
    (∀ before i since, f.history = before ++ .made i :: since → .closed i ∉ since →
      ∃ queue, f.channels[i]? = some (.live queue) ∧ Holds i since queue ∧
        (gifts i since ++ queue).Sublist (arrivals since) ∧ queue.length ≤ 100) ∧
    (∀ before e after, f.history = before ++ .failed e :: after →
      ∃ i rest, after = .reported i e :: rest) ∧
    ∀ is : List Nat, is.Nodup → (∀ i ∈ is, Open f.history i) → is.length ≤ f.count := by
  have hplain := forget_run (a := a) ops { world := (w, []) }
  have hstart : Sound ({ world := (w, []) } : Fanout (σ × List Happening)) := by
    refine ⟨?_, ?_⟩
    · intro before i since hsplit
      simp [history] at hsplit
    · intro before e after hsplit
      simp [history] at hsplit
  have hsound := watchedRun_sound (a := a) ops hstart
  generalize watchedRun a ops { world := (w, []) } = o at hplain hsound
  obtain ⟨outcomes, f⟩ := o
  refine ⟨hplain, ?_, hsound.reported, fun is hdistinct hopen => ?_⟩
  · intro before i since hsplit hclosed
    obtain ⟨queue, hq, hholds⟩ := hsound.kept before i since hsplit hclosed
    exact ⟨queue, hq, hholds, hholds.sublist, hholds.length_le⟩
  · refine length_le_count (f := f) hdistinct fun i hi => ?_
    obtain ⟨before, since, hsplit, hclosed⟩ := hopen i hi
    obtain ⟨queue, hq, -⟩ := hsound.kept before i since hsplit hclosed
    exact ⟨queue, hq⟩

end Fanout

end Canopen
