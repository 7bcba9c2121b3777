import Canopen.Proofs.Conduct
import Mathlib.Data.List.TakeWhile

/-!
The frames that a client sends and the answers that it takes, as two lists side by side. A client
that keeps to a conduct sends what the answers so far lead it to, in turn, each frame one or more
times in a row, and at most one abort behind them.
-/

set_option autoImplicit false

namespace Canopen.Client

open Can (Message TransportError)
open Sdo

variable {σ S : Type}

def Act.sent? : Act → Option Message
  | .sent m _ => some m
  | _ => none

def Act.answer? (node : UInt8) : Act → Option Message
  | .received (.ok (some m)) => if m.id = .std (0x580 + node.toUInt16) then some m else none
  | _ => none

/-- All frames that were to be sent. -/
def sentFrames (events : List Event) : List Message := events.filterMap (·.act.sent?)

def answers (node : UInt8) (events : List Event) : List Message :=
  (events.dropWhile (·.act.sent?.isNone)).filterMap (·.act.answer? node)

theorem sentFrames_append (events : List Event) (e : Event) :
    sentFrames (events ++ [e]) = sentFrames events ++ e.act.sent?.toList := by
  rw [sentFrames, List.filterMap_append]
  cases h : e.act.sent? <;> simp [sentFrames, h]

theorem sentFrames_append_of_none {e : Event} (h : e.act.sent? = none) (events : List Event) :
    sentFrames (events ++ [e]) = sentFrames events := by
  rw [sentFrames_append, h, Option.toList_none, List.append_nil]

theorem answers_append (node : UInt8) (events : List Event) (e : Event) :
    answers node (events ++ [e])
      = answers node events
        ++ if sentFrames events = [] then [] else (e.act.answer? node).toList := by
  by_cases hsent : sentFrames events = []
  · have hnone : ∀ x ∈ events, x.act.sent?.isNone = true := by
      intro x hx
      rw [List.filterMap_eq_nil_iff.mp hsent x hx]
      rfl
    have hdrop : events.dropWhile (·.act.sent?.isNone) = [] := List.dropWhile_eq_nil_iff.mpr hnone
    rw [if_pos hsent, answers, answers, List.dropWhile_append, hdrop]
    obtain ⟨act, time⟩ := e
    cases act <;> rfl
  · have hdrop : ¬ (events.dropWhile (·.act.sent?.isNone)).isEmpty = true := by
      rw [List.isEmpty_iff, List.dropWhile_eq_nil_iff]
      refine fun hnone => hsent (List.filterMap_eq_nil_iff.mpr fun x hx => ?_)
      exact Option.isNone_iff_eq_none.mp (hnone x hx)
    rw [if_neg hsent, answers, answers, List.dropWhile_append, if_neg hdrop,
      List.filterMap_append]
    cases h : e.act.answer? node <;> simp [h]

theorem answers_append_of_none {node : UInt8} {e : Event} (h : e.act.answer? node = none)
    (events : List Event) : answers node (events ++ [e]) = answers node events := by
  rw [answers_append, h, Option.toList_none, ite_self, List.append_nil]

/-- The second list has the elements of the first one, each one or more times in a row, with so many
more of them in all. -/
inductive Stutters {α : Type} : Nat → List α → List α → Prop where
  | nil : Stutters 0 [] []
  | next {n : Nat} {xs ys : List α} (x : α) :
    Stutters n xs ys → Stutters n (xs ++ [x]) (ys ++ [x])
  | again {n : Nat} {xs ys : List α} {x : α} :
    Stutters n (xs ++ [x]) ys → Stutters (n + 1) (xs ++ [x]) (ys ++ [x])

theorem Stutters.nil_iff {α : Type} {n : Nat} {xs ys : List α} (h : Stutters n xs ys) :
    xs = [] ↔ ys = [] := by
  cases h with
  | nil => rfl
  | next x _ => simp
  | again _ => simp

def Move.due : Move S → List Message
  | .goes due _ | .ends due _ => due
  | .fails _ => []

/-- How a client may fail whose answers lead it there. While it waits it may be cancelled or time
out, and its transport may fail wherever it has frames to send. -/
def Move.Admits (error : Error) : Move S → Prop
  | .goes _ _ => True
  | .ends due _ => due ≠ [] ∧ ∃ cause, error = .transport cause
  | .fails e => e = error

namespace Conduct

variable (k : Conduct S)

/-- These answers ask for these frames in all. The last one leads to the move. -/
inductive Leads : List Message → List Message → Move S → Prop where
  | start : Leads [] [k.opening] (.goes [k.opening] k.first)
  | hear {heard asked due : List Message} {s : S} (m : Message) :
    Leads heard asked (.goes due s) →
    Leads (heard ++ [m]) (asked ++ (k.hear s m).due) (k.hear s m)

variable {k} {node : UInt8} {target : Address} {config : Config} {direction : Direction}

theorem Leads.unique {heard asked asked' : List Message} {move move' : Move S}
    (h : k.Leads heard asked move) (h' : k.Leads heard asked' move') :
    asked = asked' ∧ move = move' := by
  induction h generalizing asked' move' with
  | start =>
    generalize hnil : ([] : List Message) = heard at h'
    cases h' with
    | start => exact ⟨rfl, rfl⟩
    | hear m _ => simp at hnil
  | hear m _ ih =>
    generalize hsnoc : _ ++ [m] = heard at h'
    cases h' with
    | start => simp at hsnoc
    | hear m' h' =>
      obtain ⟨rfl, hm⟩ := List.append_inj' hsnoc rfl
      obtain ⟨rfl⟩ := List.cons.inj hm
      obtain ⟨rfl, hmove⟩ := ih h'
      cases hmove
      exact ⟨rfl, rfl⟩

/-- What `R n asked told` says of the frames that were asked for and those that were sent, `n` of
them again, it says whatever the client sends. A client that was answered is past its start. -/
structure Pairs (k : Conduct S) (R : Nat → List Message → List Message → Prop) : Prop where
  fresh : ∀ {heard asked due s m due' s'}, k.Leads heard asked (.goes due s) →
    k.hear s m = .goes due' s' → s' ≠ k.first
  head : ∀ {heard asked due s}, k.Leads heard asked (.goes due s) → (k.again s).data.get 0 ≠ 0x80
  nil : R 0 [] []
  next : ∀ {n asked told} (m : Message), R n asked told → R n (asked ++ [m]) (told ++ [m])
  again : ∀ {heard asked due s n told}, k.Leads heard asked (.goes due s) → R n asked told →
    R (n + 1) asked (told ++ [k.again s])
  empty : ∀ {n asked told}, R n asked told → (asked = [] ↔ told = [])

theorem Leads.fresh {R : Nat → List Message → List Message → Prop} (hk : k.Pairs R)
    {heard asked due : List Message} (h : k.Leads heard asked (.goes due k.first)) :
    asked = [k.opening] := by
  generalize hmove : Move.goes due k.first = move at h
  cases h with
  | start => rfl
  | hear m h => exact absurd rfl (hk.fresh h hmove.symm)

theorem Leads.asked_ne {heard asked : List Message} {move : Move S}
    (h : k.Leads heard asked move) : asked ≠ [] := by
  induction h with
  | start => simp
  | hear m _ ih => simp [ih]

/-- What was sent matches what the answers asked for, up to what is due still. -/
def Account (k : Conduct S) (R : Nat → List Message → List Message → Prop) (node : UInt8)
    (target : Address) (heard sent : List Message) (spare : Nat) (c : Course S) : Prop :=
  ∃ asked move gone told aborts extra, k.Leads heard asked move ∧
    sent = told ++ aborts ∧ R extra gone told ∧ extra ≤ spare ∧
    match c.standing with
    | .waits s => aborts = [] ∧ asked = gone ++ c.due ∧ ∃ due, move = .goes due s
    | .ended v => aborts = [] ∧ asked = gone ++ c.due ∧ ∃ due, c.due <:+ due ∧ move = .ends due v
    | .failed e => gone <+: asked ∧ move.Admits e ∧
      (c.due ++ aborts = [] ∨ ∃ code, c.due ++ aborts = [abortFrame node target code])

variable {R : Nat → List Message → List Message → Prop} {heard frames : List Message}
  {spare : Nat} {c : Course S} {m : Message}
  {outcome : Except TransportError Unit}

theorem Account.mono (h : k.Account R node target heard frames spare c) {spare' : Nat}
    (hspare : spare ≤ spare') : k.Account R node target heard frames spare' c := by
  obtain ⟨asked, move, gone, told, aborts, extra, hleads, hframes, htold, hextra, hstands⟩ := h
  exact ⟨asked, move, gone, told, aborts, extra, hleads, hframes, htold,
    Nat.le_trans hextra hspare, hstands⟩

theorem Account.sent_due (hk : k.Pairs R) {due : List Message} {standing : Standing S}
    (h : k.Account R node target heard frames spare ⟨m :: due, standing⟩) :
    k.Account R node target heard (frames ++ [m]) spare
      ((⟨m :: due, standing⟩ : Course S).send m outcome) := by
  obtain ⟨asked, move, gone, told, aborts, extra, hleads, rfl, htold, hextra, hstands⟩ := h
  have hdue : ¬ ((⟨m :: due, standing⟩ : Course S).due = [] ∧ m.data.get 0 = 0x80) := by simp
  unfold Course.send
  rw [if_neg hdue]
  -- A call that has failed has nothing due but an abort.
  cases standing with
  | waits s =>
    obtain ⟨rfl, rfl, due', rfl⟩ := hstands
    have hnext := hk.next m htold
    cases outcome with
    | error e =>
      show k.Account R node target heard _ spare ⟨[], .failed (.transport e)⟩
      exact ⟨_, _, _, _, [], extra, hleads, by simp, hnext, hextra, ⟨due, by simp⟩, trivial,
        .inl rfl⟩
    | ok _ =>
      show k.Account R node target heard _ spare ⟨due, .waits s⟩
      exact ⟨_, _, _, _, [], extra, hleads, by simp, hnext, hextra, rfl, by simp, due', rfl⟩
  | ended v =>
    obtain ⟨rfl, rfl, due', hsuffix, rfl⟩ := hstands
    have hnext := hk.next m htold
    cases outcome with
    | error e =>
      show k.Account R node target heard _ spare ⟨[], .failed (.transport e)⟩
      refine ⟨_, _, _, _, [], extra, hleads, by simp, hnext, hextra, ⟨due, by simp⟩, ⟨?_, e, rfl⟩,
        .inl rfl⟩
      rintro rfl
      cases List.suffix_nil.mp hsuffix
    | ok _ =>
      show k.Account R node target heard _ spare ⟨due, .ended v⟩
      exact ⟨_, _, _, _, [], extra, hleads, by simp, hnext, hextra, rfl, by simp, due',
        (List.suffix_cons m due).trans hsuffix, rfl⟩
  | failed e =>
    obtain ⟨hgone, hadmits, hnone | ⟨code, hone⟩⟩ := hstands
    · cases hnone
    · obtain ⟨rfl, hrest⟩ := List.cons.inj hone
      obtain ⟨rfl, rfl⟩ := List.append_eq_nil_iff.mp hrest
      show k.Account R node target heard _ spare ⟨[], .failed e⟩
      exact ⟨_, _, gone, told, [_], extra, hleads, by simp, htold, hextra, hgone, hadmits,
        .inr ⟨code, rfl⟩⟩

theorem Account.sent_again (hk : k.Pairs R) {s : S}
    (h : k.Account R node target heard frames spare ⟨[], .waits s⟩) :
    k.Account R node target heard (frames ++ [k.again s]) (spare + 1)
      ((⟨[], .waits s⟩ : Course S).send (k.again s) outcome) := by
  obtain ⟨asked, move, gone, told, aborts, extra, hleads, rfl, htold, hextra, hstands⟩ := h
  obtain ⟨rfl, rfl, due, rfl⟩ := hstands
  rw [List.append_nil] at hleads
  have hhead : ¬ ((⟨[], .waits s⟩ : Course S).due = [] ∧ (k.again s).data.get 0 = 0x80) :=
    fun h => hk.head hleads h.2
  have hagain := hk.again hleads htold
  unfold Course.send
  rw [if_neg hhead]
  have hmore : extra + 1 ≤ spare + 1 := Nat.add_le_add_right hextra 1
  cases outcome with
  | error e =>
    show k.Account R node target heard _ (spare + 1) ⟨[], .failed (.transport e)⟩
    exact ⟨_, _, _, _, [], _, hleads, by simp, hagain, hmore, List.prefix_rfl, trivial,
      .inl rfl⟩
  | ok _ =>
    show k.Account R node target heard _ (spare + 1) ⟨[], .waits s⟩
    exact ⟨_, _, _, _, [], _, hleads, by simp, hagain, hmore, rfl, by simp, due, rfl⟩

theorem Account.sent_abort {s : S} {code : UInt32}
    (h : k.Account R node target heard frames spare ⟨[], .waits s⟩) :
    k.Account R node target heard (frames ++ [abortFrame node target code]) spare
      ((⟨[], .waits s⟩ : Course S).send (abortFrame node target code) outcome) := by
  obtain ⟨asked, move, gone, told, aborts, extra, hleads, rfl, htold, hextra, hstands⟩ := h
  obtain ⟨rfl, rfl, due, rfl⟩ := hstands
  have hsend : (⟨[], .waits s⟩ : Course S).send (abortFrame node target code) outcome
      = ⟨[], .failed .cancelled⟩ := if_pos ⟨rfl, rfl⟩
  rw [hsend]
  exact ⟨_, _, gone, told, [abortFrame node target code], extra, hleads, by simp, htold, hextra,
    List.prefix_append .., trivial, .inr ⟨code, rfl⟩⟩

theorem Account.sent (hk : k.Pairs R) (h : k.Account R node target heard frames spare c)
    {late : Bool} (hm : k.Allows node target late c (.sent m outcome)) :
    k.Account R node target heard (frames ++ [m]) (spare + late.toNat) (c.send m outcome) := by
  obtain ⟨_ | ⟨next, due⟩, standing⟩ := c
  · cases standing with
    | waits s =>
      cases late with
      | false =>
        obtain rfl : m = abortFrame node target 0x08000000 := hm
        exact h.sent_abort
      | true =>
        obtain rfl : m = k.again s := hm
        exact h.sent_again hk
    | ended v => exact hm.elim
    | failed e => exact hm.elim
  · obtain rfl : m = next := hm
    exact (h.sent_due hk).mono (Nat.le_add_right _ _)

theorem Account.hear {s : S}
    (h : k.Account R node target heard frames spare ⟨[], .waits s⟩) (m : Message) :
    k.Account R node target (heard ++ [m]) frames spare (after node target (k.hear s m)) := by
  obtain ⟨asked, move, gone, told, aborts, extra, hleads, rfl, htold, hextra, hstands⟩ := h
  obtain ⟨rfl, rfl, due, rfl⟩ := hstands
  rw [List.append_nil] at hleads
  have hhear := hleads.hear m
  generalize k.hear s m = move at hhear
  cases move with
  | goes due s' =>
    exact ⟨_, _, gone, told, [], extra, hhear, rfl, htold, hextra, rfl, rfl, due, rfl⟩
  | ends due v =>
    exact ⟨_, _, gone, told, [], extra, hhear, rfl, htold, hextra, rfl, rfl, due, List.suffix_rfl,
      rfl⟩
  | fails e =>
    refine ⟨_, _, gone, told, [], extra, hhear, rfl, htold, hextra, List.prefix_append .., rfl, ?_⟩
    rw [after, List.append_nil]
    cases e.abortCode? with
    | none => exact .inl rfl
    | some code => exact .inr ⟨code, rfl⟩

theorem Account.unsent (hk : k.Pairs R) (h : k.Account R node target heard frames spare k.start) :
    frames = [] := by
  obtain ⟨asked, move, gone, told, aborts, extra, hleads, rfl, htold, -, hstands⟩ := h
  obtain ⟨rfl, hasked, due, rfl⟩ := hstands
  have hlength := congrArg List.length (hasked.symm.trans (hleads.fresh hk))
  have hgone : gone = [] := by simpa [start] using hlength
  rw [(hk.empty htold).mp hgone]
  rfl

theorem Account.sent_ne (hk : k.Pairs R) {s : S}
    (h : k.Account R node target heard frames spare ⟨[], .waits s⟩) : frames ≠ [] := by
  obtain ⟨asked, move, gone, told, aborts, extra, hleads, rfl, htold, -, hstands⟩ := h
  obtain ⟨rfl, rfl, due, rfl⟩ := hstands
  rw [List.append_nil] at hleads ⊢
  exact fun hnone => hleads.asked_ne ((hk.empty htold).mpr hnone)

theorem Account.received (hk : k.Pairs R) {events : List Event}
    (h : k.Account R node target (answers node events) (sentFrames events) spare c) {late : Bool}
    {outcome : Except TransportError (Option Message)}
    (hc : k.Allows node target late c (.received outcome)) (time : Nat) :
    k.Account R node target (answers node (events ++ [⟨.received outcome, time⟩]))
      (sentFrames events) spare (k.take node target c outcome) := by
  match outcome with
  | .error e =>
    rw [answers_append_of_none rfl]
    obtain ⟨asked, move, gone, told, aborts, extra, hleads, hframes, htold, hextra, hstands⟩ := h
    have hwaits : ∃ s, c.standing = .waits s := by
      obtain rfl | ⟨s, rfl⟩ := hc
      · exact ⟨_, rfl⟩
      · exact ⟨_, rfl⟩
    obtain ⟨s, hs⟩ := hwaits
    rw [hs] at hstands
    obtain ⟨rfl, rfl, due, rfl⟩ := hstands
    exact ⟨_, _, gone, told, [], extra, hleads, hframes, htold, hextra, List.prefix_append ..,
      trivial, .inl rfl⟩
  | .ok none =>
    rw [answers_append_of_none rfl]
    exact h
  | .ok (some m) =>
    rw [answers_append]
    obtain rfl | ⟨s, rfl⟩ := hc
    · rw [if_pos (h.unsent hk), List.append_nil]
      exact h
    · rw [if_neg (h.sent_ne hk), take, Act.answer?]
      by_cases hid : m.id = .std (0x580 + node.toUInt16)
      · rw [if_pos hid, if_pos hid]
        exact h.hear m
      · rw [if_neg hid, if_neg hid, Option.toList_none, List.append_nil]
        exact h

theorem Obeyed.account (hk : k.Pairs R) {events : List Event}
    (h : k.Obeyed node target config direction events) :
    k.Account R node target (answers node events) (sentFrames events)
      (watch config node direction events).repeats.length (k.follow node target events) := by
  induction events using List.reverseRecOn with
  | nil => exact ⟨_, _, [], [], [], 0, .start, rfl, hk.nil, Nat.le_refl _, rfl, rfl, _, rfl⟩
  | append_singleton events e ih =>
    have haccount := ih fun before x after hsplit => h before x (after ++ [e]) (by simp [hsplit])
    have hallows := h events e [] rfl
    obtain ⟨act, time⟩ := e
    rw [follow_append, watch_append]
    have hquiet : ¬ act.Sends →
        ((watch config node direction events).step config node direction ⟨act, time⟩).repeats
          = (watch config node direction events).repeats :=
      fun hact => (Watch.step_of_not_sends config node direction hact).1
    -- Only what is sent or taken makes a difference.
    cases act with
    | sent m outcome =>
      rw [answers_append_of_none rfl, sentFrames_append,
        Watch.step_of_sends _ _ _ ⟨m, outcome, rfl⟩]
      exact haccount.sent hk hallows
    | received outcome =>
      rw [hquiet (by rintro ⟨_, _, h⟩; cases h), sentFrames_append_of_none rfl]
      exact haccount.received hk hallows time
    | noted r =>
      rw [hquiet (by rintro ⟨_, _, h⟩; cases h), answers_append_of_none rfl,
        sentFrames_append_of_none rfl]
      exact haccount
    | slept t =>
      rw [hquiet (by rintro ⟨_, _, h⟩; cases h), answers_append_of_none rfl,
        sentFrames_append_of_none rfl]
      exact haccount

theorem Obeyed.of_prefix {before events : List Event}
    (h : k.Obeyed node target config direction events) (hbefore : before <+: events) :
    k.Obeyed node target config direction before := by
  obtain ⟨since, rfl⟩ := hbefore
  intro earlier e after hsplit
  exact h earlier e (after ++ since) (by simp [hsplit])

end Conduct

theorem Course.Yields.result {c : Course S} {late : Bool} {result : Except Stop Value}
    (h : c.Yields late result) :
    match c.standing with
    | .waits _ => ∀ v, result ≠ .ok v
    | .ended v => result = .ok v
    | .failed e => result = .error (.failed e) := by
  cases result with
  | ok v =>
    obtain rfl : c = ⟨[], .ended v⟩ := h
    rfl
  | error stop =>
    cases stop with
    | unfinished =>
      obtain ⟨-, s, hs⟩ := h
      simp [hs]
    | failed e =>
      cases e with
      | timeout attempts =>
        obtain ⟨-, s, rfl⟩ := h
        simp
      | _ =>
        obtain rfl : c = ⟨[], .failed _⟩ := h
        rfl

def Answered (accepted : Nat → Message → Prop) (heard : List Message) (i : Nat) : Prop :=
  ∃ m ∈ heard[i]?, accepted i m

section
variable {accepted : Nat → Message → Prop} {heard : List Message} {i : Nat} {m : Message}

theorem Answered.lt (h : Answered accepted heard i) : i < heard.length := by
  obtain ⟨m, hm, -⟩ := h
  exact (List.getElem?_eq_some_iff.mp hm).1

theorem Answered.append (h : Answered accepted heard i) (m : Message) :
    Answered accepted (heard ++ [m]) i := by
  obtain ⟨m', hm', haccepted⟩ := h
  refine ⟨m', ?_, haccepted⟩
  rwa [List.getElem?_append_left (List.getElem?_eq_some_iff.mp hm').1]

theorem answered_append_self : Answered accepted (heard ++ [m]) heard.length ↔
    accepted heard.length m := by
  simp [Answered]

end

/-- The frames `frame 0`, `frame 1` and so on up to `n` of them were sent in turn, each one or more
times in a row, and there may have been an abort behind them. Each but the first was sent only when
the one before it had its answer. -/
structure Proceeds (frame : Nat → Message) (accepted : Nat → Message → Prop) (node : UInt8)
    (target : Address) (retries : Nat) (events : List Event) (n : Nat) : Prop where
  sent : ∃ told aborts extra, sentFrames events = told ++ aborts ∧
    Stutters extra ((List.range n).map frame) told ∧ extra ≤ retries ∧
    (aborts = [] ∨ ∃ code, aborts = [abortFrame node target code])
  answered : ∀ i, i + 1 < n → Answered accepted (answers node events) i

theorem eq_map_range_of_prefix {α : Type} {f : Nat → α} {n : Nat} {xs : List α}
    (h : xs <+: (List.range n).map f) : xs.length ≤ n ∧ xs = (List.range xs.length).map f := by
  have hlength : xs.length ≤ n := by simpa using h.length_le
  refine ⟨hlength, ?_⟩
  have htake := List.prefix_iff_eq_take.mp h
  rwa [← List.map_take, List.take_range, Nat.min_eq_left hlength] at htake

namespace Conduct

variable {k : Conduct S} {R : Nat → List Message → List Message → Prop} {node : UInt8}
  {target : Address} {config : Config} {direction : Direction} {events : List Event}
  {result : Except Stop Value}

/-- What a call comes to is what its answers lead to, unless something else puts an end to it while
it waits, or its transport fails. -/
theorem Explains.leads (hk : k.Pairs R)
    (h : k.Explains node target config direction events result) :
    ∃ asked move, k.Leads (answers node events) asked move ∧
      match move with
      | .goes _ _ => ∀ v, result ≠ .ok v
      | .ends due v => result = .ok v ∨
        due ≠ [] ∧ ∃ cause, result = .error (.failed (.transport cause))
      | .fails e => result = .error (.failed e) := by
  obtain ⟨asked, move, gone, told, aborts, extra, hleads, -, -, -, hstands⟩ := h.obeyed.account hk
  have hresult := h.result.result
  refine ⟨asked, move, hleads, ?_⟩
  generalize k.follow node target events = c at hstands hresult
  obtain ⟨due, standing⟩ := c
  cases standing with
  | waits s =>
    obtain ⟨-, -, due, rfl⟩ := hstands
    exact hresult
  | ended v =>
    obtain ⟨-, -, due, -, rfl⟩ := hstands
    exact .inl hresult
  | failed e =>
    obtain ⟨-, hadmits, -⟩ := hstands
    cases move with
    | goes due s => simp [show result = _ from hresult]
    | ends due v =>
      obtain ⟨hdue, cause, rfl⟩ := hadmits
      exact .inr ⟨hdue, cause, hresult⟩
    | fails e' => exact (show e' = e from hadmits) ▸ hresult

/-- What is sent again when the deadline has passed is the last frame, and only an abort looks like
an abort. -/
structure Insists (k : Conduct S) : Prop where
  first : k.again k.first = k.opening
  hear : ∀ {s m due s'}, k.hear s m = .goes due s' →
    s' ≠ k.first ∧ due.getLast? = some (k.again s')
  head : ∀ s, (k.again s).data.get 0 ≠ 0x80

theorem pairs_stutters (hfirst : k.again k.first = k.opening)
    (hhear : ∀ {heard asked due s m due' s'}, k.Leads heard asked (.goes due s) →
      k.hear s m = .goes due' s' → s' ≠ k.first ∧ due'.getLast? = some (k.again s'))
    (hhead : ∀ {heard asked due s}, k.Leads heard asked (.goes due s) →
      (k.again s).data.get 0 ≠ 0x80) :
    k.Pairs Stutters where
  fresh hleads h := (hhear hleads h).1
  head := hhead
  nil := .nil
  next m h := h.next m
  again {heard asked due s n told} hleads htold := by
    have hlast : asked.getLast? = some (k.again s) := by
      generalize hmove : Move.goes due s = move at hleads
      cases hleads with
      | start =>
        cases hmove
        rw [hfirst]
        rfl
      | hear m hleads =>
        have hlast := (hhear hleads hmove.symm).2
        rw [← hmove, Move.due, List.getLast?_append, hlast]
        rfl
    obtain ⟨ys, rfl⟩ := List.getLast?_eq_some_iff.mp hlast
    exact htold.again
  empty := Stutters.nil_iff

theorem Insists.pairs (hk : k.Insists) : k.Pairs Stutters :=
  pairs_stutters hk.first (fun _ => hk.hear) fun _ => hk.head _

theorem Obeyed.proceeds (hk : k.Insists) (h : k.Obeyed node target config direction events)
    {frame : Nat → Message} {accepted : Nat → Message → Prop}
    (hleads : ∀ {heard asked move}, k.Leads heard asked move →
      asked = (List.range asked.length).map frame ∧
        ∀ i, i + 1 < asked.length → Answered accepted heard i) :
    ∃ asked move, k.Leads (answers node events) asked move ∧ ∃ n ≤ asked.length,
      Proceeds frame accepted node target (watch config node direction events).repeats.length events
        n := by
  obtain ⟨asked, move, gone, told, aborts, extra, hl, hsent, htold, hextra, hstands⟩ :=
    h.account hk.pairs
  obtain ⟨hasked, hanswered⟩ := hleads hl
  have hparts : gone <+: asked ∧
      (aborts = [] ∨ ∃ code, aborts = [abortFrame node target code]) := by
    generalize k.follow node target events = c at hstands
    obtain ⟨due, standing⟩ := c
    cases standing with
    | waits s =>
      obtain ⟨haborts, rfl, -⟩ := hstands
      exact ⟨List.prefix_append .., .inl haborts⟩
    | ended v =>
      obtain ⟨haborts, rfl, -⟩ := hstands
      exact ⟨List.prefix_append .., .inl haborts⟩
    | failed e =>
      obtain ⟨hgone, -, hnone | ⟨code, hone⟩⟩ := hstands
      · exact ⟨hgone, .inl (List.append_eq_nil_iff.mp hnone).2⟩
      · refine ⟨hgone, ?_⟩
        cases due with
        | nil => exact .inr ⟨code, hone⟩
        | cons m due => exact .inl (List.append_eq_nil_iff.mp (List.cons.inj hone).2).2
  rw [hasked] at hparts
  obtain ⟨hn, hgone⟩ := eq_map_range_of_prefix hparts.1
  rw [hgone] at htold
  exact ⟨asked, move, hl, gone.length, hn, ⟨told, aborts, extra, hsent, htold, hextra, hparts.2⟩,
    fun i hi => hanswered i (Nat.lt_of_lt_of_le hi hn)⟩

end Conduct

theorem repeats_le_of_prefix (config : Config) (node : UInt8) (direction : Direction)
    {before events : List Event} (h : before <+: events) :
    (watch config node direction before).repeats.length
      ≤ (watch config node direction events).repeats.length := by
  obtain ⟨since, rfl⟩ := h
  rw [watch, watch, List.foldl_append]
  exact Watch.repeats_le_foldl ..

theorem Proceeds.mono {frame : Nat → Message} {accepted : Nat → Message → Prop} {node : UInt8}
    {target : Address} {retries retries' : Nat} {events : List Event} {n : Nat}
    (h : Proceeds frame accepted node target retries events n) (hle : retries ≤ retries') :
    Proceeds frame accepted node target retries' events n := by
  obtain ⟨⟨told, aborts, extra, hsent, htold, hextra, haborts⟩, hanswered⟩ := h
  exact ⟨⟨told, aborts, extra, hsent, htold, Nat.le_trans hextra hle, haborts⟩, hanswered⟩

/-- At no time has an operation that keeps to such a conduct sent more than the answers asked for,
but for its retries. -/
theorem perform_proceeds (client : Client σ) {node : UInt8} {target : Address} {op : Operation}
    {w : σ} {k : Conduct S} (hk : k.Insists)
    (h : k.Obeyed node target client.config op.direction (client.observe node target op w).2)
    {frame : Nat → Message} {accepted : Nat → Message → Prop}
    (hleads : ∀ {heard asked move}, k.Leads heard asked move →
      asked = (List.range asked.length).map frame ∧
        ∀ i, i + 1 < asked.length → Answered accepted heard i) :
    ∀ before, before <+: (client.observe node target op w).2 →
      ∃ asked move, k.Leads (answers node before) asked move ∧ ∃ n ≤ asked.length,
        Proceeds frame accepted node target client.config.retries.toNat before n := by
  intro before hbefore
  obtain ⟨asked, move, hl, n, hn, hproceeds⟩ := (h.of_prefix hbefore).proceeds hk hleads
  have hbudget := (retries_bounded client node target op w).2.1
  have hle := repeats_le_of_prefix client.config node op.direction hbefore
  exact ⟨asked, move, hl, n, hn, hproceeds.mono (Nat.le_trans hle hbudget)⟩

end Canopen.Client
