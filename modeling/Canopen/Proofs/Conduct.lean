import Canopen.Proofs.RetryBudget
import Mathlib.Data.List.Induction

/-!
What a client does can be foretold from what it hears. A conduct tells it as a machine: what is sent
first, what a message of the server leads to, and what is sent again when the deadline has passed.
Run along the trace of a call, it says at each moment what may be done next, and at the end what the
call came to.
-/

set_option autoImplicit false

namespace Canopen.Client

open Can (Message TransportError)
open Sdo
open Transfer

variable {σ S : Type}

/-- What a message of the server leads to: some frames are to be sent, and then the client waits
again or is done with a value; or it fails. -/
inductive Move (S : Type) where
  | goes (due : List Message) (state : S)
  | ends (due : List Message) (value : Value)
  | fails (error : Error)

def Move.reading (respond : Response → Move S) (m : Message) : Move S :=
  match Response.ofMessage m with
  | .error e => .fails (.malformed e)
  | .ok (.abort target code) => .fails (.serverAbort target (.ofCode code))
  | .ok r => respond r

def Move.sized (announced : Option Nat) (length : Nat) (move : Move S) : Move S :=
  match announced with
  | some (n + 1) => if n + 1 = length then move else .fails (.sizeMismatch (n + 1) length)
  | _ => move

theorem Move.reading_cases (respond : Response → Move S) (m : Message) :
    (∃ e, reading respond m = .fails e) ∨
      ∃ r, Response.ofMessage m = .ok r ∧ reading respond m = respond r := by
  unfold reading
  split
  · exact .inl ⟨_, rfl⟩
  · exact .inl ⟨_, rfl⟩
  · rename_i r _ hr
    exact .inr ⟨r, hr, rfl⟩

theorem reading_eq_goes {respond : Response → Move S} {m : Message} {due : List Message} {s : S}
    (h : Move.reading respond m = .goes due s) :
    ∃ r, Response.ofMessage m = .ok r ∧ respond r = .goes due s := by
  obtain ⟨e, he⟩ | ⟨r, hr, hmove⟩ := Move.reading_cases respond m
  · cases he.symm.trans h
  · exact ⟨r, hr, hmove.symm.trans h⟩

theorem reading_eq_ends {respond : Response → Move S} {m : Message} {due : List Message} {v : Value}
    (h : Move.reading respond m = .ends due v) :
    ∃ r, Response.ofMessage m = .ok r ∧ respond r = .ends due v := by
  obtain ⟨e, he⟩ | ⟨r, hr, hmove⟩ := Move.reading_cases respond m
  · cases he.symm.trans h
  · exact ⟨r, hr, hmove.symm.trans h⟩

theorem Move.sized_of_length {announced : Option Nat} {length : Nat}
    (h : ∀ n, announced = some n → 0 < n → length = n) (move : Move S) :
    move.sized announced length = move := by
  match announced with
  | none => rfl
  | some 0 => rfl
  | some (n + 1) => exact if_pos (h (n + 1) rfl (Nat.succ_pos n)).symm

@[simp] theorem Move.sized_self (length : Nat) (move : Move S) :
    move.sized (some length) length = move :=
  sized_of_length (fun _ hn _ => Option.some.inj hn) move

theorem Move.sized_cases (announced : Option Nat) (length : Nat) (move : Move S) :
    move.sized announced length = move ∨ ∃ e, move.sized announced length = .fails e := by
  unfold sized
  split
  · split
    · exact .inl rfl
    · exact .inr ⟨_, rfl⟩
  · exact .inl rfl

theorem sized_eq_ends {announced : Option Nat} {length : Nat} {move : Move S}
    {due : List Message} {v : Value} (h : move.sized announced length = .ends due v) :
    move = .ends due v ∧ ∀ n, announced = some n → 0 < n → length = n := by
  match announced with
  | none => exact ⟨h, by simp⟩
  | some 0 => exact ⟨h, by simp⟩
  | some (n + 1) =>
    rw [Move.sized] at h
    split at h
    · rename_i hlength
      refine ⟨h, ?_⟩
      rintro _ ⟨⟩ -
      exact hlength.symm
    · cases h

structure Conduct (S : Type) where
  opening : Message
  first : S
  hear : S → Message → Move S
  again : S → Message

inductive Standing (S : Type) where
  | waits (state : S)
  | ended (value : Value)
  | failed (error : Error)

/-- How far a transfer has come: the frames to be sent next, and what there is behind them. -/
structure Course (S : Type) where
  due : List Message
  standing : Standing S

/-- An abort that is not due is that of a client that was cancelled. Whether an abort could be sent
is of no matter. -/
def Course.send (c : Course S) (m : Message) (outcome : Except TransportError Unit) : Course S :=
  if c.due = [] ∧ m.data.get 0 = 0x80 then ⟨[], .failed .cancelled⟩
  else
    match c.standing, outcome with
    | .failed e, _ => ⟨c.due.tail, .failed e⟩
    | _, .error e => ⟨[], .failed (.transport e)⟩
    | standing, .ok () => ⟨c.due.tail, standing⟩

/-- How a call may have ended that has come so far. It times out, or its patience ends, where it
waits. -/
def Course.Yields (c : Course S) (late : Bool) : Except Stop Value → Prop
  | .ok v => c = ⟨[], .ended v⟩
  | .error (.failed (.timeout _)) => late = true ∧ ∃ s, c = ⟨[], .waits s⟩
  | .error (.failed e) => c = ⟨[], .failed e⟩
  | .error .unfinished => late = false ∧ ∃ s, c.standing = .waits s

namespace Conduct

variable (k : Conduct S)

def start : Course S := ⟨[k.opening], .waits k.first⟩

section
variable (node : UInt8) (target : Address)

def after : Move S → Course S
  | .goes due s => ⟨due, .waits s⟩
  | .ends due v => ⟨due, .ended v⟩
  | .fails e => ⟨(e.abortCode?.map (abortFrame node target)).toList, .failed e⟩

def take (c : Course S) : Except TransportError (Option Message) → Course S
  | .error e => ⟨[], .failed (.transport e)⟩
  | .ok none => c
  | .ok (some m) =>
    match c with
    | ⟨[], .waits s⟩ =>
      if m.id = .std (0x580 + node.toUInt16) then after node target (k.hear s m) else c
    | _ => c

def step (c : Course S) : Act → Course S
  | .sent m outcome => c.send m outcome
  | .received outcome => k.take node target c outcome
  | .noted _ | .slept _ => c

def follow (events : List Event) : Course S :=
  events.foldl (fun c e => k.step node target c e.act) k.start

/-- What a client may do next. It sends what is due. While it waits it takes what comes, and sends
again when the deadline has passed, or gives up when it was cancelled. What lay ready before the
first frame is sent is taken too. -/
def Allows (late : Bool) (c : Course S) : Act → Prop
  | .sent m _ =>
    match c with
    | ⟨next :: _, _⟩ => m = next
    | ⟨[], .waits s⟩ => m = if late then k.again s else abortFrame node target 0x08000000
    | ⟨[], _⟩ => False
  | .received _ => c = k.start ∨ ∃ s, c = ⟨[], .waits s⟩
  | .noted _ | .slept _ => True

section
variable (config : Config) (direction : Direction)

def Obeyed (events : List Event) : Prop :=
  ∀ before e after, events = before ++ e :: after →
    k.Allows node target (watch config node direction before).late (k.follow node target before)
      e.act

/-- The trace of a call is what the conduct says, and so is the result. -/
structure Explains (events : List Event) (result : Except Stop Value) : Prop where
  obeyed : k.Obeyed node target config direction events
  result : (k.follow node target events).Yields (watch config node direction events).late result

end

theorem follow_append (events : List Event) (e : Event) :
    k.follow node target (events ++ [e])
      = k.step node target (k.follow node target events) e.act := by
  simp [follow]

end

variable {k} {node : UInt8} {target : Address} {config : Config} {direction : Direction}

theorem Obeyed.append {events : List Event} (h : k.Obeyed node target config direction events)
    {e : Event}
    (he : k.Allows node target (watch config node direction events).late
      (k.follow node target events) e.act) :
    k.Obeyed node target config direction (events ++ [e]) := by
  intro before x since hsplit
  rcases split_of_snoc hsplit with ⟨since', -, hbefore⟩ | ⟨rfl, -, rfl⟩
  · exact h before x since' hbefore
  · exact he

/-- The result is read off the course: there is a value just when the course has come to it. -/
theorem Explains.ok_iff {events : List Event} {result : Except Stop Value}
    (h : k.Explains node target config direction events result) (v : Value) :
    result = .ok v ↔ k.follow node target events = ⟨[], .ended v⟩ := by
  have hresult := h.result
  constructor
  · rintro rfl
    exact hresult
  · intro hcourse
    rw [hcourse] at hresult
    match result, hresult with
    | .ok w, hw => exact congrArg Except.ok (Standing.ended.inj (Course.mk.inj hw).2).symm
    | .error (.failed (.timeout _)), ⟨_, _, hs⟩ => cases hs
    | .error .unfinished, ⟨_, _, hs⟩ => cases hs

theorem ended_of_send {c : Course S} {m : Message} {outcome : Except TransportError Unit}
    {v : Value} (h : (c.send m outcome).standing = .ended v) : c.standing = .ended v := by
  unfold Course.send at h
  split at h
  · cases h
  · split at h
    · cases h
    · cases h
    · exact h

theorem ended_of_take {c : Course S} {outcome : Except TransportError (Option Message)} {v : Value}
    (h : (k.take node target c outcome).standing = .ended v) :
    c.standing = .ended v ∨
      ∃ m s due, outcome = .ok (some m) ∧ c = ⟨[], .waits s⟩ ∧
        m.id = .std (0x580 + node.toUInt16) ∧ k.hear s m = .ends due v := by
  unfold take at h
  split at h
  · cases h
  · exact .inl h
  · rename_i m
    split at h
    · rename_i s
      split at h
      · rename_i hid
        cases hmove : k.hear s m with
        | goes due t =>
          rw [hmove] at h
          cases h
        | ends due w =>
          rw [hmove] at h
          cases h
          exact .inr ⟨m, s, due, rfl, rfl, hid, hmove⟩
        | fails e =>
          rw [hmove] at h
          cases h
      · cases h
    · exact .inl h

/-- Of a call that is done it can be told which message ended it, and where it waited then. -/
theorem ended_of_follow {events : List Event} {v : Value}
    (h : (k.follow node target events).standing = .ended v) :
    ∃ before m time since s due, events = before ++ ⟨.received (.ok (some m)), time⟩ :: since ∧
      k.follow node target before = ⟨[], .waits s⟩ ∧ m.id = .std (0x580 + node.toUInt16) ∧
      k.hear s m = .ends due v := by
  induction events using List.reverseRecOn with
  | nil => cases h
  | append_singleton events e ih =>
    rw [follow_append] at h
    have hearlier : (k.follow node target events).standing = .ended v →
        ∃ before m time since s due,
          events ++ [e] = before ++ ⟨.received (.ok (some m)), time⟩ :: since ∧
            k.follow node target before = ⟨[], .waits s⟩ ∧
            m.id = .std (0x580 + node.toUInt16) ∧ k.hear s m = .ends due v := by
      intro hended
      obtain ⟨before, m, time, since, s, due, rfl, hrest⟩ := ih hended
      exact ⟨before, m, time, since ++ [e], s, due, by simp, hrest⟩
    -- The last act has ended the call, or the call was done before.
    obtain ⟨act, time⟩ := e
    cases act with
    | sent m outcome => exact hearlier (ended_of_send h)
    | received outcome =>
      rcases ended_of_take h with hended | ⟨m, s, due, rfl, hcourse, hid, hmove⟩
      · exact hearlier hended
      · exact ⟨events, m, time, [], s, due, rfl, hcourse, hid, hmove⟩
    | noted r => exact hearlier h
    | slept t => exact hearlier h

end Conduct

end Canopen.Client
