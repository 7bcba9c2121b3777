import Canopen.Client.Link

/-!
A scripted transport: what arrives, and when, is laid down beforehand. Some of it is there from
the start, the rest follows on the messages sent.
-/

set_option autoImplicit false

namespace Canopen

open Can (Message TransportError)

namespace Script

inductive Event where
  | frame (m : Message)
  | silence
  | fault (e : TransportError)
  | cancel
  deriving DecidableEq, Repr

inductive Cue where
  /-- An event that is ready after so many microseconds, so many times. -/
  | event (e : Event) (delay times : Nat)
  | cancelNow
  deriving DecidableEq, Repr

end Script

open Script (Event Cue)

/-- A message that cannot be sent fails with a reason in `ε`. Times are in microseconds. -/
structure Script (ε : Type) where
  queue : List (Nat × Event) := []
  replies : List (Except ε (List Cue)) := []
  now : Nat := 0
  /-- How long the receiver takes each time it looks. -/
  receiveCost : Nat := 0
  cancelled : Bool := false
  sent : Array (Nat × Message) := #[]
  looks : Nat := 0
  log : Array Record := #[]

namespace Script

variable {ε : Type}

def enqueueCue (s : Script ε) : Cue → Script ε
  | .event e delay times =>
    { s with queue := s.queue ++ List.replicate times (s.now + delay, e) }
  | .cancelNow => { s with cancelled := true }

def enqueue (s : Script ε) (cues : List Cue) : Script ε := cues.foldl enqueueCue s

/-- A message that fails is not recorded. Past the end of the script all goes well and nothing
follows. -/
def send (m : Message) (s : Script ε) : Except ε Unit × Script ε :=
  match s.replies with
  | .error e :: rest => (.error e, { s with replies := rest })
  | .ok cues :: rest =>
    (.ok (), { s with replies := rest, sent := s.sent.push (s.now, m) }.enqueue cues)
  | [] => (.ok (), { s with sent := s.sent.push (s.now, m) })

/-- The first event that is not a cancellation, if it is ready; whether there was a
cancellation before it; and what is left. -/
def next (now : Nat) : List (Nat × Event) → Option Event × Bool × List (Nat × Event)
  | [] => (none, false, [])
  | (ready, e) :: rest =>
    if ready ≤ now then
      match e with
      | .cancel =>
        let (e, _, rest) := next now rest
        (e, true, rest)
      | e => (some e, false, rest)
    else (none, false, (ready, e) :: rest)

def receive (s : Script ε) : Except TransportError (Option Message) × Script ε :=
  let now := s.now + s.receiveCost
  let (e, cancel, rest) := next now s.queue
  let s :=
    { s with now, queue := rest, looks := s.looks + 1, cancelled := s.cancelled || cancel }
  (match e with
    | some (.frame m) => .ok (some m)
    | some (.fault e) => .error e
    | _ => .ok none, s)

def interface (explain : ε → TransportError) : Can.Interface (Script ε) where
  send m s :=
    let (sent, s) := s.send m
    (sent.mapError explain, s)
  receive := receive
  backlog s := s.queue.length
  note r s := { s with log := s.log.push r }

def link : Client.Link (Script TransportError) where
  toInterface := interface id
  now := (·.now)
  sleep t s := { s with now := s.now + t }
  cancelled := (·.cancelled)
  resume s := { s with cancelled := false }

end Script

end Canopen
