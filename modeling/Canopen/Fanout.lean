import Canopen.Client.Link
import Canopen.Text.Outline

/-!
One interface shared by several users. Each has a channel with a queue of its own. A channel
that finds its queue empty takes all that has arrived at the interface and puts a copy of each
frame into every queue, so all channels see all traffic since they were made.
-/

set_option autoImplicit false

namespace Canopen

open Can (Interface Message TransportError)

/-- A closed channel keeps its place until the next frame is handed out. -/
inductive Channel where
  | live (queue : List Message)
  | closed
  | removed
  deriving DecidableEq, Repr

namespace Channel

/-- A full queue loses new frames. -/
def depth : Nat := 100

def isFull : Channel → Bool
  | live queue => depth ≤ queue.length
  | _ => false

def isRemoved : Channel → Bool
  | removed => true
  | _ => false

def isLive : Channel → Bool
  | live _ => true
  | _ => false

def outline : String := Outline.sealed "SharedPortChannel"

def push (m : Message) : Channel → Channel
  | live queue => live (if queue.length < depth then queue ++ [m] else queue)
  | _ => removed

end Channel

structure Fanout (σ : Type) where
  world : σ
  channels : List Channel := []

namespace Fanout

variable {σ : Type}

def connect (f : Fanout σ) : Nat × Fanout σ :=
  (f.channels.length, { f with channels := f.channels ++ [.live []] })

def close (f : Fanout σ) (i : Nat) : Fanout σ :=
  { f with channels := f.channels.modify i fun
    | .live _ => .closed
    | c => c }

def count (f : Fanout σ) : Nat := f.channels.countP (!·.isRemoved)

def outline (f : Fanout σ) : String :=
  Outline.record "SharedPort" [("num_channels", toString f.count)]

def senderOutline : String := Outline.sealed "SharedPortSender"

def overflow : Record := ⟨.warn, "Dropped received message due to overflow"⟩

def push (inner : Interface σ) (m : Message) (f : Fanout σ) : Fanout σ :=
  { world := Nat.repeat (inner.note overflow) (f.channels.countP (·.isFull)) f.world
    channels := f.channels.map (Channel.push m) }

/-- Hands out what has arrived at the interface, up to `limit` frames. A fault of the interface
ends it, and keeps what was handed out before. -/
def drain (inner : Interface σ) :
    (limit : Nat) → Fanout σ → Except TransportError Unit × Fanout σ
  | 0, f => (.ok (), f)
  | limit + 1, f =>
    match inner.receive f.world with
    | (.error e, w) => (.error e, { f with world := w })
    | (.ok none, w) => (.ok (), { f with world := w })
    | (.ok (some m), w) => drain inner limit (push inner m { f with world := w })

def pop (i : Nat) (f : Fanout σ) : Option Message × Fanout σ :=
  match f.channels[i]? with
  | some (.live (m :: queue)) => (some m, { f with channels := f.channels.set i (.live queue) })
  | _ => (none, f)

def receive (inner : Interface σ) (i : Nat) (f : Fanout σ) :
    Except TransportError (Option Message) × Fanout σ :=
  match pop i f with
  | (some m, f) => (.ok (some m), f)
  | (none, f) =>
    match drain inner (inner.backlog f.world + 1) f with
    | (.error e, f) => (.error e, f)
    | (.ok (), f) =>
      let (m, f) := pop i f
      (.ok m, f)

def act {α : Type} (f : σ → α × σ) (s : Fanout σ) : α × Fanout σ :=
  let (a, w) := f s.world
  (a, { s with world := w })

def interface (inner : Interface σ) (i : Nat) : Interface (Fanout σ) where
  send m := act (inner.send m)
  receive := receive inner i
  backlog f :=
    inner.backlog f.world + match f.channels[i]? with
      | some (.live queue) => queue.length
      | _ => 0
  note r f := { f with world := inner.note r f.world }

/-- The link of a client that uses a channel. -/
def link (inner : Client.Link σ) (i : Nat) : Client.Link (Fanout σ) where
  toInterface := interface inner.toInterface i
  now f := inner.now f.world
  sleep t f := { f with world := inner.sleep t f.world }
  cancelled f := inner.cancelled f.world
  resume f := { f with world := inner.resume f.world }

/-- The link of a client that does not use a channel. -/
def beneath (inner : Client.Link σ) : Client.Link (Fanout σ) where
  send m := act (inner.send m)
  receive := act inner.receive
  backlog f := inner.backlog f.world
  note r f := { f with world := inner.note r f.world }
  now f := inner.now f.world
  sleep t f := { f with world := inner.sleep t f.world }
  cancelled f := inner.cancelled f.world
  resume f := { f with world := inner.resume f.world }

end Fanout

end Canopen
