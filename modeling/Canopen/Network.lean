import Canopen.Bus
import Canopen.Client
import Canopen.Fanout
import Canopen.Server

/-!
Clients and servers on one bus, with a clock that only moves when a client sleeps.
-/

set_option autoImplicit false

namespace Canopen

open Can (Message TransportError)

namespace Network

inductive Device where
  | server (s : Server)
  /-- Cancels the transfer of a client on the first frame that begins with this byte. -/
  | button (client : Nat) (byte : UInt8) (pressed : Bool)
  /-- Answers each frame on an ID with the same frames. -/
  | echo (id : Can.Id) (frames : List Message)

inductive Effect where
  | report (r : Record)
  | cancel (client : Nat)

def respond (m : Message) : Device → Reaction Effect Device
  | .server s => (s.handle m).map .report .server
  | .button client byte false =>
    if m.data.get 0 = byte then
      { effects := [.cancel client], device := .button client byte true }
    else { device := .button client byte false }
  | .echo id frames => { frames := if m.id = id then frames else [], device := .echo id frames }
  | d => { device := d }

end Network

open Network (Device Effect)

structure Network where
  bus : Bus Device := {}
  now : Nat := 0
  /-- The clients whose transfers are to be given up. -/
  cancelled : List Nat := []
  log : Array Record := #[]

namespace Network

def note (r : Record) (n : Network) : Network := { n with log := n.log.push r }

def cancel (client : Nat) (n : Network) : Network := { n with cancelled := client :: n.cancelled }

def resume (client : Nat) (n : Network) : Network :=
  { n with cancelled := n.cancelled.filter (· ≠ client) }

def takeEffect (n : Network) : Effect → Network
  | .report r => n.note r
  | .cancel client => n.cancel client

def send (tap : Nat) (m : Message) (n : Network) : Except TransportError Unit × Network :=
  let (sent, bus) := n.bus.send respond tap m
  let n := { n with bus }
  match sent with
  | .ok effects => (.ok (), effects.foldl takeEffect n)
  | .error e => (.error e, n)

def receive (tap : Nat) (n : Network) : Except TransportError (Option Message) × Network :=
  let (m, bus) := n.bus.receive tap
  (m, { n with bus })

def link (tap client : Nat) : Client.Link Network where
  send := send tap
  receive := receive tap
  backlog n := ((n.bus.queues[tap]?).getD []).length
  note := note
  now := (·.now)
  sleep t n := { n with now := n.now + t }
  cancelled n := n.cancelled.contains client
  resume := resume client

def attachTap (n : Network) : Nat × Network :=
  let (i, bus) := n.bus.attachTap
  (i, { n with bus })

def attach (n : Network) (d : Device) : Network := { n with bus := n.bus.attachDevice d }

def servers (n : Network) : List Server :=
  n.bus.devices.filterMap fun
    | .server s => some s
    | _ => none

def mapServer (n : Network) (i : Nat) (f : Server → Server) : Network :=
  let devices := n.bus.devices.modify i fun
    | .server s => .server (f s)
    | d => d
  { n with bus := { n.bus with devices } }

end Network

end Canopen
