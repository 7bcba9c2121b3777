import Canopen.Can.Interface
import Canopen.Reaction
import Canopen.Sdo.Frame

/-!
A bus with taps and with devices that answer at once. A frame sent at a tap goes to all other
taps and to every device; what the devices answer goes to all taps, and to no device.
-/

set_option autoImplicit false

namespace Canopen

open Can (Message TransportError)

/-- Taps and devices are numbered in the order they were attached. -/
structure Bus (δ : Type) where
  queues : List (List Message) := []
  devices : List δ := []
  log : Array Message := #[]
  connected : Bool := true

namespace Bus

variable {δ ε : Type}

/-- A new tap, and its number. It gets the frames put on the bus from now on. -/
def attachTap (b : Bus δ) : Nat × Bus δ :=
  (b.queues.length, { b with queues := b.queues ++ [[]] })

def attachDevice (b : Bus δ) (d : δ) : Bus δ := { b with devices := b.devices ++ [d] }

def deliver (sender : Option Nat) (b : Bus δ) (m : Message) : Bus δ :=
  { b with
    queues := b.queues.mapIdx fun i q => if sender = some i then q else q ++ [m]
    log := b.log.push m }

def react (respond : Message → δ → Reaction ε δ) (m : Message) : List δ → Reaction ε (List δ)
  | [] => { device := [] }
  | d :: ds =>
    let r := respond m d
    let rs := react respond m ds
    { frames := r.frames ++ rs.frames
      effects := r.effects ++ rs.effects
      device := r.device :: rs.device }

/-- Sends a frame at a tap. All devices answer before any answer is on the bus. -/
def send (respond : Message → δ → Reaction ε δ) (tap : Nat) (m : Message) (b : Bus δ) :
    Except TransportError (List ε) × Bus δ :=
  if b.connected then
    let b := b.deliver (some tap) m
    let r := react respond m b.devices
    (.ok r.effects, r.frames.foldl (deliver none) { b with devices := r.device })
  else (.error .notConnected, b)

def receive (tap : Nat) (b : Bus δ) : Except TransportError (Option Message) × Bus δ :=
  if b.connected then
    match b.queues[tap]? with
    | some (m :: queue) => (.ok (some m), { b with queues := b.queues.set tap queue })
    | _ => (.ok none, b)
  else (.error .notConnected, b)

def inject (b : Bus δ) (m : Message) : Bus δ := b.deliver none m

def disconnect (b : Bus δ) : Bus δ := { b with connected := false }

def history (b : Bus δ) : String :=
  let lines := b.log.toList.map fun m =>
    match Sdo.Frame.decode m with
    | .ok f => f.text
    | .error _ => m.text
  String.join ((["Bus message history", "-------------------"] ++ lines).map (· ++ "\n"))

end Bus

end Canopen
