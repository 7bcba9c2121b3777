import Canopen.Network

/-!
A plant: a network with its servers and clients in place. Either each client has a tap of its
own, or all of them share one.
-/

set_option autoImplicit false

namespace Canopen

/-- Where a client is attached: at a tap of the bus, or at a channel of a shared one. -/
inductive Seat where
  | tap (i : Nat)
  | channel (tap i : Nat)
  deriving DecidableEq, Repr

structure Plant where
  hub : Fanout Network
  seats : List Seat := []

namespace Plant

def network (p : Plant) : Network := p.hub.world

def mapNetwork (p : Plant) (f : Network → Network) : Plant :=
  { p with hub := { p.hub with world := f p.hub.world } }

def attachTap (p : Plant) : Nat × Plant :=
  let (i, n) := p.network.attachTap
  (i, p.mapNetwork fun _ => n)

def seatAlone (p : Plant) : Plant :=
  let (i, p) := p.attachTap
  { p with seats := p.seats ++ [.tap i] }

def seatAt (tap : Nat) (p : Plant) : Plant :=
  let (i, hub) := p.hub.connect
  { p with hub, seats := p.seats ++ [.channel tap i] }

/-- Servers come first, then the shared tap if there is one, then the clients. -/
def build (servers : List Server) (clients : Nat) (share : Bool) : Plant :=
  let empty : Plant :=
    { hub := { world := servers.foldl (fun n s => n.attach (.server s)) {} } }
  if share then
    let (tap, p) := empty.attachTap
    Nat.repeat (seatAt tap) clients p
  else Nat.repeat seatAlone clients empty

def link (client : Nat) : Seat → Client.Link (Fanout Network)
  | .tap i => Fanout.beneath (Network.link i client)
  | .channel tap i => Fanout.link (Network.link tap client) i

end Plant

end Canopen
