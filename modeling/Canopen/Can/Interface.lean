import Canopen.Can.Message
import Canopen.Log

set_option autoImplicit false

namespace Canopen.Can

/-- Faults of the link itself. That no frame has arrived yet is not one of them. -/
inductive TransportError where
  | notConnected
  | io (message : String)
  deriving DecidableEq, Repr

def TransportError.message : TransportError → String
  | .notConnected => "CAN socket is not connected"
  | .io m => "CAN I/O failure: " ++ m

structure Interface (σ : Type) where
  send : Message → σ → Except TransportError Unit × σ
  /-- Never waits: `none` says that there is no frame at present. -/
  receive : σ → Except TransportError (Option Message) × σ
  /-- No more frames than this can be received before something else happens. -/
  backlog : σ → Nat
  note : Record → σ → σ

namespace Interface

variable {σ : Type}

/-- Receives up to `limit` frames, until there is none. Also tells how it ended. -/
def drainUpTo (i : Interface σ) : (limit : Nat) → σ → List Message × Except TransportError Unit × σ
  | 0, w => ([], .ok (), w)
  | limit + 1, w =>
    match i.receive w with
    | (.error e, w) => ([], .error e, w)
    | (.ok none, w) => ([], .ok (), w)
    | (.ok (some m), w) =>
      let (ms, ended, w) := i.drainUpTo limit w
      (m :: ms, ended, w)

def drain (i : Interface σ) (w : σ) : List Message × Except TransportError Unit × σ :=
  i.drainUpTo (i.backlog w + 1) w

def flush (i : Interface σ) (w : σ) : Except TransportError Unit × σ := (i.drain w).2

end Interface

end Canopen.Can
