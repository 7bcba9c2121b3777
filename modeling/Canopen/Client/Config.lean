set_option autoImplicit false

namespace Canopen.Client

structure Config where
  timeoutMs : UInt64 := 1000
  /-- How often requests are sent again in one transfer, all of them together. -/
  retries : UInt32 := 3
  pollIntervalUs : UInt64 := 500
  blockSize : UInt8 := 127
  useCrc : Bool := true
  preferBlock : Bool := false
  /-- From this size on downloads are sent in blocks if those are preferred. Up to this size a
  server may answer a block upload with a normal one. -/
  blockThreshold : UInt64 := 64
  deriving DecidableEq, Repr

namespace Config

inductive Fault where
  | blockSize (value : UInt8)
  | timeout
  deriving DecidableEq, Repr

def Fault.field : Fault → String
  | .blockSize _ => "block_size"
  | .timeout => "timeout_ms"

def Fault.message (f : Fault) : String :=
  let problem := match f with
    | .blockSize v => s!"{v} is not in 1..=127"
    | .timeout => "must be greater than 0"
  s!"Invalid value for {f.field}: {problem}"

def fault? (c : Config) : Option Fault :=
  if c.blockSize = 0 ∨ 127 < c.blockSize then some (.blockSize c.blockSize)
  else if c.timeoutMs = 0 then some .timeout
  else none

def Valid (c : Config) : Prop := c.fault? = none

instance (c : Config) : Decidable c.Valid := inferInstanceAs (Decidable (_ = _))

/-- In microseconds. -/
def timeout (c : Config) : Nat := c.timeoutMs.toNat * 1000

def pollInterval (c : Config) : Nat := c.pollIntervalUs.toNat

end Config

end Canopen.Client
