import Canopen.Sdo.Frame

set_option autoImplicit false

namespace Canopen.Client

inductive Error where
  | transport (cause : Can.TransportError)
  /-- The request that stayed unanswered was sent so many times. -/
  | timeout (attempts : UInt32)
  | serverAbort (target : Sdo.Address) (reason : Sdo.AbortReason)
  | toggleMismatch
  | sequence (seqno : UInt8)
  | crcMismatch (expected computed : UInt16)
  | malformed (cause : Sdo.ParseError)
  | unexpectedResponse
  | sizeMismatch (expected actual : Nat)
  | invalidBlockSize (value : UInt8)
  | cancelled
  | invalidNodeId (value : UInt8)
  | invalidDataLength (length : Nat)
  deriving DecidableEq, Repr

def Error.message : Error → String
  | .transport e => "Transport error: " ++ e.message
  | .timeout n => s!"No response from server after {n} attempts"
  | .serverAbort a r => s!"Server aborted transfer of {a}: {r}"
  | .toggleMismatch => "Toggle bit not alternated"
  | .sequence n => s!"Invalid sequence number {n}"
  | .crcMismatch e c =>
    s!"CRC mismatch: expected 0x{upperHex 4 e.toNat}, computed 0x{upperHex 4 c.toNat}"
  | .malformed e => "Malformed response: " ++ e.message
  | .unexpectedResponse => "Unexpected SDO response"
  | .sizeMismatch e a => s!"Size mismatch: expected {e} bytes, got {a}"
  | .invalidBlockSize v => s!"Invalid block size {v}"
  | .cancelled => "Transfer cancelled"
  | .invalidNodeId v => NodeId.rejection v
  | .invalidDataLength n => s!"Invalid data length {n}"

instance : ToString Error := ⟨Error.message⟩

end Canopen.Client
