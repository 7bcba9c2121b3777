import Canopen.Client.Config
import Canopen.Client.Error
import Canopen.Client.Link

/-!
One transfer: its state, and the exchange of requests and responses that all ways of
transferring share.

A transfer works on a link to some world. What the world does is left open, so a wait need not
end: each loop that depends on the world has only so much patience, and a transfer that used
it up is `unfinished`. More patience never changes how a finished transfer ended.
-/

set_option autoImplicit false

namespace Canopen.Client

open Can (Message TransportError)
open Sdo (Address AbortCode AbortReason BlockSegment ParseError Request Response)

inductive Direction where
  | upload | download
  deriving DecidableEq, Repr

def Direction.label : Direction → String
  | .upload => "Upload"
  | .download => "Download"

instance : ToString Direction := ⟨Direction.label⟩

inductive Mode where
  | expedited
  | segmented
  | block
  deriving DecidableEq, Repr

def Mode.label : Mode → String
  | .expedited => "Expedited"
  | .segmented => "Segmented"
  | .block => "Block"

instance : ToString Mode := ⟨Mode.label⟩

inductive Stop where
  | failed (error : Error)
  | unfinished
  deriving DecidableEq, Repr

structure Session (σ : Type) where
  world : σ
  mode : Mode
  toggle : Bool := false
  /-- The last sequence number received in order in the block under way. -/
  seqno : UInt8 := 0
  transferred : Nat := 0
  announced : Option Nat := none
  buffer : List UInt8 := []
  /-- How often a request may still be sent again. -/
  retries : Nat
  deadline : Nat

abbrev Transfer (σ α : Type) := EStateM Stop (Session σ) α

namespace Transfer

variable {σ α : Type}

def fail (e : Error) : Transfer σ α := throw (.failed e)

def act (f : σ → α × σ) : Transfer σ α :=
  modifyGet fun s => let (a, w) := f s.world; (a, { s with world := w })

def store (bytes : List UInt8) : Transfer σ Unit :=
  modify fun s =>
    { s with buffer := s.buffer ++ bytes, transferred := s.transferred + bytes.length }

def trim (unused : Nat) : Transfer σ Unit :=
  modify fun s =>
    let buffer := s.buffer.take (s.buffer.length - unused)
    { s with buffer, transferred := buffer.length }

end Transfer

structure Call (σ : Type) where
  link : Link σ
  config : Config
  node : NodeId
  target : Address
  direction : Direction
  patience : Nat

namespace Call

open Transfer (act fail)

variable {σ α : Type} (c : Call σ)

def note (level : Level) (text : String) : Transfer σ Unit :=
  act fun w => ((), c.link.note ⟨level, text⟩ w)

def restartDeadline : Transfer σ Unit :=
  modify fun s => { s with deadline := c.link.now s.world + c.config.timeout }

def overdue : Transfer σ Bool := do
  let s ← get
  return s.deadline ≤ c.link.now s.world

/-- Each message sent gives the other side its time anew. -/
def trySend (m : Message) : Transfer σ (Except TransportError Unit) := do
  c.note .trace s!"SDO tx: {m}"
  let sent ← act (c.link.send m)
  if sent.isOk then c.restartDeadline
  return sent

def sendMessage (m : Message) : Transfer σ Unit := do
  match ← c.trySend m with
  | .ok () => return
  | .error e => fail (.transport e)

def send (r : Request) : Transfer σ Unit := c.sendMessage (r.message c.node)

def sendSegment (s : BlockSegment) : Transfer σ Unit :=
  c.sendMessage (s.message .client c.node)

def receive : Transfer σ (Option Message) := do
  match ← act c.link.receive with
  | .ok m => return m
  | .error e => fail (.transport e)

/-- Tells the server that the transfer ends. When that fails too, the first failure counts. -/
def abort (code : AbortCode) : Transfer σ Unit := do
  c.note .warn s!"Aborting transfer of {c.target} on node {c.node}: {code}"
  match ← c.trySend ((Request.abortWith c.target code).message c.node) with
  | .ok () => return
  | .error e => c.note .warn s!"Failed to send abort: {Error.transport e}"

def abandon (code : AbortCode) (e : Error) : Transfer σ α := do
  c.abort code
  fail e

def cancel : Transfer σ α := do
  c.note .debug "Transfer cancelled"
  c.abandon .generalError .cancelled

def unexpected (r : Response) : Transfer σ α := do
  c.note .warn s!"Unexpected SDO response from node {c.node}: {r.outline}"
  c.abandon .invalidCommandSpecifier .unexpectedResponse

def malformedCode : ParseError → AbortCode
  | .unknownCommandSpecifier _ => .invalidCommandSpecifier
  | _ => .generalError

def malformed (e : ParseError) : Transfer σ α := do
  c.note .warn s!"Malformed SDO response from node {c.node}: {e}"
  c.abandon (malformedCode e) (.malformed e)

def flush : Nat → Transfer σ Unit
  | 0 => throw .unfinished
  | n + 1 => do
    match ← c.receive with
    | some _ => flush n
    | none => return

/-- The next message of the server, or none when the deadline passes. Messages with other IDs
are dropped. -/
def poll : Nat → Transfer σ (Option Message)
  | 0 => throw .unfinished
  | n + 1 => do
    if c.link.cancelled (← get).world then
      c.cancel
    else
      match ← c.receive with
      | some m =>
        if m.id = c.node.responseId then
          c.note .trace s!"SDO rx: {m}"
          return some m
        else
          c.note .trace s!"Ignoring {m}"
          if ← c.overdue then return none else poll n
      | none =>
        if ← c.overdue then
          return none
        else
          act fun w => ((), c.link.sleep c.config.pollInterval w)
          poll n

def nextMessage : Transfer σ (Option Message) := c.poll c.patience

def readResponse (m : Message) : Transfer σ Response := do
  match Response.ofMessage m with
  | .error e => c.malformed e
  | .ok (.abort target code) =>
    let reason := AbortReason.ofCode code
    c.note .debug s!"Node {c.node} aborted transfer of {target}: {reason}"
    fail (.serverAbort target reason)
  | .ok r => return r

def nextResponse : Transfer σ (Option Response) := do
  match ← c.nextMessage with
  | some m => some <$> c.readResponse m
  | none => return none

/-- Takes one of the retries of the transfer, or ends it when there is none left. -/
def takeRetry (attempts : UInt32) : Transfer σ Unit := do
  match (← get).retries with
  | 0 =>
    c.note .warn s!"Timeout waiting for node {c.node} on {c.target} after {attempts} attempts"
    fail (.timeout attempts)
  | left + 1 =>
    modify fun s => { s with retries := left }
    c.note .warn s!"No response from node {c.node}, retrying ({left} retries left)"

/-- Waits for a response and asks again whenever the deadline passes. There are at most as many
rounds as there are retries left, and one more. -/
def awaitRounds (resend : Transfer σ Unit) (attempts : UInt32) : Nat → Transfer σ Response
  | 0 => throw .unfinished
  | rounds + 1 => do
    match ← c.nextResponse with
    | some r => return r
    | none =>
      c.takeRetry attempts
      resend
      awaitRounds resend (attempts + 1) rounds

def await (resend : Transfer σ Unit) : Transfer σ Response := do
  c.awaitRounds resend 1 ((← get).retries + 1)

def exchange (r : Request) : Transfer σ Response := do
  c.send r
  c.await (c.send r)

def checkToggle (toggle : Bool) : Transfer σ Unit := do
  if toggle = (← get).toggle then
    modify fun s => { s with toggle := !s.toggle }
  else
    c.abandon .toggleNotAlternated .toggleMismatch

/-- What was transferred has to be as long as announced. An announced size of zero says
nothing. -/
def checkSize : Transfer σ Unit := do
  let s ← get
  match s.announced with
  | none | some 0 => return
  | some n =>
    if n ≠ s.transferred then
      c.abandon .dataTypeMismatch (.sizeMismatch n s.transferred)

def session (mode : Mode) (w : σ) : Session σ :=
  { world := w, mode, retries := c.config.retries.toNat
    deadline := c.link.now w + c.config.timeout }

def prepare (mode : Mode) : Transfer σ Unit := do
  c.note .debug s!"Starting {c.direction} of {c.target} on node {c.node} ({mode})"
  c.flush c.patience

def conclude : EStateM.Result Stop (Session σ) α → Except Stop α × σ
  | .ok a s =>
    let text := s!"{c.direction} of {c.target} on node {c.node} complete, "
      ++ s!"{s.transferred} bytes ({s.mode})"
    (.ok a, c.link.note ⟨.debug, text⟩ s.world)
  | .error (.failed e) s =>
    let text := s!"{c.direction} of {c.target} on node {c.node} failed: {e}"
    (.error (.failed e), c.link.note ⟨.debug, text⟩ s.world)
  | .error .unfinished s => (.error .unfinished, s.world)

def run (mode : Mode) (work : Transfer σ α) (w : σ) : Except Stop α × σ :=
  match c.prepare mode (c.session mode (c.link.resume w)) with
  | .ok () s => c.conclude (work s)
  | .error e s => (.error e, s.world)

end Call

end Canopen.Client
