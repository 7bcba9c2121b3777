import Canopen.Client.Segmented
import Canopen.Crc

/-!
Block transfers. The segments of a block are numbered from one. Who receives them acknowledges
a block with the number of the last segment that came in order; who sends them goes on behind
that one.
-/

set_option autoImplicit false

namespace Canopen.Client

open Can (Message)
open Sdo (BlockSegment Request Response segmentBytes segmentCount segmentSize)
open Transfer (store trim)

@[ext] structure BlockSize where
  value : UInt8
  pos : 0 < value.toNat
  le : value.toNat ≤ 127
  deriving Repr

instance : DecidableEq BlockSize := fun a b =>
  decidable_of_iff (a.value = b.value) BlockSize.ext_iff.symm

def BlockSize.ofByte? (value : UInt8) : Option BlockSize :=
  if h : 0 < value.toNat ∧ value.toNat ≤ 127 then some ⟨value, h.1, h.2⟩ else none

def blockSegment (data : List UInt8) (i : Nat) (seqno : UInt8) : BlockSegment :=
  { last := i + 1 = segmentCount data, seqno, data := padTo 7 (segmentBytes data i) }

namespace Call

variable {σ : Type} (c : Call σ)

def checkBlockSize (value : UInt8) : Transfer σ BlockSize :=
  match BlockSize.ofByte? value with
  | some b => return b
  | none => c.abandon .invalidBlockSize (.invalidBlockSize value)

/-- Sends the segment with sequence number `seqno` of the block that begins at segment
`start`. -/
def sendBlockSegment (data : List UInt8) (start seqno : Nat) : Transfer σ Unit :=
  c.sendSegment (blockSegment data (start + seqno - 1) (UInt8.ofNat seqno))

/-- Sends a block of `length` segments from sequence number `first` on, until all of it is
acknowledged. Gives the size asked for the next block. When the acknowledgement is lost, the
last segment is sent again to prompt another. -/
def downloadBlockFrom (data : List UInt8) (start length : Nat) :
    (first : Nat) → Nat → Transfer σ BlockSize
  | _, 0 => throw .unfinished
  | first, n + 1 => do
    (List.range' first (length + 1 - first)).forM (c.sendBlockSegment data start)
    match ← c.await (c.sendBlockSegment data start length) with
    | .confirmBlock seqno next =>
      if length < seqno.toNat then
        c.abandon .invalidSequenceNumber (.sequence seqno)
      else if seqno.toNat = length then
        c.checkBlockSize next
      else
        c.note .debug
          s!"Node {c.node} acknowledged {seqno} of {length} segments, retransmitting"
        downloadBlockFrom data start length (seqno.toNat + 1) n
    | r => c.unexpected r

def downloadBlocks (data : List UInt8) (start : Nat) (size : BlockSize) : Transfer σ Unit :=
  if start < segmentCount data then do
    let length := min size.value.toNat (segmentCount data - start)
    c.note .debug
      s!"Sending block of {length} segments from segment {start} to node {c.node}"
    let next ← c.downloadBlockFrom data start length 1 c.patience
    modify fun s => { s with transferred := min ((start + length) * segmentSize) data.length }
    downloadBlocks data (start + length) next
  else
    return
termination_by segmentCount data - start
decreasing_by
  have := size.pos
  omega

def downloadBlock (data : List UInt8) : Transfer σ Unit := do
  modify fun s => { s with announced := some data.length }
  match ← c.exchange
      (.initiateBlockDownload c.config.useCrc true c.target (UInt32.ofNat data.length)) with
  | .confirmBlockDownload serverCrc _ blockSize =>
    c.downloadBlocks data 0 (← c.checkBlockSize blockSize)
    let unused := segmentCount data * segmentSize - data.length
    let checksum := if serverCrc && c.config.useCrc then crc data else 0
    match ← c.exchange (.endBlockDownload (UInt8.ofNat unused) checksum) with
    | .confirmBlockDownloadEnd => c.checkSize
    | r => c.unexpected r
  | r => c.unexpected r

/-- Says what has come in order of a block, and how long the next one may be. -/
def acknowledgement (seqno : UInt8) : Request := .confirmBlock seqno c.config.blockSize

/-- Reads a message as a segment of a block, which has a number up to the size of the block. -/
def readSegment (m : Message) : Transfer σ BlockSegment := do
  match BlockSegment.ofMessage m with
  | .error e => c.malformed e
  | .ok segment =>
    if segment.seqno = 0 ∨ c.config.blockSize < segment.seqno then
      c.abandon .invalidSequenceNumber (.sequence segment.seqno)
    else
      return segment

/-- Takes a segment if it is the next one of the block, and tells whether it was. As a block
comes without further requests, each such segment gives the server its time anew. -/
def takeSegment (segment : BlockSegment) : Transfer σ Bool := do
  let expected := (← get).seqno.toNat + 1
  if segment.seqno.toNat = expected then
    c.restartDeadline
    store segment.data.toList
    modify fun s => { s with seqno := segment.seqno }
    return true
  else
    c.note .debug
      s!"Dropping out of order segment {segment.seqno} from node {c.node}, expected {expected}"
    return false

/-- Acknowledges what has come of a block. When that was all of it, the next one begins. Gives
the request that was sent. -/
def acknowledge : Transfer σ Request := do
  let seqno := (← get).seqno
  c.note .debug s!"Acknowledging {seqno} segments from node {c.node}"
  c.send (c.acknowledgement seqno)
  if seqno = c.config.blockSize then
    modify fun s => { s with seqno := 0 }
  return c.acknowledgement seqno

/-- Receives segments until the last one has come in order. When the deadline passes, `request`
is sent again, or the server is told what has come of the block. -/
def receiveBlocks (request : Request) (attempts : UInt32) : Nat → Transfer σ Unit
  | 0 => throw .unfinished
  | n + 1 => do
    match ← c.nextMessage with
    | none =>
      c.takeRetry attempts
      let seqno := (← get).seqno
      let request := if 0 < seqno then c.acknowledgement seqno else request
      c.send request
      receiveBlocks request (attempts + 1) n
    | some m =>
      -- No segment has the number zero, so the command of an abort is never taken for one.
      if m.data.get 0 = 0x80 then
        let _ ← c.readResponse m
        receiveBlocks request attempts n
      else
        let segment ← c.readSegment m
        let inOrder ← c.takeSegment segment
        if inOrder && segment.last then
          return
        else if segment.seqno = c.config.blockSize ∨ segment.last then
          receiveBlocks (← c.acknowledge) 1 n
        else
          receiveBlocks request 1 n

def uploadBlocks (serverCrc : Bool) : Transfer σ (List UInt8) := do
  c.send .startBlockUpload
  modify fun s => { s with seqno := 0 }
  c.receiveBlocks .startBlockUpload 1 c.patience
  let acknowledgement := c.acknowledgement (← get).seqno
  match ← c.exchange acknowledgement with
  | .endBlockUpload unused expected =>
    trim unused.toNat
    let computed := crc (← get).buffer
    if serverCrc && c.config.useCrc && computed != expected then
      c.abandon .crcError (.crcMismatch expected computed)
    c.checkSize
    c.send .confirmBlockUploadEnd
    return (← get).buffer
  | r => c.unexpected r

/-- The largest size that a server may answer with a normal upload fits one byte. -/
def threshold : UInt8 := UInt8.ofNat (min c.config.blockThreshold.toNat 255)

def uploadBlock : Transfer σ (List UInt8) := do
  match ← c.exchange
      (.initiateBlockUpload c.config.useCrc c.target c.config.blockSize c.threshold) with
  | .confirmBlockUpload serverCrc sized _ size =>
    if sized then
      modify fun s => { s with announced := some size.toNat }
    c.uploadBlocks serverCrc
  | r@(.confirmUpload ..) =>
    c.note .debug s!"Node {c.node} switched to normal upload"
    c.continueUpload r
  | r => c.unexpected r

end Call

end Canopen.Client
