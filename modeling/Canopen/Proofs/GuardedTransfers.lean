import Canopen.Proofs.Guarded
import Canopen.Proofs.Operation

set_option autoImplicit false

namespace Canopen

open Sdo

abbrev GuardedTransfer (σ α : Type) := ExceptT Trap (Client.Transfer σ) α

namespace Guarded

def expeditedRequest (target : Address) (data : List UInt8) : Guarded Request := do
  let bytes ← copy 4 data.length data
  let unused ← toByte (← difference 4 data.length)
  return .initiateDownload unused true true target bytes

def segmentRequest (toggle last : Bool) (data : List UInt8) : Guarded Request := do
  let bytes ← copy 7 data.length data
  let unused ← byteDifference 7 (← toByte data.length)
  return .downloadSegment toggle unused last bytes

def segmentOfBlock (data : List UInt8) (i : Nat) (seqno : UInt8) (total : Nat) :
    Guarded BlockSegment := do
  let start := i * segmentSize
  let stop := min (start + segmentSize) data.length
  let bytes ← copy 7 (← difference stop start) (← slice data start stop)
  return { last := i + 1 = total, seqno, data := bytes }

end Guarded

namespace Client.Call

open Can (Message)
open Guarded
open Transfer (store trim)

variable {σ α : Type} (c : Call σ)

def guardedDownloadExpedited (data : List UInt8) : GuardedTransfer σ Unit := do
  match ← c.exchange (← expeditedRequest c.target data) with
  | .confirmDownload _ => modify fun s => { s with transferred := data.length }
  | r => c.unexpected r

def guardedDownloadSegments (data : List UInt8) (total i : Nat) : Nat → GuardedTransfer σ Unit
  | 0 => return
  | count + 1 => do
    let toggle := (← get).toggle
    let start := i * segmentSize
    let stop := min (start + segmentSize) data.length
    let last := i == (← difference total 1)
    let segment ← slice data start stop
    match ← c.exchange (← segmentRequest toggle last segment) with
    | .confirmDownloadSegment t => c.checkToggle t
    | r => c.unexpected r
    modify fun s => { s with transferred := s.transferred + segment.length }
    guardedDownloadSegments data total (i + 1) count

def guardedDownloadSegmented (data : List UInt8) : GuardedTransfer σ Unit := do
  modify fun s => { s with announced := some data.length }
  match ← c.exchange (.announce c.target (some (← toWord data.length))) with
  | .confirmDownload _ =>
    let total := segmentCount data
    c.guardedDownloadSegments data total 0 total
    c.checkSize
  | r => c.unexpected r

def guardedUploadSegments : Nat → GuardedTransfer σ Unit
  | 0 => throwThe Stop .unfinished
  | n + 1 => do
    match ← c.exchange (.uploadSegment (← get).toggle) with
    | .uploadSegment t unused last d =>
      c.checkToggle t
      let bytes ← slice d.toList 0 (← difference 7 unused.toNat)
      (store bytes : Transfer σ Unit)
      if last then return else guardedUploadSegments n
    | r => c.unexpected r

def guardedContinueUpload : Response → GuardedTransfer σ (List UInt8)
  | .confirmUpload unused true sized _ d => do
    modify fun s => { s with mode := .expedited }
    let length ← if sized then difference 4 unused.toNat else pure 4
    let bytes ← slice d.toList 0 length
    (store bytes : Transfer σ Unit)
    return (← get).buffer
  | .confirmUpload _ false sized _ d => do
    let size := (wordOf d).toNat
    modify fun s =>
      { s with mode := .segmented, announced := if sized then some size else s.announced }
    c.guardedUploadSegments c.patience
    c.checkSize
    return (← get).buffer
  | r => c.unexpected r

def guardedUpload : GuardedTransfer σ (List UInt8) := do
  c.guardedContinueUpload (← c.exchange (.initiateUpload c.target))

def guardedSendSegments (data : List UInt8) (start : Nat) (first last : UInt8) (total : Nat) :
    GuardedTransfer σ Unit := do
  assert (start < total)
  assert (1 ≤ first ∧ first ≤ last ∧ last ≤ 127)
  (List.range' first.toNat (last.toNat + 1 - first.toNat)).forM fun n => do
    let seqno ← toByte n
    let i ← difference (start + seqno.toNat) 1
    c.sendSegment (← segmentOfBlock data i seqno total)

def guardedDownloadBlockFrom (data : List UInt8) (start : Nat) (length : UInt8) (total : Nat) :
    (first : UInt8) → Nat → GuardedTransfer σ BlockSize
  | _, 0 => throwThe Stop .unfinished
  | first, n + 1 => do
    c.guardedSendSegments data start first length total
    let lastIndex ← difference (start + length.toNat) 1
    let last ← segmentOfBlock data lastIndex length total
    match ← c.await (c.sendSegment last) with
    | .confirmBlock seqno next =>
      if length < seqno then
        c.abandon .invalidSequenceNumber (.sequence seqno)
      else if seqno = length then
        c.checkBlockSize next
      else do
        c.note .debug
          s!"Node {c.node} acknowledged {seqno} of {length} segments, retransmitting"
        guardedDownloadBlockFrom data start length total (← byteSum seqno 1) n
    | r => c.unexpected r

/-- There are no more blocks than segments. -/
def guardedDownloadBlocks (data : List UInt8) (total : Nat) :
    (blocks start : Nat) → BlockSize → GuardedTransfer σ Unit
  | 0, start, _ => assert (total ≤ start)
  | blocks + 1, start, size =>
    if start < total then do
      let length ← toByte (min size.value.toNat (← difference total start))
      c.note .debug
        s!"Sending block of {length} segments from segment {start} to node {c.node}"
      let next ← c.guardedDownloadBlockFrom data start length total 1 c.patience
      modify fun s =>
        { s with transferred := min ((start + length.toNat) * segmentSize) data.length }
      guardedDownloadBlocks data total blocks (start + length.toNat) next
    else
      return

def guardedDownloadBlock (data : List UInt8) : GuardedTransfer σ Unit := do
  modify fun s => { s with announced := some data.length }
  match ← c.exchange
      (.initiateBlockDownload c.config.useCrc true c.target (← toWord data.length)) with
  | .confirmBlockDownload serverCrc _ blockSize =>
    let size ← c.checkBlockSize blockSize
    let total := segmentCount data
    c.guardedDownloadBlocks data total total 0 size
    let unused ← toByte (← difference (total * segmentSize) data.length)
    assert (unused ≤ 7)
    let checksum := if serverCrc && c.config.useCrc then crc data else 0
    match ← c.exchange (.endBlockDownload unused checksum) with
    | .confirmBlockDownloadEnd => c.checkSize
    | r => c.unexpected r
  | r => c.unexpected r

def guardedTakeSegment (segment : BlockSegment) : GuardedTransfer σ Bool := do
  let expected ← byteSum (← get).seqno 1
  if segment.seqno = expected then do
    c.restartDeadline
    (store segment.data.toList : Transfer σ Unit)
    modify fun s => { s with seqno := segment.seqno }
    return true
  else do
    c.note .debug
      s!"Dropping out of order segment {segment.seqno} from node {c.node}, expected {expected}"
    return false

def guardedReceiveBlocks (request : Request) (attempts : UInt32) : Nat → GuardedTransfer σ Unit
  | 0 => throwThe Stop .unfinished
  | n + 1 => do
    assert ((← get).seqno ≤ c.config.blockSize ∧ c.config.blockSize ≤ 127)
    match ← c.nextMessage with
    | none =>
      c.takeRetry attempts
      let seqno := (← get).seqno
      let request := if 0 < seqno then c.acknowledgement seqno else request
      c.send request
      guardedReceiveBlocks request (attempts + 1) n
    | some m =>
      if m.data.get 0 = 0x80 then do
        let _ ← c.readResponse m
        guardedReceiveBlocks request attempts n
      else do
        let segment ← c.readSegment m
        let inOrder ← c.guardedTakeSegment segment
        if inOrder && segment.last then
          return
        else if segment.seqno = c.config.blockSize ∨ segment.last then do
          guardedReceiveBlocks (← c.acknowledge) 1 n
        else
          guardedReceiveBlocks request 1 n

def guardedUploadBlocks (serverCrc : Bool) : GuardedTransfer σ (List UInt8) := do
  c.send .startBlockUpload
  modify fun s => { s with seqno := 0 }
  c.guardedReceiveBlocks .startBlockUpload 1 c.patience
  let acknowledgement := c.acknowledgement (← get).seqno
  match ← c.exchange acknowledgement with
  | .endBlockUpload unused expected =>
    assert (unused ≤ 7)
    (trim unused.toNat : Transfer σ Unit)
    let computed := crc (← get).buffer
    if serverCrc && c.config.useCrc && computed != expected then
      c.abandon .crcError (.crcMismatch expected computed)
    c.checkSize
    c.send .confirmBlockUploadEnd
    return (← get).buffer
  | r => c.unexpected r

def guardedUploadBlock : GuardedTransfer σ (List UInt8) := do
  let threshold ← toByte (min c.config.blockThreshold.toNat 255)
  match ← c.exchange
      (.initiateBlockUpload c.config.useCrc c.target c.config.blockSize threshold) with
  | .confirmBlockUpload serverCrc sized _ size =>
    if sized then
      modify fun s => { s with announced := some size.toNat }
    c.guardedUploadBlocks serverCrc
  | r@(.confirmUpload ..) =>
    c.note .debug s!"Node {c.node} switched to normal upload"
    c.guardedContinueUpload r
  | r => c.unexpected r

def guardedRun (mode : Mode) (work : GuardedTransfer σ α) (w : σ) :
    Guarded (Except Stop α × σ) :=
  match c.prepare mode (c.session mode (c.link.resume w)) with
  | .ok () s =>
    match work.run s with
    | .ok (.ok a) s => .ok (c.conclude (.ok a s))
    | .ok (.error trap) _ => .error trap
    | .error e s => .ok (c.conclude (.error e s))
  | .error e s => .ok (.error e, s.world)

end Client.Call

namespace Client

open Guarded

variable {σ α : Type} (client : Client σ)

def guardedTransfer (node : UInt8) (target : Address) (direction : Direction) (mode : Mode)
    (work : Call σ → GuardedTransfer σ α) (w : σ) : Guarded (Outcome σ α) :=
  match NodeId.ofByte? node with
  | none => return (.error (.failed (.invalidNodeId node)), w)
  | some node =>
    let c := client.call node target direction
    c.guardedRun mode (work c) w

def guardedUploadSegmented (node : UInt8) (target : Address) :
    σ → Guarded (Outcome σ (List UInt8)) :=
  client.guardedTransfer node target .upload .segmented Call.guardedUpload

def guardedUploadBlock (node : UInt8) (target : Address) : σ → Guarded (Outcome σ (List UInt8)) :=
  client.guardedTransfer node target .upload .block Call.guardedUploadBlock

def guardedUpload (node : UInt8) (target : Address) : σ → Guarded (Outcome σ (List UInt8)) :=
  match client.config.uploadMode with
  | .block => client.guardedUploadBlock node target
  | _ => client.guardedUploadSegmented node target

def guardedUploadNumber (node : UInt8) (target : Address) (w : σ) :
    Guarded (Outcome σ UInt32) := do
  match ← client.guardedUploadSegmented node target w with
  | (.ok data, w) =>
    if data.length ≤ 4 then
      return (.ok (wordOf (← copy 4 data.length data)), w)
    else
      return (.error (.failed (.invalidDataLength data.length)), w)
  | (.error e, w) => return (.error e, w)

def guardedDownloadExpedited (node : UInt8) (target : Address) (data : List UInt8) (w : σ) :
    Guarded (Outcome σ Unit) :=
  if 1 ≤ data.length ∧ data.length ≤ 4 then
    client.guardedTransfer node target .download .expedited (·.guardedDownloadExpedited data) w
  else return (.error (.failed (.invalidDataLength data.length)), w)

def guardedDownloadSegmented (node : UInt8) (target : Address) (data : List UInt8) (w : σ) :
    Guarded (Outcome σ Unit) :=
  if data.length < sizeLimit then
    client.guardedTransfer node target .download .segmented (·.guardedDownloadSegmented data) w
  else return (.error (.failed (.invalidDataLength data.length)), w)

def guardedDownloadBlock (node : UInt8) (target : Address) (data : List UInt8) (w : σ) :
    Guarded (Outcome σ Unit) :=
  if data.length < sizeLimit then
    client.guardedTransfer node target .download .block (·.guardedDownloadBlock data) w
  else return (.error (.failed (.invalidDataLength data.length)), w)

def guardedDownload (node : UInt8) (target : Address) (data : List UInt8) :
    σ → Guarded (Outcome σ Unit) :=
  match client.config.downloadMode data.length with
  | .expedited => client.guardedDownloadExpedited node target data
  | .segmented => client.guardedDownloadSegmented node target data
  | .block => client.guardedDownloadBlock node target data

def guardedDownloadNumber (node : UInt8) (target : Address) (value : UInt32) (size : Nat)
    (w : σ) : Guarded (Outcome σ Unit) := do
  if 1 ≤ size ∧ size ≤ 4 then
    client.guardedDownloadExpedited node target (← slice (bytesOfWord value).toList 0 size) w
  else return (.error (.failed (.invalidDataLength size)), w)

def guardedPerform (node : UInt8) (target : Address) (op : Operation) (w : σ) :
    Guarded (Outcome σ Value) :=
  match op with
  | .upload => (Outcome.map .bytes ·) <$> client.guardedUpload node target w
  | .uploadSegmented => (Outcome.map .bytes ·) <$> client.guardedUploadSegmented node target w
  | .uploadBlock => (Outcome.map .bytes ·) <$> client.guardedUploadBlock node target w
  | .uploadNumber => (Outcome.map .number ·) <$> client.guardedUploadNumber node target w
  | .download data =>
    (Outcome.map (fun _ => .done) ·) <$> client.guardedDownload node target data w
  | .downloadExpedited data =>
    (Outcome.map (fun _ => .done) ·) <$> client.guardedDownloadExpedited node target data w
  | .downloadSegmented data =>
    (Outcome.map (fun _ => .done) ·) <$> client.guardedDownloadSegmented node target data w
  | .downloadBlock data =>
    (Outcome.map (fun _ => .done) ·) <$> client.guardedDownloadBlock node target data w
  | .downloadNumber value size =>
    (Outcome.map (fun _ => .done) ·) <$> client.guardedDownloadNumber node target value size w

end Client

end Canopen
