import Canopen.Proofs.GuardedFrames
import Canopen.Server

set_option autoImplicit false

namespace Canopen

open Can (Message)
open Guarded
open Sdo

namespace Server

variable (limit : Nat)

def guardedAnswer (s : Server) (r : Response) : Guarded Answer := do
  return { frames := [← r.guardedMessage s.node], device := s }

def guardedRefuse (s : Server) (target : Address) (code : AbortCode) : Guarded Answer :=
  { s with state := .idle }.guardedAnswer (.abortWith target code)

def guardedInitiateDownload (s : Server) (unused : UInt8) (expedited sized : Bool)
    (target : Address) (data : Vector UInt8 4) : Guarded Answer := do
  if expedited then
    let length ← if sized then difference 4 unused.toNat else pure 4
    let object ← slice data.toList 0 length
    let named := if s.faults.blankAddress then ⟨0, 0⟩ else target
    { s with objects := s.objects.set target object }.guardedAnswer (.confirmDownload named)
  else
    let size := if sized then some (wordOf data).toNat else none
    { s with state := .downloadSegmented target false 0 size [] }.guardedAnswer
      (.confirmDownload target)

/-- The size is announced in four bytes, which are enough for it when the limit is `2 ^ 32`. -/
def guardedAnnouncement (s : Server) (data : List UInt8) : Guarded UInt32 := do
  return s.faults.announcedSize.getD (UInt32.ofNat (← below limit data.length))

def guardedStartUpload (s : Server) (target : Address) (data : List UInt8) : Guarded Answer := do
  if (1 ≤ data.length ∧ data.length ≤ 4) ∧ s.faults.announcedSize = none then
    s.guardedAnswer (← Response.guardedExpedited target data)
  else
    let size ← s.guardedAnnouncement limit data
    { s with state := .uploadSegmented target false 0 data }.guardedAnswer
      (.announce target (some size))

def guardedInitiateUpload (s : Server) (target : Address) : Guarded Answer :=
  match s.objects.get? target with
  | some data => s.guardedStartUpload limit target data
  | none => s.guardedRefuse target .noSuchObject

def guardedDownloadSegment (s : Server) (target : Address) (expected : Bool) (segment : Nat)
    (size : Option Nat) (buffer : List UInt8) (toggle : Bool) (unused : UInt8) (last : Bool)
    (data : Vector UInt8 7) : Guarded Answer := do
  if toggle = expected then
    let bytes ← slice data.toList 0 (← difference 7 unused.toNat)
    let buffer := buffer ++ bytes
    let ack := Response.confirmDownloadSegment (spoil toggle segment s.faults.flipDownloadToggle)
    if last then
      if size.all (· = buffer.length) then
        ({ s with objects := s.objects.set target buffer } : Server).guardedAnswer ack
      else s.guardedRefuse target .dataTypeMismatch
    else
      let next ← sum limit segment 1
      { s with state := .downloadSegmented target (!expected) next size buffer }.guardedAnswer ack
  else s.guardedRefuse target .toggleNotAlternated

/-- All segments but the last are full, so that the next one begins where this one ends. -/
def guardedUploadSegment (s : Server) (target : Address) (expected : Bool) (segment : Nat)
    (data : List UInt8) (toggle : Bool) : Guarded Answer := do
  if toggle = expected then
    let start ← product limit segment segmentSize
    let stop := min (← sum limit start segmentSize) data.length
    let last : Bool := stop = data.length
    let r ← Response.guardedSegment (spoil toggle segment s.faults.flipUploadToggle) last
      (← slice data start stop)
    if last then s.guardedAnswer r
    else
      let next ← sum limit segment 1
      assert (stop = next * segmentSize)
      { s with state := .uploadSegmented target (!expected) next data }.guardedAnswer r
  else s.guardedRefuse target .toggleNotAlternated

def guardedInitiateBlockDownload (s : Server) (crc sized : Bool) (target : Address)
    (size : UInt32) : Guarded Answer :=
  let t : BlockDownload :=
    { target, size := if sized then some size.toNat else none, crc := crc && s.crc, seqno := 0
      buffer := [] }
  { s with state := .downloadBlock t }.guardedAnswer
    (.confirmBlockDownload s.crc target s.blockSize)

def guardedBlockSegment (s : Server) (t : BlockDownload) (segment : BlockSegment) :
    Guarded Answer := do
  if s.faults.loseDownloadSegment = some segment.seqno then
    return { s with faults := { s.faults with loseDownloadSegment := none } }.quiet
  else
    let inOrder : Bool := segment.seqno = (← byteSum t.seqno 1)
    let t := if inOrder then
        { t with seqno := segment.seqno, buffer := t.buffer ++ segment.data.toList }
      else t
    if segment.seqno ≠ s.blockSize ∧ segment.last = false then
      return { s with state := .downloadBlock t }.quiet
    else
      let r := Response.confirmBlock t.seqno s.blockSize
      if inOrder && segment.last then
        ({ s with state := .endDownloadBlock t } : Server).guardedAnswer r
      else
        let t := if t.seqno = s.blockSize then { t with seqno := 0 } else t
        { s with state := .downloadBlock t }.guardedAnswer r

def guardedEndBlockDownload (s : Server) (t : BlockDownload) (unused : UInt8)
    (checksum : UInt16) : Guarded Answer :=
  let object := t.buffer.take (t.buffer.length - unused.toNat)
  if t.crc && Canopen.crc object != checksum then s.guardedRefuse t.target .crcError
  else if t.size.all (· = object.length) then
    { s with objects := s.objects.set t.target object }.guardedAnswer .confirmBlockDownloadEnd
  else s.guardedRefuse t.target .dataTypeMismatch

def guardedInitiateBlockUpload (s : Server) (crc : Bool) (target : Address)
    (blockSize threshold : UInt8) : Guarded Answer :=
  match s.objects.get? target with
  | none => s.guardedRefuse target .noSuchObject
  | some data => do
    if s.faults.switchProtocol ∧ data.length ≤ threshold.toNat then
      s.guardedStartUpload limit target data
    else if blockSize = 0 ∨ 127 < blockSize then s.guardedRefuse target .invalidBlockSize
    else
      let size ← s.guardedAnnouncement limit data
      let t : BlockUpload := { target, crc := crc && s.crc, blockSize, start := 0, data }
      { s with state := .uploadBlockInitiated t }.guardedAnswer
        (.announceBlocks s.crc target (some size))

def BlockUpload.guardedLength (t : BlockUpload) : Guarded UInt8 := do
  toByte (min t.blockSize.toNat (← difference (segmentCount t.data) t.start))

def guardedInvert (fault : Option Nat) (start stop : Nat) (bytes : List UInt8) :
    Guarded (List UInt8) :=
  match fault with
  | some offset =>
    if start ≤ offset ∧ offset < stop then do invert bytes (← difference offset start)
    else return bytes
  | none => return bytes

def guardedBlockUploadSegment (s : Server) (t : BlockUpload) (seqno : Nat) :
    Guarded (Option Message) := do
  let i ← difference (← sum limit t.start seqno) 1
  if s.faults.loseUploadSegment = some i then return none
  else
    let start ← product limit i segmentSize
    let stop := min (← sum limit start segmentSize) t.data.length
    let bytes ← slice t.data start stop
    let bytes ← guardedInvert s.faults.invertUploadByte start stop bytes
    let data ← copy 7 (← difference stop start) bytes
    let last : Bool := (← sum limit i 1) = segmentCount t.data
    let segment : BlockSegment := { last, seqno := ← toByte seqno, data }
    return some (← segment.guardedMessage s.node)

def guardedSendBlock (s : Server) (t : BlockUpload) (first : UInt8) : Guarded Answer := do
  let length ← t.guardedLength
  let seqnos := List.range' first.toNat (length.toNat + 1 - first.toNat)
  let frames ← seqnos.filterMapM (s.guardedBlockUploadSegment limit t)
  let lost := seqnos.any fun n => s.faults.loseUploadSegment = some (t.start + n - 1)
  let faults := if lost then { s.faults with loseUploadSegment := none } else s.faults
  return { frames, device := { s with state := .uploadBlock t, faults } }

def guardedConfirmBlock (s : Server) (t : BlockUpload) (seqno blockSize : UInt8) :
    Guarded Answer := do
  let length ← t.guardedLength
  if length < seqno then s.guardedRefuse t.target .invalidSequenceNumber
  else if seqno < length then s.guardedSendBlock limit t (← byteSum seqno 1)
  else if blockSize = 0 ∨ 127 < blockSize then s.guardedRefuse t.target .invalidBlockSize
  else
    let t := { t with start := ← sum limit t.start length.toNat, blockSize }
    let total := segmentCount t.data
    if t.start < total then s.guardedSendBlock limit t 1
    else
      let unused ← toByte (← difference (← product limit total segmentSize) t.data.length)
      let checksum := if t.crc then Canopen.crc t.data else 0
      let checksum := if s.faults.invertCrc then checksum ^^^ 0xFFFF else checksum
      { s with state := .endUploadBlock }.guardedAnswer (.endBlockUpload unused checksum)

def guardedProceed (s : Server) (r : Request) : Guarded Answer :=
  let before := s.state
  let s := { s with state := .idle }
  match before, r with
  | _, .initiateDownload unused expedited sized target data =>
    s.guardedInitiateDownload unused expedited sized target data
  | _, .initiateUpload target => s.guardedInitiateUpload limit target
  | _, .initiateBlockDownload crc sized target size =>
    s.guardedInitiateBlockDownload crc sized target size
  | _, .initiateBlockUpload crc target blockSize threshold =>
    s.guardedInitiateBlockUpload limit crc target blockSize threshold
  | .downloadSegmented target expected segment size buffer,
      .downloadSegment toggle unused last data =>
    s.guardedDownloadSegment limit target expected segment size buffer toggle unused last data
  | .uploadSegmented target expected segment data, .uploadSegment toggle =>
    s.guardedUploadSegment limit target expected segment data toggle
  | .endDownloadBlock t, .endBlockDownload unused checksum =>
    s.guardedEndBlockDownload t unused checksum
  | .uploadBlockInitiated t, .startBlockUpload => s.guardedSendBlock limit t 1
  | .uploadBlock t, .startBlockUpload => s.guardedSendBlock limit t 1
  | .uploadBlock t, .confirmBlock seqno blockSize => s.guardedConfirmBlock limit t seqno blockSize
  | .endUploadBlock, .confirmBlockUploadEnd => return s.quiet
  | before, r => do
    let text := s!"Unexpected request {r.outline} in state {before.outline}"
    return { ← s.guardedRefuse ⟨0, 0⟩ .invalidCommandSpecifier with effects := [⟨.warn, text⟩] }

def guardedRequest (s : Server) : Request → Guarded Answer
  | .abort target code => return { s with lastAbort := some (target, code), state := .idle }.quiet
  | r =>
    match s.faults.abortWith, initiated? r with
    | some code, some target => s.guardedRefuse target code
    | _, _ => s.guardedProceed limit r

def guardedReadRequest (s : Server) (m : Message) : Guarded Answer := do
  match ← Request.guardedOfMessage m with
  | .ok r => s.guardedRequest limit r
  | .error e => return s.report s!"Bad SDO request: {e}"

def guardedReadSegment (s : Server) (t : BlockDownload) (m : Message) : Guarded Answer := do
  match ← BlockSegment.guardedOfMessage m with
  | .ok segment => s.guardedBlockSegment t segment
  | .error e => return s.report s!"Bad block segment: {e}"

def guardedRead (s : Server) (m : Message) : Guarded Answer :=
  match s.state with
  | .downloadBlock t =>
    if m.data.get 0 = 0x80 then s.guardedReadRequest limit m else s.guardedReadSegment t m
  | _ => s.guardedReadRequest limit m

/-- What comes of a message, or the trap that the server runs into. -/
def guardedHandle (m : Message) (s : Server) : Guarded Answer := do
  if m.id = s.node.requestId then
    let s := { s with received := ← sum limit s.received 1 }
    if s.faults.silent then return s.quiet
    else if 0 < s.faults.ignoreNext then
      let ignoreNext ← difference s.faults.ignoreNext 1
      return { s with faults := { s.faults with ignoreNext } }.quiet
    else s.guardedRead limit m
  else return s.quiet

end Server

end Canopen
