import Canopen.Crc
import Canopen.Log
import Canopen.Reaction
import Canopen.Sdo.Frame
import Canopen.Server.Dictionary
import Canopen.Server.State

set_option autoImplicit false

namespace Canopen

open Can (Message)
open Sdo

namespace Server

/-- What a server does wrong. Segments are counted from zero. -/
structure Faults where
  silent : Bool := false
  /-- Does not see the next messages, so many of them. -/
  ignoreNext : Nat := 0
  abortWith : Option AbortCode := none
  flipDownloadToggle : Option Nat := none
  flipUploadToggle : Option Nat := none
  /-- Leaves the address zero when it acknowledges an expedited download. -/
  blankAddress : Bool := false
  announcedSize : Option UInt32 := none
  /-- Loses a block segment with this sequence number, once. -/
  loseDownloadSegment : Option UInt8 := none
  loseUploadSegment : Option Nat := none
  invertUploadByte : Option Nat := none
  invertCrc : Bool := false
  /-- Answers a block upload of a small object with a normal one. -/
  switchProtocol : Bool := false
  deriving DecidableEq, Repr

end Server

open Server (BlockDownload BlockUpload Dictionary Faults State)

structure Server where
  node : NodeId
  objects : Dictionary := {}
  state : State := .idle
  blockSize : UInt8 := 127
  crc : Bool := true
  faults : Faults := {}
  lastAbort : Option (Address × UInt32) := none
  received : Nat := 0
  deriving DecidableEq, Repr

namespace Server

abbrev Answer := Reaction Record Server

def quiet (s : Server) : Answer := { device := s }

def report (s : Server) (text : String) : Answer := { effects := [⟨.warn, text⟩], device := s }

def answer (s : Server) (r : Response) : Answer := { frames := [r.message s.node], device := s }

def refuse (s : Server) (target : Address) (code : AbortCode) : Answer :=
  { s with state := .idle }.answer (.abortWith target code)

def spoil (toggle : Bool) (segment : Nat) (fault : Option Nat) : Bool :=
  if fault = some segment then !toggle else toggle

def initiateDownload (s : Server) (unused : UInt8) (expedited sized : Bool) (target : Address)
    (data : Vector UInt8 4) : Answer :=
  if expedited then
    let object := data.toList.take (if sized then 4 - unused.toNat else 4)
    let named := if s.faults.blankAddress then ⟨0, 0⟩ else target
    { s with objects := s.objects.set target object }.answer (.confirmDownload named)
  else
    let size := if sized then some (wordOf data).toNat else none
    { s with state := .downloadSegmented target false 0 size [] }.answer (.confirmDownload target)

def announcement (s : Server) (data : List UInt8) : UInt32 :=
  s.faults.announcedSize.getD (UInt32.ofNat data.length)

/-- One to four bytes are sent at once. -/
def startUpload (s : Server) (target : Address) (data : List UInt8) : Answer :=
  if h : (1 ≤ data.length ∧ data.length ≤ 4) ∧ s.faults.announcedSize = none then
    s.answer (.expedited target data h.1.2)
  else
    { s with state := .uploadSegmented target false 0 data }.answer
      (.announce target (some (s.announcement data)))

def initiateUpload (s : Server) (target : Address) : Answer :=
  match s.objects.get? target with
  | some data => s.startUpload target data
  | none => s.refuse target .noSuchObject

def downloadSegment (s : Server) (target : Address) (expected : Bool) (segment : Nat)
    (size : Option Nat) (buffer : List UInt8) (toggle : Bool) (unused : UInt8) (last : Bool)
    (data : Vector UInt8 7) : Answer :=
  if toggle = expected then
    let buffer := buffer ++ data.toList.take (7 - unused.toNat)
    let ack := Response.confirmDownloadSegment (spoil toggle segment s.faults.flipDownloadToggle)
    if last then
      if size.all (· = buffer.length) then
        { s with objects := s.objects.set target buffer }.answer ack
      else s.refuse target .dataTypeMismatch
    else
      { s with state := .downloadSegmented target (!expected) (segment + 1) size buffer }.answer ack
  else s.refuse target .toggleNotAlternated

def uploadSegment (s : Server) (target : Address) (expected : Bool) (segment : Nat)
    (data : List UInt8) (toggle : Bool) : Answer :=
  if toggle = expected then
    let last : Bool := data.length ≤ (segment + 1) * segmentSize
    let r := Response.segment (spoil toggle segment s.faults.flipUploadToggle) last
      (segmentBytes data segment) (segmentBytes_length_le data segment)
    if last then s.answer r
    else { s with state := .uploadSegmented target (!expected) (segment + 1) data }.answer r
  else s.refuse target .toggleNotAlternated

def initiateBlockDownload (s : Server) (crc sized : Bool) (target : Address) (size : UInt32) :
    Answer :=
  let t : BlockDownload :=
    { target, size := if sized then some size.toNat else none, crc := crc && s.crc, seqno := 0
      buffer := [] }
  { s with state := .downloadBlock t }.answer (.confirmBlockDownload s.crc target s.blockSize)

/-- Takes a segment if it is the next one. The end of a block is acknowledged. -/
def blockSegment (s : Server) (t : BlockDownload) (segment : BlockSegment) : Answer :=
  if s.faults.loseDownloadSegment = some segment.seqno then
    { s with faults := { s.faults with loseDownloadSegment := none } }.quiet
  else
    let inOrder : Bool := segment.seqno.toNat = t.seqno.toNat + 1
    let t := if inOrder then
        { t with seqno := segment.seqno, buffer := t.buffer ++ segment.data.toList }
      else t
    if segment.seqno ≠ s.blockSize ∧ segment.last = false then
      { s with state := .downloadBlock t }.quiet
    else
      let r := Response.confirmBlock t.seqno s.blockSize
      if inOrder && segment.last then { s with state := .endDownloadBlock t }.answer r
      else
        let t := if t.seqno = s.blockSize then { t with seqno := 0 } else t
        { s with state := .downloadBlock t }.answer r

def endBlockDownload (s : Server) (t : BlockDownload) (unused : UInt8) (checksum : UInt16) :
    Answer :=
  let object := t.buffer.take (t.buffer.length - unused.toNat)
  if t.crc && Canopen.crc object != checksum then s.refuse t.target .crcError
  else if t.size.all (· = object.length) then
    { s with objects := s.objects.set t.target object }.answer .confirmBlockDownloadEnd
  else s.refuse t.target .dataTypeMismatch

def initiateBlockUpload (s : Server) (crc : Bool) (target : Address) (blockSize threshold : UInt8) :
    Answer :=
  match s.objects.get? target with
  | none => s.refuse target .noSuchObject
  | some data =>
    if s.faults.switchProtocol ∧ data.length ≤ threshold.toNat then s.startUpload target data
    else if blockSize = 0 ∨ 127 < blockSize then s.refuse target .invalidBlockSize
    else
      let t : BlockUpload := { target, crc := crc && s.crc, blockSize, start := 0, data }
      { s with state := .uploadBlockInitiated t }.answer
        (.announceBlocks s.crc target (some (s.announcement data)))

def blockUploadSegment (s : Server) (t : BlockUpload) (seqno : Nat) : Option Message :=
  let i := t.start + seqno - 1
  if s.faults.loseUploadSegment = some i then none
  else
    let bytes := segmentBytes t.data i
    let bytes := match s.faults.invertUploadByte with
      | some offset =>
        if i * segmentSize ≤ offset then bytes.modify (offset - i * segmentSize) (· ^^^ 0xFF)
        else bytes
      | none => bytes
    let segment : BlockSegment :=
      { last := i + 1 = segmentCount t.data, seqno := UInt8.ofNat seqno, data := padTo 7 bytes }
    some (segment.message .server s.node)

def sendBlock (s : Server) (t : BlockUpload) (first : Nat) : Answer :=
  let seqnos := List.range' first (t.length + 1 - first)
  let lost := seqnos.any fun n => s.faults.loseUploadSegment = some (t.start + n - 1)
  let faults := if lost then { s.faults with loseUploadSegment := none } else s.faults
  { frames := seqnos.filterMap (s.blockUploadSegment t)
    device := { s with state := .uploadBlock t, faults } }

def confirmBlock (s : Server) (t : BlockUpload) (seqno blockSize : UInt8) : Answer :=
  if t.length < seqno.toNat then s.refuse t.target .invalidSequenceNumber
  else if seqno.toNat < t.length then s.sendBlock t (seqno.toNat + 1)
  else if blockSize = 0 ∨ 127 < blockSize then s.refuse t.target .invalidBlockSize
  else
    let t := { t with start := t.start + t.length, blockSize }
    if t.start < segmentCount t.data then s.sendBlock t 1
    else
      let unused := segmentCount t.data * segmentSize - t.data.length
      let checksum := if t.crc then Canopen.crc t.data else 0
      let checksum := if s.faults.invertCrc then checksum ^^^ 0xFFFF else checksum
      { s with state := .endUploadBlock }.answer (.endBlockUpload (UInt8.ofNat unused) checksum)

def initiated? : Request → Option Address
  | .initiateDownload _ _ _ target _ | .initiateUpload target
  | .initiateBlockDownload _ _ target _ | .initiateBlockUpload _ target _ _ => some target
  | _ => none

/-- A request starts a transfer anew or goes on with the one under way; any other ends it. -/
def proceed (s : Server) (r : Request) : Answer :=
  let before := s.state
  let s := { s with state := .idle }
  match before, r with
  | _, .initiateDownload unused expedited sized target data =>
    s.initiateDownload unused expedited sized target data
  | _, .initiateUpload target => s.initiateUpload target
  | _, .initiateBlockDownload crc sized target size => s.initiateBlockDownload crc sized target size
  | _, .initiateBlockUpload crc target blockSize threshold =>
    s.initiateBlockUpload crc target blockSize threshold
  | .downloadSegmented target expected segment size buffer,
      .downloadSegment toggle unused last data =>
    s.downloadSegment target expected segment size buffer toggle unused last data
  | .uploadSegmented target expected segment data, .uploadSegment toggle =>
    s.uploadSegment target expected segment data toggle
  | .endDownloadBlock t, .endBlockDownload unused checksum => s.endBlockDownload t unused checksum
  | .uploadBlockInitiated t, .startBlockUpload => s.sendBlock t 1
  | .uploadBlock t, .startBlockUpload => s.sendBlock t 1
  | .uploadBlock t, .confirmBlock seqno blockSize => s.confirmBlock t seqno blockSize
  | .endUploadBlock, .confirmBlockUploadEnd => s.quiet
  | before, r =>
    let text := s!"Unexpected request {r.outline} in state {before.outline}"
    { s.refuse ⟨0, 0⟩ .invalidCommandSpecifier with effects := [⟨.warn, text⟩] }

def request (s : Server) : Request → Answer
  | .abort target code => { s with lastAbort := some (target, code), state := .idle }.quiet
  | r =>
    match s.faults.abortWith, initiated? r with
    | some code, some target => s.refuse target code
    | _, _ => s.proceed r

def readRequest (s : Server) (m : Message) : Answer :=
  match Request.ofMessage m with
  | .ok r => s.request r
  | .error e => s.report s!"Bad SDO request: {e}"

def readSegment (s : Server) (t : BlockDownload) (m : Message) : Answer :=
  match BlockSegment.ofMessage m with
  | .ok segment => s.blockSegment t segment
  | .error e => s.report s!"Bad block segment: {e}"

/-- While a block is received, all but an abort is a segment of it. -/
def read (s : Server) (m : Message) : Answer :=
  match s.state with
  | .downloadBlock t => if m.data.get 0 = 0x80 then s.readRequest m else s.readSegment t m
  | _ => s.readRequest m

def handle (m : Message) (s : Server) : Answer :=
  if m.id = s.node.requestId then
    let s := { s with received := s.received + 1 }
    if s.faults.silent then s.quiet
    else if 0 < s.faults.ignoreNext then
      { s with faults := { s.faults with ignoreNext := s.faults.ignoreNext - 1 } }.quiet
    else s.read m
  else s.quiet

def isIdle (s : Server) : Bool := s.state == .idle

end Server

end Canopen
