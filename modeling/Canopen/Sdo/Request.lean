import Canopen.Sdo.Abort
import Canopen.Sdo.Address
import Canopen.Sdo.Command
import Canopen.Text.Outline

set_option autoImplicit false

namespace Canopen.Sdo

inductive Request where
  /-- Starts a download. The four bytes are the value of an expedited one, else the size. -/
  | initiateDownload (unused : UInt8) (expedited sized : Bool) (target : Address)
      (data : Vector UInt8 4)
  | downloadSegment (toggle : Bool) (unused : UInt8) (last : Bool) (data : Vector UInt8 7)
  | initiateUpload (target : Address)
  | uploadSegment (toggle : Bool)
  | initiateBlockDownload (crc sized : Bool) (target : Address) (size : UInt32)
  | endBlockDownload (unused : UInt8) (crc : UInt16)
  /-- A server may answer with a normal upload up to the threshold; zero forbids it. -/
  | initiateBlockUpload (crc : Bool) (target : Address) (blockSize threshold : UInt8)
  | startBlockUpload
  /-- Acknowledges the segments of a block up to `seqno` and sets the size of the next one. -/
  | confirmBlock (seqno blockSize : UInt8)
  | confirmBlockUploadEnd
  | abort (target : Address) (code : UInt32)
  deriving DecidableEq, Repr

namespace Request

def expedited (target : Address) (data : List UInt8) (_fits : data.length ≤ 4) : Request :=
  .initiateDownload (UInt8.ofNat (4 - data.length)) true true target (padTo 4 data)

def announce (target : Address) (size : Option UInt32) : Request :=
  .initiateDownload 0 false size.isSome target (bytesOfWord (size.getD 0))

def segment (toggle last : Bool) (data : List UInt8) (_fits : data.length ≤ 7) : Request :=
  .downloadSegment toggle (UInt8.ofNat (7 - data.length)) last (padTo 7 data)

def expedited? (target : Address) (data : List UInt8) : Option Request :=
  if h : data.length ≤ 4 then some (expedited target data h) else none

def segment? (toggle last : Bool) (data : List UInt8) : Option Request :=
  if h : data.length ≤ 7 then some (segment toggle last data h) else none

def abortWith (target : Address) (code : AbortCode) : Request := .abort target code.code

def transferType : Request → TransferType
  | initiateDownload _ e .. => if e then .expedited else .initiateDownload
  | downloadSegment .. => .segmentDownload
  | initiateUpload .. => .initiateUpload
  | uploadSegment .. => .segmentUpload
  | initiateBlockDownload .. | endBlockDownload .. => .blockDownload
  | initiateBlockUpload .. | startBlockUpload | confirmBlock .. | confirmBlockUploadEnd =>
    .blockUpload
  | abort .. => .abort

def command (c : ClientCommand) (low : UInt8) : UInt8 := c.specifier <<< 5 ||| low

def toBytes : Request → Payload
  | initiateDownload n e s a d =>
    addressed (command .initiateDownload
      ((n &&& 3) <<< 2 ||| Command.bit e 1 ||| Command.bit s 0)) a d
  | downloadSegment t n c d =>
    segmented (command .downloadSegment
      (Command.bit t 4 ||| (n &&& 7) <<< 1 ||| Command.bit c 0)) d
  | initiateUpload a => addressed (command .initiateUpload 0) a (padTo 4 [])
  | uploadSegment t => padTo 8 [command .uploadSegment (Command.bit t 4)]
  | initiateBlockDownload cc s a size =>
    addressed (command .blockDownload (Command.bit cc 2 ||| Command.bit s 1)) a
      (bytesOfWord size)
  | endBlockDownload n crc =>
    padTo 8 [command .blockDownload ((n &&& 7) <<< 2 ||| 1),
      byteAt crc.toNat 0, byteAt crc.toNat 1]
  | initiateBlockUpload cc a blockSize threshold =>
    addressed (command .blockUpload (Command.bit cc 2)) a #v[blockSize, threshold, 0, 0]
  | startBlockUpload => padTo 8 [command .blockUpload 3]
  | confirmBlock seqno blockSize => padTo 8 [command .blockUpload 2, seqno, blockSize]
  | confirmBlockUploadEnd => padTo 8 [command .blockUpload 1]
  | abort a code => addressed (command .abort 0) a (bytesOfWord code)

def ofPayload (p : Payload) : Except ParseError Request :=
  let b := p.get 0
  let target := Address.ofPayload p
  match ClientCommand.ofSpecifier? (Command.specifier b) with
  | none => .error (.unknownCommandSpecifier b)
  | some .downloadSegment =>
    .ok (.downloadSegment (Command.flag b 4) (Command.unusedOfSeven b) (Command.flag b 0)
      (lastSeven p))
  | some .initiateDownload =>
    .ok (.initiateDownload (Command.unusedOfFour b) (Command.flag b 1) (Command.flag b 0)
      target (lastFour p))
  | some .initiateUpload => .ok (.initiateUpload target)
  | some .uploadSegment => .ok (.uploadSegment (Command.flag b 4))
  | some .abort => .ok (.abort target (lastWord p))
  | some .blockUpload =>
    match Command.subcommand b with
    | 0 => .ok (.initiateBlockUpload (Command.flag b 2) target (p.get 4) (p.get 5))
    | 1 => .ok .confirmBlockUploadEnd
    | 2 => .ok (.confirmBlock (p.get 1) (p.get 2))
    | _ => .ok .startBlockUpload
  | some .blockDownload =>
    if Command.flag b 0 then
      .ok (.endBlockDownload (Command.unusedAtEnd b) (firstHalf p))
    else
      .ok (.initiateBlockDownload (Command.flag b 2) (Command.flag b 1) target (lastWord p))

def parse (bytes : List UInt8) : Except ParseError Request :=
  match Payload.ofList? bytes with
  | some p => ofPayload p
  | none => .error (.malformedLength (UInt8.ofNat bytes.length))

def outline : Request → String
  | initiateDownload n e s a d =>
    Outline.record "InitiateDownload" [("n", toString n), ("e", Outline.bool e),
      ("s", Outline.bool s), ("index", toString a.index), ("sub", toString a.sub),
      ("data", Outline.bytes d.toList)]
  | downloadSegment t n c d =>
    Outline.record "DownloadSegment" [("t", Outline.bool t), ("n", toString n),
      ("c", Outline.bool c), ("data", Outline.bytes d.toList)]
  | initiateUpload a =>
    Outline.record "InitiateUpload" [("index", toString a.index), ("sub", toString a.sub)]
  | uploadSegment t => Outline.record "ReqUploadSegment" [("t", Outline.bool t)]
  | initiateBlockDownload cc s a size =>
    Outline.record "InitiateBlockDownload" [("cc", Outline.bool cc), ("s", Outline.bool s),
      ("index", toString a.index), ("sub", toString a.sub), ("size", toString size)]
  | endBlockDownload n crc =>
    Outline.record "EndBlockDownload" [("n", toString n), ("crc", toString crc)]
  | initiateBlockUpload cc a blockSize threshold =>
    Outline.record "InitiateBlockUpload" [("cc", Outline.bool cc), ("index", toString a.index),
      ("sub", toString a.sub), ("blksize", toString blockSize), ("pst", toString threshold)]
  | startBlockUpload => "StartBlockUpload"
  | confirmBlock seqno blockSize =>
    Outline.record "ConfirmBlock" [("ackseq", toString seqno), ("blksize", toString blockSize)]
  | confirmBlockUploadEnd => "ConfirmBlockUploadEnd"
  | abort a code =>
    Outline.record "Abort" [("index", toString a.index), ("sub", toString a.sub),
      ("abort_code", toString code)]

end Request

end Canopen.Sdo
