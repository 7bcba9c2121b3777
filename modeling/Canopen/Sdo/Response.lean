import Canopen.Sdo.Abort
import Canopen.Sdo.Address
import Canopen.Sdo.Command
import Canopen.Text.Outline

set_option autoImplicit false

namespace Canopen.Sdo

inductive Response where
  /-- Answers the start of an upload. The four bytes are the value of an expedited one, else
  the size. -/
  | confirmUpload (unused : UInt8) (expedited sized : Bool) (target : Address)
      (data : Vector UInt8 4)
  | uploadSegment (toggle : Bool) (unused : UInt8) (last : Bool) (data : Vector UInt8 7)
  | confirmDownload (target : Address)
  | confirmDownloadSegment (toggle : Bool)
  | confirmBlockDownload (crc : Bool) (target : Address) (blockSize : UInt8)
  | confirmBlock (seqno blockSize : UInt8)
  | confirmBlockDownloadEnd
  | confirmBlockUpload (crc sized : Bool) (target : Address) (size : UInt32)
  | endBlockUpload (unused : UInt8) (crc : UInt16)
  | abort (target : Address) (code : UInt32)
  deriving DecidableEq, Repr

namespace Response

def expedited (target : Address) (data : List UInt8) (_fits : data.length ≤ 4) : Response :=
  .confirmUpload (UInt8.ofNat (4 - data.length)) true true target (padTo 4 data)

def announce (target : Address) (size : Option UInt32) : Response :=
  .confirmUpload 0 false size.isSome target (bytesOfWord (size.getD 0))

def segment (toggle last : Bool) (data : List UInt8) (_fits : data.length ≤ 7) : Response :=
  .uploadSegment toggle (UInt8.ofNat (7 - data.length)) last (padTo 7 data)

def expedited? (target : Address) (data : List UInt8) : Option Response :=
  if h : data.length ≤ 4 then some (expedited target data h) else none

def segment? (toggle last : Bool) (data : List UInt8) : Option Response :=
  if h : data.length ≤ 7 then some (segment toggle last data h) else none

def announceBlocks (crc : Bool) (target : Address) (size : Option UInt32) : Response :=
  .confirmBlockUpload crc size.isSome target (size.getD 0)

def abortWith (target : Address) (code : AbortCode) : Response := .abort target code.code

def transferType : Response → TransferType
  | confirmUpload _ e .. => if e then .expedited else .initiateUpload
  | uploadSegment .. => .segmentUpload
  | confirmDownload .. => .initiateDownload
  | confirmDownloadSegment .. => .segmentDownload
  | confirmBlockDownload .. | confirmBlock .. | confirmBlockDownloadEnd => .blockDownload
  | confirmBlockUpload .. | endBlockUpload .. => .blockUpload
  | abort .. => .abort

def command (c : ServerCommand) (low : UInt8) : UInt8 := c.specifier <<< 5 ||| low

def toBytes : Response → Payload
  | confirmUpload n e s a d =>
    addressed (command .upload
      ((n &&& 3) <<< 2 ||| Command.bit e 1 ||| Command.bit s 0)) a d
  | uploadSegment t n c d =>
    segmented (command .uploadSegment
      (Command.bit t 4 ||| (n &&& 7) <<< 1 ||| Command.bit c 0)) d
  | confirmDownload a => addressed (command .download 0) a (padTo 4 [])
  | confirmDownloadSegment t => padTo 8 [command .downloadSegment (Command.bit t 4)]
  | confirmBlockDownload sc a blockSize =>
    addressed (command .blockDownload (Command.bit sc 2)) a (padTo 4 [blockSize])
  | confirmBlock seqno blockSize => padTo 8 [command .blockDownload 2, seqno, blockSize]
  | confirmBlockDownloadEnd => padTo 8 [command .blockDownload 1]
  | confirmBlockUpload sc s a size =>
    addressed (command .blockUpload (Command.bit sc 2 ||| Command.bit s 1)) a
      (bytesOfWord size)
  | endBlockUpload n crc =>
    padTo 8 [command .blockUpload ((n &&& 7) <<< 2 ||| 1),
      byteAt crc.toNat 0, byteAt crc.toNat 1]
  | abort a code => addressed (command .abort 0) a (bytesOfWord code)

def ofPayload (p : Payload) : Except ParseError Response :=
  let b := p.get 0
  let target := Address.ofPayload p
  match ServerCommand.ofSpecifier? (Command.specifier b) with
  | none => .error (.unknownCommandSpecifier b)
  | some .uploadSegment =>
    .ok (.uploadSegment (Command.flag b 4) (Command.unusedOfSeven b) (Command.flag b 0)
      (lastSeven p))
  | some .downloadSegment => .ok (.confirmDownloadSegment (Command.flag b 4))
  | some .upload =>
    .ok (.confirmUpload (Command.unusedOfFour b) (Command.flag b 1) (Command.flag b 0)
      target (lastFour p))
  | some .download => .ok (.confirmDownload target)
  | some .abort => .ok (.abort target (lastWord p))
  | some .blockDownload =>
    match Command.subcommand b with
    | 0 => .ok (.confirmBlockDownload (Command.flag b 2) target (p.get 4))
    | 1 => .ok .confirmBlockDownloadEnd
    | 2 => .ok (.confirmBlock (p.get 1) (p.get 2))
    | _ => .error (.unknownCommandSpecifier b)
  | some .blockUpload =>
    if Command.flag b 0 then
      .ok (.endBlockUpload (Command.unusedAtEnd b) (firstHalf p))
    else
      .ok (.confirmBlockUpload (Command.flag b 2) (Command.flag b 1) target (lastWord p))

def parse (bytes : List UInt8) : Except ParseError Response :=
  match Payload.ofList? bytes with
  | some p => ofPayload p
  | none => .error (.malformedLength (UInt8.ofNat bytes.length))

def outline : Response → String
  | confirmUpload n e s a d =>
    Outline.record "ConfirmUpload" [("n", toString n), ("e", Outline.bool e),
      ("s", Outline.bool s), ("index", toString a.index), ("sub", toString a.sub),
      ("data", Outline.bytes d.toList)]
  | uploadSegment t n c d =>
    Outline.record "UploadSegment" [("t", Outline.bool t), ("n", toString n),
      ("c", Outline.bool c), ("data", Outline.bytes d.toList)]
  | confirmDownload a =>
    Outline.record "ConfirmDownload" [("index", toString a.index), ("sub", toString a.sub)]
  | confirmDownloadSegment t =>
    Outline.record "ConfirmDownloadSegment" [("t", Outline.bool t)]
  | confirmBlockDownload sc a blockSize =>
    Outline.record "ConfirmBlockDownload" [("sc", Outline.bool sc),
      ("index", toString a.index), ("sub", toString a.sub), ("blksize", toString blockSize)]
  | confirmBlock seqno blockSize =>
    Outline.record "ConfirmBlock" [("ackseq", toString seqno), ("blksize", toString blockSize)]
  | confirmBlockDownloadEnd => "ConfirmBlockDownloadEnd"
  | confirmBlockUpload sc s a size =>
    Outline.record "ConfirmBlockUpload" [("sc", Outline.bool sc), ("s", Outline.bool s),
      ("index", toString a.index), ("sub", toString a.sub), ("size", toString size)]
  | endBlockUpload n crc =>
    Outline.record "EndBlockUpload" [("n", toString n), ("crc", toString crc)]
  | abort a code =>
    Outline.record "Abort" [("index", toString a.index), ("sub", toString a.sub),
      ("abort_code", toString code)]

end Response

end Canopen.Sdo
