import Canopen.Sdo.BlockSegment
import Canopen.Text.Outline

set_option autoImplicit false

namespace Canopen.Server

open Sdo (Address segmentCount segmentSize)

structure BlockDownload where
  target : Address
  size : Option Nat
  crc : Bool
  /-- The last sequence number received in order in the block under way. -/
  seqno : UInt8
  buffer : List UInt8
  deriving DecidableEq, Repr

structure BlockUpload where
  target : Address
  crc : Bool
  blockSize : UInt8
  /-- The number of the first segment of the block under way. -/
  start : Nat
  data : List UInt8
  deriving DecidableEq, Repr

def BlockUpload.length (t : BlockUpload) : Nat :=
  min t.blockSize.toNat (segmentCount t.data - t.start)

inductive State where
  | idle
  /-- Segments are counted from zero. -/
  | downloadSegmented (target : Address) (toggle : Bool) (segment : Nat) (size : Option Nat)
      (buffer : List UInt8)
  | uploadSegmented (target : Address) (toggle : Bool) (segment : Nat) (data : List UInt8)
  | downloadBlock (t : BlockDownload)
  | endDownloadBlock (t : BlockDownload)
  | uploadBlockInitiated (t : BlockUpload)
  | uploadBlock (t : BlockUpload)
  | endUploadBlock
  deriving DecidableEq, Repr

namespace State

open Outline (record wrap)

def outline : State → String
  | idle => "Idle"
  | downloadSegmented a toggle segment size buffer =>
    record "DownloadSegmented" [("index", toString a.index), ("sub", toString a.sub),
      ("toggle", Outline.bool toggle), ("segment", toString segment),
      ("size", Outline.option (size.map toString)), ("buf", Outline.bytes buffer)]
  | uploadSegmented a toggle segment data =>
    record "UploadSegmented" [("index", toString a.index), ("sub", toString a.sub),
      ("toggle", Outline.bool toggle), ("segment", toString segment),
      ("pos", toString (segment * segmentSize)), ("data", Outline.bytes data)]
  | downloadBlock t => wrap "DownloadBlock" (download t)
  | endDownloadBlock t => wrap "EndDownloadBlock" (download t)
  | uploadBlockInitiated t => wrap "UploadBlockInitiated" (upload t)
  | uploadBlock t => wrap "UploadBlock" (upload t)
  | endUploadBlock => "EndUploadBlock"
where
  download (t : BlockDownload) : String :=
    record "DownloadBlock" [("index", toString t.target.index), ("sub", toString t.target.sub),
      ("size", Outline.option (t.size.map toString)), ("use_crc", Outline.bool t.crc),
      ("seqno", toString t.seqno), ("buf", Outline.bytes t.buffer)]
  upload (t : BlockUpload) : String :=
    record "UploadBlock" [("index", toString t.target.index), ("sub", toString t.target.sub),
      ("use_crc", Outline.bool t.crc), ("blksize", toString t.blockSize),
      ("block_start", toString t.start), ("data", Outline.bytes t.data)]

end State

end Canopen.Server
