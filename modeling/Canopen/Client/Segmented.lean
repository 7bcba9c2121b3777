import Canopen.Client.Transfer

set_option autoImplicit false

namespace Canopen.Client.Call

open Sdo (Request Response segmentBytes segmentCount segmentBytes_length_le)
open Transfer (store)

variable {σ : Type} (c : Call σ)

/-- One exchange. The address in the answer is not looked at, as some devices leave it zero. -/
def downloadExpedited (data : List UInt8) (fits : data.length ≤ 4) : Transfer σ Unit := do
  match ← c.exchange (.expedited c.target data fits) with
  | .confirmDownload _ => modify fun s => { s with transferred := data.length }
  | r => c.unexpected r

def downloadSegments (data : List UInt8) (i : Nat) : Nat → Transfer σ Unit
  | 0 => return
  | count + 1 => do
    let toggle := (← get).toggle
    let segment := segmentBytes data i
    match ← c.exchange (.segment toggle (count == 0) segment (segmentBytes_length_le data i)) with
    | .confirmDownloadSegment t => c.checkToggle t
    | r => c.unexpected r
    modify fun s => { s with transferred := s.transferred + segment.length }
    downloadSegments data (i + 1) count

def downloadSegmented (data : List UInt8) : Transfer σ Unit := do
  modify fun s => { s with announced := some data.length }
  match ← c.exchange (.announce c.target (some (UInt32.ofNat data.length))) with
  | .confirmDownload _ =>
    c.downloadSegments data 0 (segmentCount data)
    c.checkSize
  | r => c.unexpected r

def uploadSegments : Nat → Transfer σ Unit
  | 0 => throw .unfinished
  | n + 1 => do
    match ← c.exchange (.uploadSegment (← get).toggle) with
    | .uploadSegment t unused last d =>
      c.checkToggle t
      store (d.toList.take (7 - unused.toNat))
      if last then return else uploadSegments n
    | r => c.unexpected r

def continueUpload : Response → Transfer σ (List UInt8)
  | .confirmUpload unused true sized _ d => do
    modify fun s => { s with mode := .expedited }
    store (d.toList.take (if sized then 4 - unused.toNat else 4))
    return (← get).buffer
  | .confirmUpload _ false sized _ d => do
    let size := (wordOf d).toNat
    modify fun s =>
      { s with mode := .segmented, announced := if sized then some size else s.announced }
    c.uploadSegments c.patience
    c.checkSize
    return (← get).buffer
  | r => c.unexpected r

def upload : Transfer σ (List UInt8) := do
  c.continueUpload (← c.exchange (.initiateUpload c.target))

end Canopen.Client.Call
