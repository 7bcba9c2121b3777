import Canopen.Client.Block

/-!
A client that reads and writes objects of nodes. It is not bound to one node: each operation
names the node it addresses.

- `upload` asks for a block upload if those are preferred. Else the server chooses between an
  expedited and a segmented transfer.
- `download` sends one to four bytes expedited. More are sent in segments, or in blocks if
  those are preferred and the size reaches the threshold.
-/

set_option autoImplicit false

namespace Canopen

open Client

structure Client (σ : Type) where
  link : Link σ
  config : Config := {}
  valid : config.Valid := by decide
  patience : Nat

namespace Client

open Sdo (Address)

def Config.uploadMode (c : Config) : Mode := if c.preferBlock then .block else .segmented

def Config.downloadMode (c : Config) (length : Nat) : Mode :=
  if 1 ≤ length ∧ length ≤ 4 then .expedited
  else if c.preferBlock ∧ c.blockThreshold.toNat ≤ length then .block
  else .segmented

abbrev Outcome (σ α : Type) := Except Stop α × σ

variable {σ α : Type}

def configure (link : Link σ) (config : Config) (patience : Nat) :
    Except Config.Fault (Client σ) :=
  match h : config.fault? with
  | none => .ok { link, config, valid := h, patience }
  | some f => .error f

variable (client : Client σ)

def transfer (node : UInt8) (target : Address) (direction : Direction) (mode : Mode)
    (work : Call σ → Transfer σ α) (w : σ) : Outcome σ α :=
  match NodeId.ofByte? node with
  | none => (.error (.failed (.invalidNodeId node)), w)
  | some node =>
    let c : Call σ :=
      { link := client.link, config := client.config, node, target, direction
        patience := client.patience }
    c.run mode (work c) w

def uploadSegmented (node : UInt8) (target : Address) : σ → Outcome σ (List UInt8) :=
  client.transfer node target .upload .segmented Call.upload

/-- A small object may still come in a normal upload. -/
def uploadBlock (node : UInt8) (target : Address) : σ → Outcome σ (List UInt8) :=
  client.transfer node target .upload .block Call.uploadBlock

def upload (node : UInt8) (target : Address) : σ → Outcome σ (List UInt8) :=
  match client.config.uploadMode with
  | .block => client.uploadBlock node target
  | _ => client.uploadSegmented node target

/-- Reads at most four bytes as a number, with the least significant one first. -/
def uploadNumber (node : UInt8) (target : Address) (w : σ) : Outcome σ UInt32 :=
  match client.uploadSegmented node target w with
  | (.ok data, w) =>
    if data.length ≤ 4 then (.ok (wordOf (padTo 4 data)), w)
    else (.error (.failed (.invalidDataLength data.length)), w)
  | (.error e, w) => (.error e, w)

def downloadExpedited (node : UInt8) (target : Address) (data : List UInt8) (w : σ) :
    Outcome σ Unit :=
  if h : 1 ≤ data.length ∧ data.length ≤ 4 then
    client.transfer node target .download .expedited (·.downloadExpedited data h.2) w
  else (.error (.failed (.invalidDataLength data.length)), w)

def sizeLimit : Nat := UInt32.size

def downloadSegmented (node : UInt8) (target : Address) (data : List UInt8) (w : σ) :
    Outcome σ Unit :=
  if data.length < sizeLimit then
    client.transfer node target .download .segmented (·.downloadSegmented data) w
  else (.error (.failed (.invalidDataLength data.length)), w)

def downloadBlock (node : UInt8) (target : Address) (data : List UInt8) (w : σ) :
    Outcome σ Unit :=
  if data.length < sizeLimit then
    client.transfer node target .download .block (·.downloadBlock data) w
  else (.error (.failed (.invalidDataLength data.length)), w)

def download (node : UInt8) (target : Address) (data : List UInt8) : σ → Outcome σ Unit :=
  match client.config.downloadMode data.length with
  | .expedited => client.downloadExpedited node target data
  | .segmented => client.downloadSegmented node target data
  | .block => client.downloadBlock node target data

def downloadNumber (node : UInt8) (target : Address) (value : UInt32) (size : Nat) (w : σ) :
    Outcome σ Unit :=
  if 1 ≤ size ∧ size ≤ 4 then
    client.downloadExpedited node target ((bytesOfWord value).toList.take size) w
  else (.error (.failed (.invalidDataLength size)), w)

end Client

end Canopen
