import Canopen.Client
import Canopen.Proofs.Service
import Canopen.Proofs.Traffic

set_option autoImplicit false

namespace Canopen.Client

open Can (Message)
open Sdo

inductive Operation where
  | upload
  | uploadSegmented
  | uploadBlock
  | uploadNumber
  | download (data : List UInt8)
  | downloadExpedited (data : List UInt8)
  | downloadSegmented (data : List UInt8)
  | downloadBlock (data : List UInt8)
  | downloadNumber (value : UInt32) (size : Nat)
  deriving DecidableEq, Repr

inductive Value where
  | bytes (data : List UInt8)
  | number (value : UInt32)
  | done
  deriving DecidableEq, Repr

/-- No answer has come, or not the right one. -/
def Error.Astray : Error → Prop
  | timeout _ | unexpectedResponse => True
  | _ => False

def Outcome.map {σ α β : Type} (f : α → β) (o : Outcome σ α) : Outcome σ β := (o.1.map f, o.2)

def perform {σ : Type} (client : Client σ) (node : UInt8) (target : Address) (op : Operation)
    (w : σ) : Outcome σ Value :=
  match op with
  | .upload => Outcome.map .bytes (client.upload node target w)
  | .uploadSegmented => Outcome.map .bytes (client.uploadSegmented node target w)
  | .uploadBlock => Outcome.map .bytes (client.uploadBlock node target w)
  | .uploadNumber => Outcome.map .number (client.uploadNumber node target w)
  | .download data => Outcome.map (fun _ => .done) (client.download node target data w)
  | .downloadExpedited data =>
    Outcome.map (fun _ => .done) (client.downloadExpedited node target data w)
  | .downloadSegmented data =>
    Outcome.map (fun _ => .done) (client.downloadSegmented node target data w)
  | .downloadBlock data => Outcome.map (fun _ => .done) (client.downloadBlock node target data w)
  | .downloadNumber value size =>
    Outcome.map (fun _ => .done) (client.downloadNumber node target value size w)

def call {σ : Type} (client : Client σ) (node : NodeId) (target : Address)
    (direction : Direction) : Call σ :=
  { link := client.link, config := client.config, node, target, direction
    patience := client.patience }

theorem transfer_node {σ α : Type} (client : Client σ) (node : NodeId) (target : Address)
    (direction : Direction) (mode : Mode) (work : Call σ → Transfer σ α) (w : σ) :
    client.transfer node.value target direction mode work w =
      (client.call node target direction).run mode
        (work (client.call node target direction)) w := by
  rw [transfer, NodeId.ofByte?_value]
  rfl

theorem Config.expedited_of_downloadMode (config : Config) {length : Nat}
    (h : config.downloadMode length = .expedited) : 1 ≤ length ∧ length ≤ 4 := by
  unfold downloadMode at h
  split at h
  · assumption
  · split at h <;> cases h

namespace Operation

def Fetches : Operation → Prop
  | upload | uploadSegmented | uploadBlock | uploadNumber => True
  | _ => False

/-- An upload of an object as it is. -/
def Reads : Operation → Prop
  | upload | uploadSegmented | uploadBlock => True
  | _ => False

/-- A download of these bytes in a way that can hold them. -/
def Writes (data : List UInt8) : Operation → Prop
  | download d | downloadSegmented d | downloadBlock d => d = data ∧ data.length < sizeLimit
  | downloadExpedited d => d = data ∧ 1 ≤ data.length ∧ data.length ≤ 4
  | _ => False

def fetch (srv : Server) (target : Address) : Except Error (List UInt8 × Server) :=
  match srv.objects.get? target with
  | some object => .ok (object, srv)
  | none => .error (.serverAbort target (.known .noSuchObject))

def fetchNumber (srv : Server) (target : Address) : Except Error (UInt32 × Server) :=
  match fetch srv target with
  | .ok (object, srv) =>
    if object.length ≤ 4 then .ok (wordOf (padTo 4 object), srv)
    else .error (.invalidDataLength object.length)
  | .error e => .error e

def put (srv : Server) (target : Address) (data : List UInt8) :
    Mode → Except Error (Unit × Server)
  | .expedited =>
    if 1 ≤ data.length ∧ data.length ≤ 4 then .ok ((), srv.store target data)
    else .error (.invalidDataLength data.length)
  | .segmented =>
    if data.length < sizeLimit then .ok ((), srv.store target data)
    else .error (.invalidDataLength data.length)
  | .block =>
    if data.length < sizeLimit then
      match BlockSize.ofByte? srv.blockSize with
      | some _ => .ok ((), srv.store target data)
      | none => .error (.invalidBlockSize srv.blockSize)
    else .error (.invalidDataLength data.length)

/-- The value that an operation is to give, and the server it is to leave. -/
def verdict (config : Config) (srv : Server) (target : Address) :
    Operation → Except Error (Value × Server)
  | upload | uploadSegmented | uploadBlock =>
    (fetch srv target).map fun (object, srv) => (.bytes object, srv)
  | uploadNumber => (fetchNumber srv target).map fun (n, srv) => (.number n, srv)
  | download data =>
    (put srv target data (config.downloadMode data.length)).map fun (_, srv) => (.done, srv)
  | downloadExpedited data => (put srv target data .expedited).map fun (_, srv) => (.done, srv)
  | downloadSegmented data => (put srv target data .segmented).map fun (_, srv) => (.done, srv)
  | downloadBlock data => (put srv target data .block).map fun (_, srv) => (.done, srv)
  | downloadNumber value size =>
    if 1 ≤ size ∧ size ≤ 4 then
      (put srv target ((bytesOfWord value).toList.take size) .expedited).map
        fun (_, srv) => (.done, srv)
    else .error (.invalidDataLength size)

def fetchTraffic (config : Config) (srv : Server) (target : Address) (object : List UInt8) :
    Mode → List Message
  | .block =>
    let threshold := UInt8.ofNat (min config.blockThreshold.toNat 255)
    (Request.initiateBlockUpload config.useCrc target config.blockSize threshold).message srv.node
      :: Traffic.switchedUpload srv.node object srv.faults.switchProtocol config.blockSize threshold
  | _ => (Request.initiateUpload target).message srv.node :: Traffic.normalUpload srv.node object

def putTraffic (config : Config) (srv : Server) (target : Address) (data : List UInt8) :
    Mode → List Message
  | .expedited =>
    if fits : data.length ≤ 4 then Traffic.expeditedDownload srv.node target data fits else []
  | .segmented => Traffic.segmentedDownload srv.node target data
  | .block =>
    Traffic.blockDownload srv.node target data config.useCrc srv.crc srv.blockSize.toNat

/-- The frames that a client sends in an operation when nothing goes wrong. -/
def traffic (config : Config) (srv : Server) (target : Address) (op : Operation) :
    List Message :=
  let object := (srv.objects.get? target).getD []
  match op with
  | upload => fetchTraffic config srv target object config.uploadMode
  | uploadSegmented | uploadNumber => fetchTraffic config srv target object .segmented
  | uploadBlock => fetchTraffic config srv target object .block
  | download data => putTraffic config srv target data (config.downloadMode data.length)
  | downloadExpedited data => putTraffic config srv target data .expedited
  | downloadSegmented data => putTraffic config srv target data .segmented
  | downloadBlock data => putTraffic config srv target data .block
  | downloadNumber value size =>
    putTraffic config srv target ((bytesOfWord value).toList.take size) .expedited

theorem verdict_of_reads {config : Config} {srv : Server} {target : Address} {op : Operation}
    {object : List UInt8} (hop : op.Reads) (hobject : srv.objects.get? target = some object) :
    op.verdict config srv target = .ok (.bytes object, srv) := by
  cases op with
  | upload | uploadSegmented | uploadBlock =>
    simp only [verdict, fetch, hobject]
    rfl
  | _ => exact hop.elim

theorem put_eq_ok {srv : Server} {target : Address} {data : List UInt8} {mode : Mode}
    (hd : data.length < sizeLimit)
    (hshort : mode = .expedited → 1 ≤ data.length ∧ data.length ≤ 4)
    (hb : 0 < srv.blockSize.toNat ∧ srv.blockSize.toNat ≤ 127) :
    put srv target data mode = .ok ((), srv.store target data) := by
  have hsize : BlockSize.ofByte? srv.blockSize = some ⟨srv.blockSize, hb.1, hb.2⟩ := dif_pos hb
  cases mode with
  | expedited => exact if_pos (hshort rfl)
  | segmented => exact if_pos hd
  | block => simp only [put, if_pos hd, hsize]

theorem verdict_of_writes {config : Config} {srv : Server} {target : Address} {op : Operation}
    {data : List UInt8} (hop : op.Writes data)
    (hb : 0 < srv.blockSize.toNat ∧ srv.blockSize.toNat ≤ 127) :
    op.verdict config srv target = .ok (.done, srv.store target data) := by
  have hput : ∀ mode, data.length < sizeLimit →
      (mode = .expedited → 1 ≤ data.length ∧ data.length ≤ 4) →
      (put srv target data mode).map (fun (_, srv) => (Value.done, srv))
        = .ok (.done, srv.store target data) := by
    intro mode hd hshort
    rw [put_eq_ok hd hshort hb]
    rfl
  cases op with
  | download d =>
    obtain ⟨rfl, hd⟩ := hop
    exact hput _ hd config.expedited_of_downloadMode
  | downloadExpedited d =>
    obtain ⟨rfl, hd⟩ := hop
    exact hput _ (Nat.lt_of_le_of_lt hd.2 (by decide)) fun _ => hd
  | downloadSegmented d | downloadBlock d =>
    obtain ⟨rfl, hd⟩ := hop
    exact hput _ hd (by simp)
  | _ => exact hop.elim

theorem noAbort_putTraffic (config : Config) {srv : Server} (target : Address) {data : List UInt8}
    {mode : Mode} (hshort : mode = .expedited → 1 ≤ data.length ∧ data.length ≤ 4)
    (hb : 0 < srv.blockSize.toNat ∧ srv.blockSize.toNat ≤ 127) :
    Traffic.NoAbort (putTraffic config srv target data mode) := by
  cases mode with
  | expedited =>
    obtain ⟨h1, h4⟩ := hshort rfl
    rw [putTraffic, dif_pos h4]
    exact Traffic.noAbort_expeditedDownload srv.node target data h4 h1
  | segmented => exact Traffic.noAbort_segmentedDownload srv.node target data
  | block => exact Traffic.noAbort_blockDownload srv.node target data _ _ hb.1 hb.2

theorem noAbort_fetchTraffic (config : Config) (srv : Server) (target : Address)
    (object : List UInt8) (mode : Mode) :
    Traffic.NoAbort (fetchTraffic config srv target object mode) := by
  have hnormal : (Request.initiateUpload target).Regular := .of_plain trivial
  have hblock : ∀ threshold, (Request.initiateBlockUpload config.useCrc target config.blockSize
      threshold).Regular := fun _ => .of_plain trivial
  cases mode with
  | block =>
    exact Traffic.NoAbort.cons ((hblock _).message_head_ne_abort srv.node)
      (Traffic.noAbort_switchedUpload srv.node object _ _ _)
  | _ =>
    exact Traffic.NoAbort.cons (hnormal.message_head_ne_abort srv.node)
      (Traffic.noAbort_normalUpload srv.node object)

theorem noAbort_traffic_of_reads {op : Operation} (hop : op.Reads) (config : Config)
    (srv : Server) (target : Address) : Traffic.NoAbort (op.traffic config srv target) := by
  cases op with
  | upload | uploadSegmented | uploadBlock =>
    rw [traffic]
    exact noAbort_fetchTraffic config srv target _ _
  | _ => exact hop.elim

theorem noAbort_traffic_of_writes {op : Operation} {data : List UInt8} (hop : op.Writes data)
    (config : Config) {srv : Server} (target : Address)
    (hb : 0 < srv.blockSize.toNat ∧ srv.blockSize.toNat ≤ 127) :
    Traffic.NoAbort (op.traffic config srv target) := by
  cases op with
  | download d =>
    rw [traffic]
    exact noAbort_putTraffic config target config.expedited_of_downloadMode hb
  | downloadExpedited d =>
    obtain ⟨rfl, hd⟩ := hop
    rw [traffic]
    exact noAbort_putTraffic config target (fun _ => hd) hb
  | downloadSegmented d | downloadBlock d =>
    rw [traffic]
    exact noAbort_putTraffic config target (by simp) hb
  | _ => exact hop.elim

theorem put_ne {e : Error} (he : e.Astray) {srv : Server} {target : Address} {data : List UInt8}
    {mode : Mode} : put srv target data mode ≠ .error e := by
  intro h
  cases mode with
  | expedited | segmented =>
    simp only [put] at h
    split at h
    · cases h
    · cases h
      exact he
  | block =>
    simp only [put] at h
    split at h
    · split at h
      · cases h
      · cases h
        exact he
    · cases h
      exact he

theorem fetch_ne_timeout {srv : Server} {target : Address} {k : UInt32} :
    fetch srv target ≠ .error (.timeout k) := by
  unfold fetch
  split <;> simp

theorem map_ne_error {ε α β : Type} {x : Except ε α} {e : ε} {f : α → β} (h : x ≠ .error e) :
    x.map f ≠ .error e := by
  intro he
  cases x with
  | ok a => cases he
  | error e' =>
    cases he
    exact h rfl

theorem verdict_ne_timeout {config : Config} {srv : Server} {target : Address} {op : Operation}
    {k : UInt32} : op.verdict config srv target ≠ .error (.timeout k) := by
  have hlate : (Error.timeout k).Astray := trivial
  cases op with
  | upload | uploadSegmented | uploadBlock => exact map_ne_error fetch_ne_timeout
  | uploadNumber =>
    refine map_ne_error ?_
    unfold fetchNumber
    split
    · split <;> simp
    · rename_i e he
      intro h
      cases h
      exact fetch_ne_timeout he
  | downloadNumber value size =>
    rw [verdict]
    split
    · exact map_ne_error (put_ne hlate)
    · simp
  | _ => exact map_ne_error (put_ne hlate)

end Operation
end Canopen.Client
