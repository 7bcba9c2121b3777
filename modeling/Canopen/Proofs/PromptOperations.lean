import Canopen.Proofs.Outcomes
import Canopen.Proofs.PromptBlockUploads

set_option autoImplicit false

namespace Canopen

open Can (Message)
open Sdo

/-- The server as it was made, with the objects it has now. -/
def Server.renewed (s : Server) : Server :=
  { node := s.node, objects := s.objects, blockSize := s.blockSize, crc := s.crc
    faults := s.faults }

namespace Client

variable {σ α β : Type} {V : σ → Server → List Message → Prop} {srv : Server} {room : Nat}

def Rested (V : σ → Server → List Message → Prop) (srv : Server) (objects : Server.Dictionary)
    (w : σ) : Prop :=
  ∃ srv' ms, V w srv' ms ∧ srv'.renewed = { srv.renewed with objects } ∧
    ∀ b, srv'.state ≠ .downloadBlock b

def Fulfils (V : σ → Server → List Message → Prop) (srv : Server)
    (expected : Except Error α × Server.Dictionary) (o : Outcome σ α) : Prop :=
  o.1 = expected.1.mapError .failed ∧ Rested V srv expected.2 o.2

/-- The work of a transfer ends with an outcome that is so. -/
def Transfer.Leads (work : Transfer σ α) (s : Session σ) (Q : Outcome σ α → Prop) : Prop :=
  Ends work s (fun a t => Q (.ok a, t.world)) fun e t => Q (.error e, t.world)

theorem Rested.note {a : Link σ} {node : NodeId} (h : a.Prompt node room V)
    {objects : Server.Dictionary} {w : σ} (hw : Rested V srv objects w) (r : Record) :
    Rested V srv objects (a.note r w) := by
  obtain ⟨srv', ms, hv, hrested⟩ := hw
  exact ⟨srv', ms, (h.note hv r).1, hrested⟩

theorem Fulfils.map {expected : Except Error α × Server.Dictionary} {o : Outcome σ α} (f : α → β)
    (h : Fulfils V srv expected o) :
    Fulfils V srv (expected.1.map f, expected.2) (Outcome.map f o) := by
  obtain ⟨r, w⟩ := o
  obtain ⟨e, objects⟩ := expected
  obtain ⟨hresult, hrested⟩ := h
  refine ⟨?_, hrested⟩
  show r.map f = (e.map f).mapError .failed
  have hr : r = e.mapError .failed := hresult
  rw [hr]
  cases e <;> rfl

namespace Call

open Transfer

variable {c : Call σ}

theorem Sees.rested {s : Session σ} {srv' : Server} {state : Server.State} {ms : List Message}
    (h : c.Sees V s srv' state ms) (hs : ∀ b, state ≠ .downloadBlock b)
    {objects : Server.Dictionary} (hr : srv'.renewed = { srv.renewed with objects }) :
    Rested V srv objects s.world := by
  obtain ⟨⟨k, hv⟩, -⟩ := h
  exact ⟨_, ms, hv, hr, hs⟩

namespace Prompt

variable (h : c.Prompt room V)
include h

theorem ends_flush {s : Session σ} {state : Server.State} {ms : List Message} {n : Nat}
    (hs : c.Sees V s srv state ms) (hn : ms.length < n) {Q : Unit → Session σ → Prop}
    {E : Stop → Session σ → Prop}
    (goes : ∀ w, c.Sees V { s with world := w } srv state [] → Q () { s with world := w }) :
    Ends (c.flush n) s Q E := by
  induction n generalizing ms s with
  | zero => exact absurd hn (Nat.not_lt_zero _)
  | succ n ih =>
    obtain ⟨⟨k, hv⟩, hd⟩ := hs
    obtain ⟨hreceived, hv', hnow⟩ := h.link.receive hv
    let t : Session σ := { s with world := (c.link.receive s.world).2 }
    have ht : c.Sees V t srv state ms.tail := ⟨⟨k, hv'⟩, by
      show s.deadline ≤ c.link.now (c.link.receive s.world).2 + _
      rw [hnow]
      exact hd⟩
    rw [flush, ends_bind, receive, ends_bind, ends_act, hreceived]
    cases ms with
    | nil => exact goes _ ht
    | cons m ms => exact ih ht (Nat.lt_of_succ_lt_succ hn) goes

theorem run_leads {ms : List Message} {w : σ} (hv : V w srv ms) (hp : ms.length < c.patience)
    {Q : Outcome σ α → Prop} (noted : ∀ {r v}, Q (r, v) → ∀ rec, Q (r, c.link.note rec v))
    {mode : Mode} {work : Transfer σ α}
    (hw : ∀ v, c.Sees V { c.session mode (c.link.resume w) with world := v } srv srv.state [] →
      Leads work { c.session mode (c.link.resume w) with world := v } Q) :
    Q (c.run mode work w) := by
  have hprepared : Ends (c.prepare mode) (c.session mode (c.link.resume w))
      (fun _ t => Leads work t Q) fun _ _ => False := by
    have hs : c.Sees V (c.session mode (c.link.resume w)) srv srv.state ms :=
      ⟨⟨srv.received, h.link.resume hv⟩, Nat.le_refl _⟩
    rw [prepare, ends_bind]
    exact h.ends_note hs fun v hv => h.ends_flush hv hp hw
  rw [run]
  unfold Ends at hprepared
  generalize c.prepare mode (c.session mode (c.link.resume w)) = p at hprepared
  cases p with
  | error e s => exact hprepared.elim
  | ok _ s =>
    dsimp only at hprepared ⊢
    unfold Leads Ends at hprepared
    generalize work s = q at hprepared
    cases q with
    | ok a t => exact noted hprepared _
    | error e t =>
      cases e with
      | failed e => exact noted hprepared _
      | unfinished => exact hprepared

end Prompt
end Call

namespace Operation

def reading (room : Nat) (config : Config) (srv : Server) (target : Address) (mode : Mode) :
    Except Error (List UInt8) :=
  match srv.objects.get? target with
  | none => .error (.serverAbort target (.known .noSuchObject))
  | some object =>
    if mode = .block ∧
        config.retries.toNat < longBlocks room config.blockSize.toNat (segmentCount object) then
      .error (.timeout 1)
    else if Misstated object then
      .error (.sizeMismatch (announcedSize object) object.length)
    else .ok object

/-- On a tap there is room for each block, so that none of them takes a retry. -/
theorem roomy_of_valid {config : Config} (valid : config.Valid) (mode : Mode)
    (object : List UInt8) :
    ¬(mode = .block ∧
      config.retries.toNat < longBlocks 127 config.blockSize.toNat (segmentCount object)) := by
  rw [longBlocks_of_le (Config.blockSize_of_valid valid).2]
  exact fun h => Nat.not_lt_zero _ h.2

def readingNumber (room : Nat) (config : Config) (srv : Server) (target : Address) :
    Except Error UInt32 :=
  match reading room config srv target .segmented with
  | .ok object =>
    if object.length ≤ 4 then .ok (wordOf (padTo 4 object))
    else .error (.invalidDataLength object.length)
  | .error e => .error e

def writing (srv : Server) (target : Address) (data : List UInt8) (mode : Mode) :
    Except Error Unit × Server.Dictionary :=
  match put srv target data mode with
  | .ok (_, s) => (.ok (), s.objects)
  | .error e => (.error e, srv.objects)

def outcome (room : Nat) (config : Config) (srv : Server) (target : Address) :
    Operation → Except Error Value × Server.Dictionary
  | upload => ((reading room config srv target config.uploadMode).map .bytes, srv.objects)
  | uploadSegmented => ((reading room config srv target .segmented).map .bytes, srv.objects)
  | uploadBlock => ((reading room config srv target .block).map .bytes, srv.objects)
  | uploadNumber => ((readingNumber room config srv target).map .number, srv.objects)
  | download data => written (writing srv target data (config.downloadMode data.length))
  | downloadExpedited data => written (writing srv target data .expedited)
  | downloadSegmented data => written (writing srv target data .segmented)
  | downloadBlock data => written (writing srv target data .block)
  | downloadNumber value size =>
    if 1 ≤ size ∧ size ≤ 4 then
      written (writing srv target ((bytesOfWord value).toList.take size) .expedited)
    else (.error (.invalidDataLength size), srv.objects)
where
  written (r : Except Error Unit × Server.Dictionary) : Except Error Value × Server.Dictionary :=
    (r.1.map fun _ => .done, r.2)

theorem outcome_renewed (room : Nat) (config : Config) (srv : Server) (target : Address)
    (op : Operation) :
    op.outcome room config srv.renewed target = op.outcome room config srv target := by
  have hput : ∀ data mode, put srv.renewed target data mode
      = (put srv target data mode).map fun r => ((), r.2.renewed) := by
    intro data mode
    cases mode with
    | expedited | segmented =>
      simp only [put]
      split <;> rfl
    | block =>
      have hsize : srv.renewed.blockSize = srv.blockSize := rfl
      simp only [put, hsize]
      split
      · cases BlockSize.ofByte? srv.blockSize <;> rfl
      · rfl
  have hwriting : ∀ data mode, writing srv.renewed target data mode
      = writing srv target data mode := by
    intro data mode
    rw [writing, writing, hput]
    cases put srv target data mode <;> rfl
  cases op with
  | upload | uploadSegmented | uploadBlock | uploadNumber => rfl
  | downloadNumber value size => simp only [outcome, hwriting]; rfl
  | _ => simp only [outcome, hwriting]

end Operation

/-- A client at a link on which this server answers at once. The client has patience for what is
on its way. -/
structure Reaches (client : Client σ) (room : Nat) (V : σ → Server → List Message → Prop) (w : σ)
    (srv : Server) : Prop where
  link : client.link.Prompt srv.node room V
  roomy : 64 ≤ room
  interval : 0 < client.config.pollInterval
  flushes : ∃ ms, V w srv ms ∧ ms.length < client.patience
  waits : client.config.timeout < client.patience

/-- Moreover the server has no faults and awaits no blocks, and the client has patience for an
object. -/
structure Attends (client : Client σ) (room : Nat) (V : σ → Server → List Message → Prop) (w : σ)
    (srv : Server) (target : Address) : Prop extends client.Reaches room V w srv where
  faults : srv.faults = {}
  awaits : ∀ b, srv.state ≠ .downloadBlock b
  takes : ∀ object, srv.objects.get? target = some object →
    segmentCount object + client.config.retries.toNat < client.patience

section
variable {client : Client σ} {w : σ} {target : Address}

theorem Reaches.prompt (h : client.Reaches room V w srv) (target : Address)
    (direction : Direction) :
    (client.call srv.node target direction).Prompt room V :=
  ⟨h.link, h.roomy, h.interval, h.waits⟩

theorem Reaches.leads (h : client.Reaches room V w srv) {direction : Direction} {mode : Mode}
    {work : Call σ → Transfer σ α} {Q : Outcome σ α → Prop}
    (noted : ∀ {r v}, Q (r, v) → ∀ rec, Q (r, client.link.note rec v))
    (hw : ∀ v, let c := client.call srv.node target direction
      c.Sees V { c.session mode (c.link.resume w) with world := v } srv srv.state [] →
      Transfer.Leads (work c) { c.session mode (c.link.resume w) with world := v } Q) :
    Q (client.transfer srv.node.value target direction mode work w) := by
  obtain ⟨ms, hv, hlength⟩ := h.flushes
  rw [transfer_node]
  exact (h.prompt target direction).run_leads hv hlength noted hw

end

namespace Attends

open Transfer (ends_bind)

variable {client : Client σ} {w : σ} {target : Address} (h : client.Attends room V w srv target)
include h

theorem faces (direction : Direction) : (client.call srv.node target direction).Faces srv :=
  ⟨rfl, h.faults⟩

theorem fulfils {direction : Direction} {mode : Mode} {work : Call σ → Transfer σ α}
    {expected : Except Error α × Server.Dictionary}
    (hw : ∀ v, let c := client.call srv.node target direction
      c.Sees V { c.session mode (c.link.resume w) with world := v } srv srv.state [] →
      Transfer.Leads (work c) { c.session mode (c.link.resume w) with world := v }
        (Fulfils V srv expected)) :
    Fulfils V srv expected (client.transfer srv.node.value target direction mode work w) :=
  h.leads (fun hq rec => ⟨hq.1, hq.2.note h.link rec⟩) hw

theorem refused (e : Error) :
    Fulfils V srv (.error e, srv.objects) ((.error (.failed e), w) : Outcome σ α) := by
  obtain ⟨ms, hv, -⟩ := h.flushes
  exact ⟨rfl, srv, ms, hv, rfl, h.awaits⟩

theorem fulfils_uploadSegmented :
    Fulfils V srv (Operation.reading room client.config srv target .segmented, srv.objects)
      (client.uploadSegmented srv.node.value target w) := by
  refine h.fulfils fun v hs => ?_
  have hprompt := h.prompt target .upload
  have hfaces := h.faces .upload
  unfold Transfer.Leads Operation.reading
  cases hobject : srv.objects.get? target with
  | none =>
    have hregular : (Request.initiateUpload target).Regular := .of_plain trivial
    rw [Call.upload, ends_bind]
    refine (hprompt.ends_exchange_missing hfaces hs h.awaits hregular
      (fun _ => Server.proceed_initiateUpload_missing hobject)).mono (fun _ _ hq => hq) ?_
    intro e t hq
    obtain ⟨rfl, ht⟩ := hq
    exact ⟨rfl, ht.rested (by simp) rfl⟩
  | some object =>
    have hpatient : segmentCount object ≤ client.patience := by
      have := h.takes object hobject
      omega
    refine (hprompt.ends_upload hfaces hs h.awaits rfl rfl rfl hpatient hobject).mono ?_ ?_
    · intro v t hq
      obtain ⟨hm, rfl, ht⟩ := hq
      simp only [reduceCtorEq, false_and, if_false, if_neg hm]
      exact ⟨rfl, ht.rested (by simp) rfl⟩
    · intro e t hq
      obtain ⟨hm, rfl, last, ht⟩ := hq
      simp only [reduceCtorEq, false_and, if_false, if_pos hm]
      exact ⟨rfl, ht.rested (by simp) rfl⟩

theorem fulfils_uploadBlock :
    Fulfils V srv (Operation.reading room client.config srv target .block, srv.objects)
      (client.uploadBlock srv.node.value target w) := by
  refine h.fulfils fun v hs => ?_
  have hprompt := h.prompt target .upload
  have hfaces := h.faces .upload
  have hsize := Config.blockSize_of_valid client.valid
  unfold Transfer.Leads Operation.reading
  cases hobject : srv.objects.get? target with
  | none =>
    have hregular : (Request.initiateBlockUpload client.config.useCrc target
        client.config.blockSize (client.call srv.node target .upload).threshold).Regular :=
      .of_plain trivial
    rw [Call.uploadBlock, ends_bind]
    refine (hprompt.ends_exchange_missing hfaces hs h.awaits hregular
      (fun _ => Server.proceed_initiateBlockUpload_missing hobject)).mono (fun _ _ hq => hq) ?_
    intro e t hq
    obtain ⟨rfl, ht⟩ := hq
    exact ⟨rfl, ht.rested (by simp) rfl⟩
  | some object =>
    let long := longBlocks room client.config.blockSize.toNat (segmentCount object)
    simp only [true_and]
    refine (hprompt.ends_uploadBlock hsize hfaces hs h.awaits rfl (h.takes object hobject)
      hobject).mono ?_ ?_
    · intro v t hq
      obtain ⟨hle, hm, rfl, ht⟩ := hq
      have hle' : ¬client.config.retries.toNat < long := Nat.not_lt.mpr hle
      rw [if_neg hle', if_neg hm]
      exact ⟨rfl, ht.rested (by simp) rfl⟩
    · intro e t hq
      rcases hq with ⟨hlt, rfl, b, ht⟩ | ⟨hle, hm, rfl, last, ht⟩
      · have hlt' : client.config.retries.toNat < long := hlt
        rw [if_pos hlt']
        exact ⟨rfl, ht.rested (by simp) rfl⟩
      · have hle' : ¬client.config.retries.toNat < long := Nat.not_lt.mpr hle
        rw [if_neg hle', if_pos hm]
        exact ⟨rfl, ht.rested (by simp) rfl⟩

theorem fulfils_upload :
    Fulfils V srv (Operation.reading room client.config srv target client.config.uploadMode,
      srv.objects) (client.upload srv.node.value target w) := by
  rw [upload, Config.uploadMode]
  split
  · exact h.fulfils_uploadBlock
  · exact h.fulfils_uploadSegmented

theorem fulfils_uploadNumber :
    Fulfils V srv (Operation.readingNumber room client.config srv target, srv.objects)
      (client.uploadNumber srv.node.value target w) := by
  have hupload := h.fulfils_uploadSegmented
  rw [uploadNumber, Operation.readingNumber]
  generalize client.uploadSegmented srv.node.value target w = o at hupload
  obtain ⟨result, v⟩ := o
  obtain ⟨hresult, hrested⟩ := hupload
  generalize Operation.reading room client.config srv target .segmented = e at hresult
  have hresult' : result = e.mapError .failed := hresult
  rw [hresult']
  cases e with
  | error e => exact ⟨rfl, hrested⟩
  | ok object =>
    show Fulfils V srv _ (if object.length ≤ 4 then _ else _)
    by_cases hshort : object.length ≤ 4
    · simp only [if_pos hshort]
      exact ⟨rfl, hrested⟩
    · simp only [if_neg hshort]
      exact ⟨rfl, hrested⟩

theorem fulfils_downloadExpedited (data : List UInt8) :
    Fulfils V srv (Operation.writing srv target data .expedited)
      (client.downloadExpedited srv.node.value target data w) := by
  rw [downloadExpedited, Operation.writing, Operation.put]
  by_cases hshort : 1 ≤ data.length ∧ data.length ≤ 4
  · rw [dif_pos hshort, if_pos hshort]
    refine h.fulfils fun v hs => ?_
    refine ((h.prompt target .download).ends_downloadExpedited (h.faces .download) hs h.awaits
      hshort.2 hshort.1).mono (fun _ t ht => ?_) fun _ _ he => he.elim
    exact ⟨rfl, ht.rested (by simp) rfl⟩
  · rw [dif_neg hshort, if_neg hshort]
    exact h.refused _

theorem fulfils_downloadSegmented (data : List UInt8) :
    Fulfils V srv (Operation.writing srv target data .segmented)
      (client.downloadSegmented srv.node.value target data w) := by
  rw [downloadSegmented, Operation.writing, Operation.put]
  by_cases hsmall : data.length < sizeLimit
  · rw [if_pos hsmall, if_pos hsmall]
    refine h.fulfils fun v hs => ?_
    refine ((h.prompt target .download).ends_downloadSegmented (h.faces .download) hs h.awaits
      hsmall rfl rfl).mono (fun _ t ht => ?_) fun _ _ he => he.elim
    exact ⟨rfl, ht.rested (by simp) rfl⟩
  · rw [if_neg hsmall, if_neg hsmall]
    exact h.refused _

theorem fulfils_downloadBlock (data : List UInt8) :
    Fulfils V srv (Operation.writing srv target data .block)
      (client.downloadBlock srv.node.value target data w) := by
  rw [downloadBlock, Operation.writing, Operation.put]
  by_cases hsmall : data.length < sizeLimit
  · rw [if_pos hsmall, if_pos hsmall]
    refine h.fulfils fun v hs => ?_
    cases hsize : BlockSize.ofByte? srv.blockSize with
    | none =>
      refine ((h.prompt target .download).ends_downloadBlock_invalid (h.faces .download) hsize hs
        h.awaits).mono (fun _ _ hq => hq.elim) fun e t hq => ?_
      obtain ⟨rfl, last, ht⟩ := hq
      exact ⟨rfl, ht.rested (by simp) rfl⟩
    | some size =>
      have hvalue : srv.blockSize = size.value := by
        unfold BlockSize.ofByte? at hsize
        split at hsize
        · cases hsize
          rfl
        · cases hsize
      refine ((h.prompt target .download).ends_downloadBlock (h.faces .download) hvalue hs h.awaits
        hsmall).mono (fun _ t ht => ?_) fun _ _ he => he.elim
      exact ⟨rfl, ht.rested (by simp) rfl⟩
  · rw [if_neg hsmall, if_neg hsmall]
    exact h.refused _

theorem fulfils_download (data : List UInt8) :
    Fulfils V srv
      (Operation.writing srv target data (client.config.downloadMode data.length))
      (client.download srv.node.value target data w) := by
  rw [download]
  cases client.config.downloadMode data.length with
  | expedited => exact h.fulfils_downloadExpedited data
  | segmented => exact h.fulfils_downloadSegmented data
  | block => exact h.fulfils_downloadBlock data

theorem perform (op : Operation) :
    Fulfils V srv (op.outcome room client.config srv target)
      (client.perform srv.node.value target op w) := by
  cases op with
  | upload => exact h.fulfils_upload.map Value.bytes
  | uploadSegmented => exact h.fulfils_uploadSegmented.map Value.bytes
  | uploadBlock => exact h.fulfils_uploadBlock.map Value.bytes
  | uploadNumber => exact h.fulfils_uploadNumber.map Value.number
  | download data => exact (h.fulfils_download data).map fun _ => Value.done
  | downloadExpedited data => exact (h.fulfils_downloadExpedited data).map fun _ => Value.done
  | downloadSegmented data => exact (h.fulfils_downloadSegmented data).map fun _ => Value.done
  | downloadBlock data => exact (h.fulfils_downloadBlock data).map fun _ => Value.done
  | downloadNumber value size =>
    rw [Operation.outcome, Client.perform, downloadNumber]
    split
    · exact (h.fulfils_downloadExpedited _).map fun _ => Value.done
    · exact (h.refused _).map fun _ => Value.done

end Attends

end Client
end Canopen
