import Canopen.Proofs.LossyBlockUploads
import Canopen.Proofs.LossyUploads
import Canopen.Proofs.Outcomes

set_option autoImplicit false

namespace Canopen.Client

open Sdo (Address)
open Transfer

def Operation.valueOf (object : List UInt8) : Operation → Value
  | uploadNumber => .number (wordOf (padTo 4 object))
  | _ => .bytes object

theorem Outcome.map_ok {σ α β : Type} {f : α → β} {o : Outcome σ α} {v : β}
    (h : (Outcome.map f o).1 = .ok v) : ∃ a, o.1 = .ok a ∧ f a = v := by
  obtain ⟨r, w⟩ := o
  cases r with
  | ok a => exact ⟨a, rfl, Except.ok.inj h⟩
  | error e => cases h

section
variable {x : Losses} {client : Client Line} (hc : client.link = Line.link x) {l : Line}
  (faultless : l.server.faults = {}) (idle : l.server.state = .idle) {target : Address}
include hc

theorem transfer_ends {α : Type} {direction : Direction} {mode : Mode}
    {work : Call Line → Transfer Line α} {Q : α → Session Line → Prop}
    (hw : Ends (work (client.call l.server.node target direction))
      ((client.call l.server.node target direction).start mode l) Q fun _ _ => True)
    {a : α} (h : (client.transfer l.server.node.value target direction mode work l).1 = .ok a) :
    ∃ t, Q a t ∧
      (client.transfer l.server.node.value target direction mode work l).2 = t.world := by
  rw [transfer_node] at h ⊢
  rcases Call.run_of_ends hc hw with ⟨b, t, hb, hrun⟩ | ⟨e, t, -, hrun⟩ | ⟨-, hrun⟩
  · rw [hrun] at h ⊢
    cases h
    exact ⟨t, hb, rfl⟩
  · rw [hrun] at h
    cases h
  · rw [hrun] at h
    cases h

theorem transfer_ok {α : Type} {direction : Direction} {mode : Mode}
    {work : Call Line → Transfer Line α} {P : α → Prop}
    (hw : Ends (work (client.call l.server.node target direction))
      ((client.call l.server.node target direction).start mode l) (fun a _ => P a)
      fun _ _ => True)
    {a : α} (h : (client.transfer l.server.node.value target direction mode work l).1 = .ok a) :
    P a := by
  obtain ⟨t, ha, -⟩ := transfer_ends hc hw h
  exact ha

include faultless

theorem exposed (direction : Direction) :
    (client.call l.server.node target direction).Exposed x l.server :=
  ⟨hc, rfl, faultless, Config.blockSize_of_valid client.valid⟩

include idle

theorem uploadSegmented_ok {data : List UInt8}
    (h : (client.uploadSegmented l.server.node.value target l).1 = .ok data) :
    l.server.objects.get? target = some data := by
  have hexposed : (client.call l.server.node target .upload).Exposed x l.server :=
    exposed hc faultless .upload
  have hrests := Call.rests_start (client.call l.server.node target .upload) .segmented idle
  cases hobject : l.server.objects.get? target with
  | none =>
    have hfalse : False :=
      transfer_ok hc (Call.ends_upload_missing_lossy hexposed hrests hobject) h
    exact hfalse.elim
  | some object =>
    have heq : data = object :=
      transfer_ok hc (Call.ends_upload_lossy hexposed hrests ⟨rfl, rfl, rfl⟩ hobject) h
    rw [heq]

theorem uploadBlock_ok
    (small : ∀ object, l.server.objects.get? target = some object → object.length < sizeLimit)
    {data : List UInt8} (h : (client.uploadBlock l.server.node.value target l).1 = .ok data) :
    l.server.objects.get? target = some data := by
  have hexposed : (client.call l.server.node target .upload).Exposed x l.server :=
    exposed hc faultless .upload
  have hrests := Call.rests_start (client.call l.server.node target .upload) .block idle
  cases hobject : l.server.objects.get? target with
  | none =>
    have hfalse : False :=
      transfer_ok hc (Call.ends_uploadBlock_missing_lossy hexposed hrests hobject) h
    exact hfalse.elim
  | some object =>
    have heq : data = object :=
      transfer_ok hc (Call.ends_uploadBlock_lossy hexposed hrests rfl (small object hobject)
        hobject) h
    rw [heq]

theorem upload_ok
    (small : ∀ object, l.server.objects.get? target = some object → object.length < sizeLimit)
    {data : List UInt8} (h : (client.upload l.server.node.value target l).1 = .ok data) :
    l.server.objects.get? target = some data := by
  rw [upload, Config.uploadMode] at h
  cases hprefer : client.config.preferBlock with
  | true =>
    rw [hprefer] at h
    exact uploadBlock_ok hc faultless idle small h
  | false =>
    rw [hprefer] at h
    exact uploadSegmented_ok hc faultless idle h

theorem uploadNumber_ok {value : UInt32}
    (h : (client.uploadNumber l.server.node.value target l).1 = .ok value) :
    ∃ data, l.server.objects.get? target = some data ∧ value = wordOf (padTo 4 data) := by
  have hupload := @uploadSegmented_ok x client hc l faultless idle target
  rw [uploadNumber] at h
  split at h
  · rename_i data w hdata
    split at h
    · rw [hdata] at hupload
      cases h
      exact ⟨data, hupload rfl, rfl⟩
    · cases h
  · cases h

end

/-- Whatever is lost, an upload gives the object at the address, or no value. -/
theorem upload_gives_object_or_fails (config : Config) (valid : config.Valid) (x : Losses)
    (patience : Nat) (l : Line) (faultless : l.server.faults = {})
    (idle : l.server.state = .idle) (target : Address)
    (small : ∀ object, l.server.objects.get? target = some object → object.length < UInt32.size)
    {op : Operation} (fetches : op.Fetches) {v : Value}
    (h : ((Line.client x config valid patience).perform l.server.node.value target op l).1
      = .ok v) :
    ∃ object, l.server.objects.get? target = some object ∧ v = op.valueOf object := by
  cases op with
  | upload =>
    obtain ⟨data, hdata, rfl⟩ := Outcome.map_ok h
    exact ⟨data, upload_ok rfl faultless idle small hdata, rfl⟩
  | uploadSegmented =>
    obtain ⟨data, hdata, rfl⟩ := Outcome.map_ok h
    exact ⟨data, uploadSegmented_ok rfl faultless idle hdata, rfl⟩
  | uploadBlock =>
    obtain ⟨data, hdata, rfl⟩ := Outcome.map_ok h
    exact ⟨data, uploadBlock_ok rfl faultless idle small hdata, rfl⟩
  | uploadNumber =>
    obtain ⟨value, hvalue, rfl⟩ := Outcome.map_ok h
    obtain ⟨data, hdata, rfl⟩ := uploadNumber_ok rfl faultless idle hvalue
    exact ⟨data, hdata, rfl⟩
  | _ => exact fetches.elim

theorem upload_gives_object_or_fails_in_blocks :
    let l : Line :=
      { server :=
          { node := ⟨5, by decide, by decide⟩
            objects := ⟨[(⟨0x2000, 0⟩, [1, 2, 3, 4, 5, 6, 7, 8, 9])]⟩ } }
    let x : Losses := { request := (· = 0), answer := fun i k => i = 2 ∧ k = 0 }
    let o := (Line.client x { timeoutMs := 1, pollIntervalUs := 1000 } (by decide) 20).perform 5
      ⟨0x2000, 0⟩ .uploadBlock l
    o.1.toOption = some (.bytes [1, 2, 3, 4, 5, 6, 7, 8, 9]) ∧
      ∃ object, l.server.objects.get? ⟨0x2000, 0⟩ = some object ∧
        Value.bytes [1, 2, 3, 4, 5, 6, 7, 8, 9] = Operation.uploadBlock.valueOf object := by
  intro l x o
  have hvalue : o.1.toOption = some (.bytes [1, 2, 3, 4, 5, 6, 7, 8, 9]) := by decide +kernel
  have hfetches : Operation.uploadBlock.Fetches := trivial
  have hsmall : ∀ object, l.server.objects.get? ⟨0x2000, 0⟩ = some object →
      object.length < UInt32.size := by
    intro object hobject
    cases hobject
    decide
  have hok : o.1 = .ok (.bytes [1, 2, 3, 4, 5, 6, 7, 8, 9]) := by
    cases hresult : o.1 with
    | ok v =>
      rw [hresult] at hvalue
      exact congrArg Except.ok (Option.some.inj hvalue)
    | error e =>
      rw [hresult] at hvalue
      cases hvalue
  exact ⟨hvalue, upload_gives_object_or_fails { timeoutMs := 1, pollIntervalUs := 1000 }
    (by decide) x 20 l rfl rfl ⟨0x2000, 0⟩ hsmall hfetches hok⟩

end Canopen.Client
