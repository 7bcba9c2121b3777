import Canopen.Proofs.Attachment
import Canopen.Proofs.Outcomes

set_option autoImplicit false

namespace Canopen

open Can (Message)
open Client
open Sdo (Address)
open Sdo.Traffic (NoAbort)

namespace Network

/-- A bus with a tap and with servers, one of which is alone at its node. -/
structure Hosts (n : Network) (tap : Nat) (before : List Server) (s : Server)
    (after : List Server) : Prop where
  connected : n.bus.connected = true
  attached : tap < n.bus.queues.length
  devices : n.bus.devices = (before ++ s :: after).map Device.server
  alone : ∀ t ∈ before ++ after, t.node ≠ s.node

def client (tap number : Nat) (config : Config) (valid : config.Valid) (patience : Nat) :
    Client Network :=
  { link := link tap number, config, valid, patience }

def line (n : Network) (tap : Nat) (s : Server) : Line :=
  { server := s, inbox := (n.bus.queues[tap]?).getD [], now := n.now }

variable {n : Network} {tap : Nat} {before after : List Server} {s : Server} (number : Nat)

theorem Hosts.shows (h : n.Hosts tap before s after) :
    Shows s.node tap number before after (n.requests s.node) n.warnings (n.resume number)
      (n.line tap s) := by
  refine ⟨h.connected, h.devices, rfl, ?_, ?_, rfl, ?_, ?_⟩
  · show n.bus.queues[tap]? = some ((n.bus.queues[tap]?).getD [])
    rw [List.getElem?_eq_getElem h.attached, Option.getD_some]
  · exact (List.append_nil _).symm
  · simp [resume]
  · exact (List.append_nil _).symm

theorem Hosts.perform (h : n.Hosts tap before s after) (config : Config) (valid : config.Valid)
    {switch : Bool} (faults : s.faults = { switchProtocol := switch }) (idle : s.state = .idle)
    {target : Address} {op : Operation} {v : Value} {srv : Server}
    (hv : op.verdict config s target = .ok (v, srv))
    (small : op.Fetches → ∀ object, s.objects.get? target = some object →
      object.length < sizeLimit)
    {patience : Nat} (hp : patienceFor config (n.line tap s) target 0 ≤ patience) :
    let o := (client tap number config valid patience).perform s.node.value target op n
    o.1 = .ok v ∧ ∃ received,
      Shows s.node tap number before after (n.requests s.node) n.warnings o.2
        { server := srv.during .idle received
          sent := op.traffic config s target
          now := n.now } := by
  have hnone : ∀ m : Line, m.countLost (fun _ => false) ≤ 0 := fun m => by simp [Line.countLost]
  have hready : Ready (Line.client {} config valid patience) (fun _ => false) (n.line tap s)
      switch 0 := ready config valid hp (by simp) hnone faults idle
  have hconcludes : Concludes (fun _ => false) (n.line tap s) config.retries.toNat
      (op.verdict config s target) (op.traffic config s target)
      ((Line.client {} config valid patience).perform s.node.value target op (n.line tap s)) :=
    hready.concludes op fun hop => takes config valid hp {} (small hop)
  have hfollows : Follows (Shows s.node tap number before after (n.requests s.node) n.warnings)
      ((client tap number config valid patience).perform s.node.value target op n)
      ((Line.client {} config valid patience).perform s.node.value target op (n.line tap s)) :=
    perform_follows (simulates h.alone) (h.shows number) target op
  rw [hv] at hconcludes
  obtain ⟨hresult, k, hend⟩ := hconcludes.lossless
  have hshows := hfollows.2 v (hfollows.1.trans hresult)
  rw [hend] at hshows
  exact ⟨hfollows.1.trans hresult, k, hshows⟩

/-- A download leaves the data, and nothing else is touched. -/
theorem download_stores (h : n.Hosts tap before s after) (config : Config) (valid : config.Valid)
    (faultless : s.faults = {}) (idle : s.state = .idle)
    (blockSize : 0 < s.blockSize.toNat ∧ s.blockSize.toNat ≤ 127) (target : Address)
    {op : Operation} {data : List UInt8} (writes : op.Writes data) :
    ∃ p, ∀ patience, p ≤ patience →
      let o := (client tap number config valid patience).perform s.node.value target op n
      o.1 = .ok .done ∧
      (∃ objects received,
        o.2.bus.devices =
          (before ++ { s with objects, received, state := .idle } :: after).map Device.server ∧
        objects.get? target = some data ∧
        ∀ a, a ≠ target → objects.get? a = s.objects.get? a) ∧
      o.2.requests s.node = n.requests s.node ++ op.traffic config s target ∧
      NoAbort (op.traffic config s target) := by
  refine ⟨patienceFor config (n.line tap s) target 0, fun patience hp => ?_⟩
  have hsmall : op.Fetches → ∀ object, s.objects.get? target = some object →
      object.length < sizeLimit := by
    intro hop
    cases op <;> first | exact writes.elim | exact hop.elim
  have hfaults : s.faults = { switchProtocol := false } := faultless
  obtain ⟨hresult, received, hshows⟩ := h.perform number config valid hfaults idle
    (Operation.verdict_of_writes writes blockSize) hsmall hp
  refine ⟨hresult, ⟨s.objects.set target data, received, hshows.devices, ?_, ?_⟩, hshows.sent, ?_⟩
  · exact s.objects.get?_set_self target data
  · exact fun a ha => s.objects.get?_set_of_ne ha data
  · exact Operation.noAbort_traffic_of_writes writes config target blockSize

theorem download_stores_beside_another_server :
    ∃ p, ∀ patience, p ≤ patience →
      let s : Server := { node := ⟨5, by decide, by decide⟩ }
      let t : Server := { node := ⟨6, by decide, by decide⟩ }
      let n : Network := { bus := { queues := [[]], devices := [.server t, .server s] } }
      ((client 0 0 {} (by decide) patience).perform 5 ⟨0x2000, 0⟩
        (.downloadBlock [1, 2, 3, 4, 5, 6, 7, 8]) n).1 = .ok .done := by
  let s : Server := { node := ⟨5, by decide, by decide⟩ }
  let t : Server := { node := ⟨6, by decide, by decide⟩ }
  let n : Network := { bus := { queues := [[]], devices := [.server t, .server s] } }
  have h : n.Hosts 0 [t] s [] := ⟨rfl, by decide, rfl, by decide⟩
  have hwrites : (Operation.downloadBlock [1, 2, 3, 4, 5, 6, 7, 8]).Writes
      [1, 2, 3, 4, 5, 6, 7, 8] := ⟨rfl, by decide⟩
  obtain ⟨p, hp⟩ := download_stores 0 h {} (by decide) rfl rfl (by decide) ⟨0x2000, 0⟩ hwrites
  exact ⟨p, fun patience hle => (hp patience hle).1⟩

/-- An upload gives the object, in whatever way the server chooses to send it. There is no
warning, so that no retry was needed. -/
theorem upload_returns_object (h : n.Hosts tap before s after) (config : Config)
    (valid : config.Valid) {switch : Bool} (faults : s.faults = { switchProtocol := switch })
    (idle : s.state = .idle) {target : Address} {object : List UInt8}
    (stored : s.objects.get? target = some object) (small : object.length < UInt32.size)
    {op : Operation} (reads : op.Reads) :
    ∃ p, ∀ patience, p ≤ patience →
      let o := (client tap number config valid patience).perform s.node.value target op n
      o.1 = .ok (.bytes object) ∧
      (∃ received, o.2.bus.devices =
        (before ++ { s with received, state := .idle } :: after).map Device.server) ∧
      o.2.requests s.node = n.requests s.node ++ op.traffic config s target ∧
      NoAbort (op.traffic config s target) ∧
      o.2.warnings = n.warnings ∧ o.2.now = n.now := by
  refine ⟨patienceFor config (n.line tap s) target 0, fun patience hp => ?_⟩
  have hsmall : op.Fetches → ∀ d, s.objects.get? target = some d → d.length < sizeLimit := by
    intro _ d hd
    rw [stored] at hd
    cases hd
    exact small
  obtain ⟨hresult, received, hshows⟩ := h.perform number config valid faults idle
    (Operation.verdict_of_reads reads stored) hsmall hp
  refine ⟨hresult, ⟨received, hshows.devices⟩, hshows.sent, ?_, ?_, hshows.now⟩
  · exact Operation.noAbort_traffic_of_reads reads config s target
  · exact hshows.warnings.trans (List.append_nil _)

theorem upload_returns_object_by_other_protocol :
    ∃ p, ∀ patience, p ≤ patience →
      let s : Server :=
        { node := ⟨5, by decide, by decide⟩
          objects := ⟨[(⟨0x2000, 0⟩, [1, 2, 3, 4, 5, 6, 7, 8])]⟩
          faults := { switchProtocol := true } }
      let n : Network := { bus := { queues := [[]], devices := [.server s] } }
      ((client 0 0 {} (by decide) patience).perform 5 ⟨0x2000, 0⟩ .uploadBlock n).1
        = .ok (.bytes [1, 2, 3, 4, 5, 6, 7, 8]) := by
  let s : Server :=
    { node := ⟨5, by decide, by decide⟩
      objects := ⟨[(⟨0x2000, 0⟩, [1, 2, 3, 4, 5, 6, 7, 8])]⟩
      faults := { switchProtocol := true } }
  let n : Network := { bus := { queues := [[]], devices := [.server s] } }
  have h : n.Hosts 0 [] s [] := ⟨rfl, by decide, rfl, by decide⟩
  have hstored : s.objects.get? ⟨0x2000, 0⟩ = some [1, 2, 3, 4, 5, 6, 7, 8] := by decide
  have hreads : Operation.uploadBlock.Reads := trivial
  obtain ⟨p, hp⟩ := upload_returns_object 0 h {} (by decide) rfl rfl hstored (by decide) hreads
  exact ⟨p, fun patience hle => (hp patience hle).1⟩

end Network
end Canopen
