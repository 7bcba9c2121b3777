import Canopen.Proofs.Permanence
import Canopen.Proofs.Trace

/-!
Calls to a server that has seen other calls before, with any faults and whatever became of them.
Once it has no faults, the server is as good as new, but for one thing: while it awaits the segments
of a block, it takes every request for one of them.
-/

set_option autoImplicit false

namespace Canopen

open Can (Message)
open Client
open Sdo

/-- One call of a history, before which the server gets these faults. -/
structure Trial where
  faults : Server.Faults
  order : Order
  patience : Nat

def Server.fresh (s : Server) : Server :=
  { node := s.node, objects := s.objects, blockSize := s.blockSize, crc := s.crc }

/-- The server awaits the segments of a block, and the order is to send a request to it. -/
def Order.Barred (o : Order) (s : Server) : Prop :=
  (∃ b, s.state = .downloadBlock b) ∧ s.node.value = o.node ∧ o.op.refusal? = none

namespace Client.Operation

variable {room : Nat} {config : Config} {srv : Server} {target : Address} {op : Operation}

theorem writing_of_long {data : List UInt8} (h : ¬data.length < sizeLimit) (mode : Mode) :
    writing srv target data mode = (.error (.invalidDataLength data.length), srv.objects) := by
  have hlong : ¬(1 ≤ data.length ∧ data.length ≤ 4) := by
    have hlimit : 4 < sizeLimit := by decide
    omega
  cases mode with
  | expedited => simp only [writing, put, if_neg hlong]
  | segmented | block => simp only [writing, put, if_neg h]

theorem outcome_of_refused {e : Error} (h : op.refusal? = some e) :
    op.outcome room config srv target = (.error e, srv.objects) := by
  cases op with
  | upload | uploadSegmented | uploadBlock | uploadNumber => cases h
  | downloadExpedited data =>
    obtain ⟨hlong, he⟩ := Option.ite_none_left_eq_some.mp h
    cases he
    simp only [outcome, writing, put, if_neg hlong]
    rfl
  | download data | downloadSegmented data | downloadBlock data =>
    obtain ⟨hlong, he⟩ := Option.ite_none_left_eq_some.mp h
    cases he
    rw [outcome, writing_of_long hlong]
    rfl
  | downloadNumber value size =>
    obtain ⟨hlong, he⟩ := Option.ite_none_left_eq_some.mp h
    cases he
    exact if_neg hlong

section
variable {e : Error} (he : e.Astray)
include he

theorem reading_ne (valid : config.Valid) (mode : Mode) :
    reading 127 config srv target mode ≠ .error e := by
  intro h
  unfold reading at h
  cases hobject : srv.objects.get? target with
  | none =>
    rw [hobject] at h
    cases h
    exact he
  | some object =>
    rw [hobject] at h
    dsimp only at h
    rw [if_neg (roomy_of_valid valid mode object)] at h
    split at h
    · cases h
      exact he
    · cases h

theorem readingNumber_ne (valid : config.Valid) :
    readingNumber 127 config srv target ≠ .error e := by
  have hreading : reading 127 config srv target .segmented ≠ .error e :=
    reading_ne he valid .segmented
  intro h
  unfold readingNumber at h
  generalize reading 127 config srv target .segmented = r at h hreading
  cases r with
  | ok object =>
    dsimp only at h
    split at h
    · cases h
    · cases h
      exact he
  | error e' =>
    cases h
    exact hreading rfl

theorem writing_ne (data : List UInt8) (mode : Mode) :
    (outcome.written (writing srv target data mode)).1 ≠ .error e := by
  have hput : put srv target data mode ≠ .error e := put_ne he
  refine map_ne_error ?_
  unfold writing
  cases hr : put srv target data mode with
  | ok r => exact nofun
  | error e' =>
    rw [hr] at hput
    intro h
    cases h
    exact hput rfl

theorem outcome_ne (valid : config.Valid) : (op.outcome 127 config srv target).1 ≠ .error e := by
  cases op with
  | upload | uploadSegmented | uploadBlock => exact map_ne_error (reading_ne he valid _)
  | uploadNumber => exact map_ne_error (readingNumber_ne he valid)
  | downloadNumber value size =>
    rw [outcome]
    split
    · exact writing_ne he _ _
    · intro h
      cases h
      exact he
  | _ => exact writing_ne he _ _

end

end Client.Operation

theorem Order.settle_ne {o : Order} {s : Server} (hnode : s.node.value = o.node) {e : Error}
    (he : e.Astray) : (o.settle 127 [s]).1.mapError Stop.failed ≠ .error (.failed e) := by
  rw [settle, if_pos hnode]
  exact mapError_failed_ne (Operation.outcome_ne he o.valid)

namespace Plant

def setFaults (p : Plant) (faults : Server.Faults) : Plant :=
  p.mapNetwork fun n => n.mapServer 0 fun s => { s with faults }

def undergo (p : Plant) (t : Trial) : Plant :=
  ((p.setFaults t.faults).perform t.patience t.order).2

/-- The plant behind a history of calls, with a server that has no faults any more. -/
def aftermath (p : Plant) (history : List Trial) : Plant :=
  (history.foldl undergo p).setFaults {}

variable {share : Bool} {clients : Nat} {s : Server} {p : Plant}

theorem Runs.setFaults (h : p.Runs share clients [s]) (faults : Server.Faults) :
    (p.setFaults faults).Runs share clients [{ s with faults }] := by
  refine ⟨h.seats, h.connected, ?_, h.taps, h.calm, h.channels⟩
  show p.network.bus.devices.modify 0 _ = _
  rw [h.devices]
  rfl

theorem Runs.perform_maintains (h : p.Runs false clients [s]) (patience : Nat) (o : Order) :
    ∃ s', (p.perform patience o).2.Runs false clients [s'] ∧ s'.settings = s.settings := by
  by_cases ho : o.client < clients
  · have hhouses : p.hub.world.Houses clients s.settings :=
      ⟨h.connected, h.taps, h.calm, s, h.devices, rfl⟩
    have hmaintains : (seated false patience o).link.Maintains
        fun f => f.world.Houses clients s.settings :=
      Network.maintains_beneath o.client o.client
    obtain ⟨hconnected, htaps, hcalm, s', hdevices, hsettings⟩ :=
      Client.perform_maintains hmaintains hhouses o.node o.target o.op
    rw [h.perform_eq ho]
    exact ⟨s', ⟨h.seats, hconnected, hdevices, htaps, hcalm, nofun⟩, hsettings⟩
  · have hnone : p.seats[o.client]? = none := by
      rw [h.seats, List.getElem?_eq_none_iff, List.length_map, List.length_range]
      exact Nat.le_of_not_lt ho
    rw [perform, hnone]
    exact ⟨s, h, rfl⟩

theorem Runs.undergo (h : p.Runs false clients [s]) (t : Trial) :
    ∃ s', (p.undergo t).Runs false clients [s'] ∧ s'.settings = s.settings :=
  (h.setFaults t.faults).perform_maintains t.patience t.order

theorem Runs.aftermath (h : p.Runs false clients [s]) (history : List Trial) :
    ∃ s', (p.aftermath history).Runs false clients [s'] ∧ s'.settings = s.settings ∧
      s'.faults = {} := by
  induction history generalizing p s with
  | nil => exact ⟨_, h.setFaults {}, rfl, rfl⟩
  | cons t history ih =>
    obtain ⟨t', ht, hsettings⟩ := h.undergo t
    obtain ⟨s', hs', hsettings', hfaults⟩ := ih ht
    exact ⟨s', hs', hsettings'.trans hsettings, hfaults⟩

variable {o : Order}

theorem Runs.perform_refused (h : p.Runs share clients [s]) (ho : o.client < clients) {e : Error}
    (he : o.op.refusal? = some e) (patience : Nat) :
    p.perform patience o = (.error (.failed e), p) := by
  rw [h.perform_eq ho]
  rcases begins_perform (seated share patience o) o.node o.target o.op with
    ⟨e', he', hrun⟩ | ⟨hnone, -⟩
  · obtain rfl : e = e' := Option.some.inj (he.symm.trans he')
    rw [hrun]
  · rw [he] at hnone
    cases hnone

theorem Runs.perform_unbarred (h : p.Runs false clients [s]) (hf : s.faults = {})
    (ho : o.client < clients) (interval : 0 < o.config.pollInterval) (hb : ¬o.Barred s) :
    ∃ least, ∀ patience, least ≤ patience →
      let r := o.settle 127 [s.renewed]
      (p.perform patience o).1 = r.1.mapError .failed ∧
        (p.perform patience o).2.objects = r.2.map fun s => (s.node, s.objects) := by
  by_cases hawaits : ∃ b, s.state = .downloadBlock b
  · by_cases hnode : s.node.value = o.node
    · cases he : o.op.refusal? with
      | none => exact absurd ⟨hawaits, hnode, he⟩ hb
      | some e =>
        have hsettle : o.settle 127 [s.renewed] = (.error e, [s.renewed]) := by
          have hnode' : s.renewed.node.value = o.node := hnode
          rw [Order.settle, if_pos hnode', Operation.outcome_of_refused he]
        refine ⟨0, fun patience _ => ?_⟩
        rw [h.perform_refused ho he, hsettle]
        exact ⟨rfl, h.objects_eq⟩
    · have habsent : ∀ t ∈ [s], t.node.value ≠ o.node := List.forall_mem_singleton.mpr hnode
      have hsettle : o.settle 127 [s.renewed] = (.error o.unanswered, [s.renewed]) :=
        Order.settle_absent (List.forall_mem_singleton.mpr hnode)
      obtain ⟨least, hleast⟩ := h.perform_absent ho interval habsent
      refine ⟨least, fun patience hp => ?_⟩
      obtain ⟨hresult, hruns⟩ := hleast patience hp
      rw [hsettle]
      exact ⟨hresult, hruns.objects_eq⟩
  · have happroachable : s.Approachable := ⟨hf, fun b hs => hawaits ⟨b, hs⟩⟩
    have hoffers : p.Offers false clients [s.renewed] :=
      ⟨[s], h, rfl, List.forall_mem_singleton.mpr happroachable⟩
    obtain ⟨least, hleast⟩ := hoffers.perform (List.pairwise_singleton _ _) ho interval
    refine ⟨least, fun patience hp => ?_⟩
    obtain ⟨hresult, hoffers'⟩ := hleast patience hp
    exact ⟨hresult, hoffers'.objects_eq⟩

theorem Runs.perform_barred (h : p.Runs false clients [s]) (hf : s.faults = {})
    (ho : o.client < clients) (interval : 0 < o.config.pollInterval) (hb : o.Barred s) :
    ∃ least, ∀ patience, least ≤ patience →
      ((p.perform patience o).1 = .error (.failed (.timeout (1 + o.config.retries))) ∨
        (p.perform patience o).1 = .error (.failed .unexpectedResponse)) ∧
        (p.perform patience o).2.objects = p.objects := by
  obtain ⟨hstate, hnode, hasked⟩ := hb
  let stand : Server → List Server := fun t => [t]
  let K : Server → Prop := (·.node = s.node)
  have halone : ∀ t ∈ ([] : List Server) ++ [], t.node ≠ s.node :=
    fun _ ht => absurd ht List.not_mem_nil
  have hanswering : Network.Answering s.node K stand := Network.answering_beside halone
  obtain ⟨ms, hv⟩ := h.view K stand ho rfl rfl
  refine ⟨ms.length + o.config.timeout + 1, fun patience hp => ?_⟩
  have hreaches : (seated false patience o).Reaches (room false)
      (View false clients K stand o.client) p.hub s :=
    { link := prompt false clients hanswering o.client
      roomy := by decide
      interval
      flushes := ⟨ms, hv, show ms.length < patience by omega⟩
      waits := show o.config.timeout < patience by omega }
  have hneglected := hreaches.neglected o.target (Server.shuns_of_downloadBlock hf) hstate o.op
  rw [hnode] at hneglected
  rw [h.perform_eq ho]
  rcases hneglected with ⟨e, he, -⟩ | ⟨-, ⟨hr, state, k, -, hv'⟩ | ⟨hr, -, last, k, hv'⟩⟩
  · rw [hasked] at he
    cases he
  · have hruns := Runs.of_view hv' h.seats
    refine ⟨.inl hr, ?_⟩
    rw [hruns.objects_eq, h.objects_eq]
    rfl
  · have hruns := Runs.of_view hv' h.seats
    refine ⟨.inr hr, ?_⟩
    rw [hruns.objects_eq, h.objects_eq]
    rfl

/-- Once it has no faults, a server that has seen any history of calls is as good as a fresh one,
unless it takes the request for a segment of a block. Such a call fails and leaves the objects. -/
theorem aftermath_as_fresh (s₀ : Server) (clients : Nat) (history : List Trial) :
    let p := (build [s₀] clients false).aftermath history
    ∃ s, p.network.servers = [s] ∧ s.settings = s₀.settings ∧ s.faults = {} ∧
      ∀ o : Order, o.client < clients → 0 < o.config.pollInterval →
        ∃ least, ∀ patience, least ≤ patience →
          let a := p.perform patience o
          let b := (build [s.fresh] clients false).perform patience o
          b.1 ≠ .error .unfinished ∧
          (¬o.Barred s → a.1 = b.1 ∧ a.2.objects = b.2.objects) ∧
          (o.Barred s →
            (a.1 = .error (.failed (.timeout (1 + o.config.retries))) ∨
              a.1 = .error (.failed .unexpectedResponse)) ∧
            a.1 ≠ b.1 ∧ a.2.objects = p.objects) := by
  obtain ⟨s, hruns, hsettings, hf⟩ := (runs_build [s₀] clients false).aftermath history
  refine ⟨s, hruns.servers_eq, hsettings, hf, fun o ho interval => ?_⟩
  have hfresh : s.fresh.renewed = s.renewed := by
    rw [Server.renewed, Server.renewed, hf]
    rfl
  have hidle : ¬o.Barred s.fresh := by
    intro hb
    obtain ⟨⟨b, hb⟩, -⟩ := hb
    cases hb
  obtain ⟨leastB, hleastB⟩ :=
    (runs_build [s.fresh] clients false).perform_unbarred rfl ho interval hidle
  rw [hfresh] at hleastB
  by_cases hb : o.Barred s
  · obtain ⟨leastA, hleastA⟩ := hruns.perform_barred hf ho interval hb
    refine ⟨max leastA leastB, fun patience hp => ?_⟩
    obtain ⟨hresultA, hobjectsA⟩ := hleastA patience (Nat.le_trans (Nat.le_max_left _ _) hp)
    obtain ⟨hresultB, -⟩ := hleastB patience (Nat.le_trans (Nat.le_max_right _ _) hp)
    have hnode : s.renewed.node.value = o.node := hb.2.1
    refine ⟨hresultB ▸ mapError_failed_ne_unfinished, fun hnot => absurd hb hnot,
      fun _ => ⟨hresultA, ?_, hobjectsA⟩⟩
    have hlate : (Error.timeout (1 + o.config.retries)).Astray := trivial
    have hwrong : Error.unexpectedResponse.Astray := trivial
    rw [hresultB]
    rcases hresultA with hr | hr
    · rw [hr]
      exact (Order.settle_ne hnode hlate).symm
    · rw [hr]
      exact (Order.settle_ne hnode hwrong).symm
  · obtain ⟨leastA, hleastA⟩ := hruns.perform_unbarred hf ho interval hb
    refine ⟨max leastA leastB, fun patience hp => ?_⟩
    obtain ⟨hresultA, hobjectsA⟩ := hleastA patience (Nat.le_trans (Nat.le_max_left _ _) hp)
    obtain ⟨hresultB, hobjectsB⟩ := hleastB patience (Nat.le_trans (Nat.le_max_right _ _) hp)
    exact ⟨hresultB ▸ mapError_failed_ne_unfinished,
      fun _ => ⟨hresultA.trans hresultB.symm, hobjectsA.trans hobjectsB.symm⟩,
      fun hbarred => absurd hbarred hb⟩

theorem aftermath_as_fresh_within_upload :
    let s₀ : Server :=
      { node := ⟨5, by decide, by decide⟩
        objects := ⟨[(⟨0x2000, 0⟩, [1, 2, 3, 4, 5, 6, 7, 8])]⟩ }
    let upload : Order :=
      { client := 0, config := { retries := 0, timeoutMs := 1, pollIntervalUs := 1000 }
        valid := by decide, node := 5, target := ⟨0x2000, 0⟩, op := .uploadBlock }
    let p := (build [s₀] 1 false).aftermath
      [{ faults := { loseUploadSegment := some 1 }, order := upload, patience := 10 }]
    ∃ s, p.network.servers = [s] ∧ (∃ b, s.state = .uploadBlock b) ∧
      ∃ least, ∀ patience, least ≤ patience →
        (p.perform patience upload).1 = ((build [s.fresh] 1 false).perform patience upload).1 := by
  intro s₀ upload p
  obtain ⟨s, hs, -, -, h⟩ := aftermath_as_fresh s₀ 1
    [{ faults := { loseUploadSegment := some 1 }, order := upload, patience := 10 }]
  have hstates : p.network.servers.map Server.state =
      [.uploadBlock (.blockAt ⟨0x2000, 0⟩ true 127 [1, 2, 3, 4, 5, 6, 7, 8] 0)] := by
    decide +kernel
  have hstate : s.state =
      .uploadBlock (.blockAt ⟨0x2000, 0⟩ true 127 [1, 2, 3, 4, 5, 6, 7, 8] 0) := by
    rw [hs] at hstates
    exact (List.cons.inj hstates).1
  have hfree : ¬upload.Barred s := by
    intro hb
    obtain ⟨⟨b, hb⟩, -⟩ := hb
    rw [hstate] at hb
    cases hb
  obtain ⟨least, hleast⟩ := h upload (by decide) (by decide)
  exact ⟨s, hs, ⟨_, hstate⟩, least, fun patience hp => ((hleast patience hp).2.1 hfree).1⟩

/-- The last segment of a block was lost, so that the server awaits it when the next call comes. -/
theorem upload_times_out_behind_lost_segment :
    let s : Server :=
      { node := ⟨5, by decide, by decide⟩, objects := ⟨[(⟨0x2000, 0⟩, [1])]⟩ }
    let config : Config := { retries := 0, timeoutMs := 1, pollIntervalUs := 1000 }
    let download : Order :=
      { client := 0, config, valid := by decide, node := 5, target := ⟨0x2000, 0⟩
        op := .downloadBlock [2] }
    let upload : Order := { download with op := .upload }
    let p := (build [s] 1 false).aftermath
      [{ faults := { loseDownloadSegment := some 1 }, order := download, patience := 10 }]
    (p.perform 10 upload).1 = .error (.failed (.timeout 1)) ∧
      ((build [s.fresh] 1 false).perform 10 upload).1 = .ok (.bytes [1]) ∧
      p.objects = (build [s.fresh] 1 false).objects := by
  decide +kernel

end Plant

end Canopen
