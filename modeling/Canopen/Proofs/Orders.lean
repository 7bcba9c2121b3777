import Canopen.Proofs.Openings
import Canopen.Proofs.Ports

set_option autoImplicit false

namespace Canopen

open Can (Message)
open Client
open Sdo

/-- A server without faults that awaits no blocks. -/
structure Server.Approachable (s : Server) : Prop where
  faults : s.faults = {}
  awaits : ∀ b, s.state ≠ .downloadBlock b

theorem Server.approachable_of_idle {s : Server} (hf : s.faults = {}) (hs : s.state = .idle) :
    s.Approachable := by
  refine ⟨hf, fun b => ?_⟩
  rw [hs]
  exact nofun

theorem mapError_failed_ne_unfinished {α : Type} {x : Except Error α} :
    x.mapError Stop.failed ≠ .error .unfinished := by
  cases x with
  | ok a => exact nofun
  | error e => exact nofun

theorem mapError_failed_ne {α : Type} {x : Except Error α} {e : Error} (h : x ≠ .error e) :
    x.mapError Stop.failed ≠ .error (.failed e) := by
  intro he
  cases x with
  | ok a => cases he
  | error e' =>
    cases he
    exact h rfl

theorem NodeId.value_injective {a b : NodeId} (h : a.value = b.value) : a = b :=
  Option.some.inj (by rw [← a.ofByte?_value, ← b.ofByte?_value, h])

/-- What a client of a plant is asked for. -/
structure Order where
  client : Nat
  config : Config
  valid : config.Valid
  node : UInt8
  target : Address
  op : Operation

namespace Order

def unanswered (o : Order) : Error :=
  o.op.refusal?.getD (match NodeId.ofByte? o.node with
    | some _ => .timeout (1 + o.config.retries)
    | none => .invalidNodeId o.node)

/-- What an order is to come to and what the servers are to offer then, if so many frames of an
answer stay. -/
def settle (room : Nat) (o : Order) : List Server → Except Error Value × List Server
  | [] => (.error o.unanswered, [])
  | s :: servers =>
    if s.node.value = o.node then
      let r := o.op.outcome room o.config s o.target
      (r.1, { s with objects := r.2 } :: servers)
    else
      let r := settle room o servers
      (r.1, s :: r.2)

variable {room : Nat} {o : Order}

theorem settle_absent {servers : List Server} (h : ∀ t ∈ servers, t.node.value ≠ o.node) :
    o.settle room servers = (.error o.unanswered, servers) := by
  induction servers with
  | nil => rfl
  | cons t servers ih =>
    rw [List.forall_mem_cons] at h
    rw [settle, if_neg h.1, ih h.2]

theorem settle_beside {before after : List Server} {s : Server}
    (h : ∀ t ∈ before, t.node.value ≠ o.node) (hs : s.node.value = o.node) :
    o.settle room (before ++ s :: after) =
      let r := o.op.outcome room o.config s o.target
      (r.1, before ++ { s with objects := r.2 } :: after) := by
  induction before with
  | nil => rw [List.nil_append, settle, if_pos hs]; rfl
  | cons t before ih =>
    rw [List.forall_mem_cons] at h
    rw [List.cons_append, settle, if_neg h.1, ih h.2]
    rfl

theorem map_node_settle (servers : List Server) :
    (o.settle room servers).2.map Server.node = servers.map Server.node := by
  induction servers with
  | nil => rfl
  | cons s servers ih =>
    rw [settle]
    split
    · rfl
    · exact congrArg (s.node :: ·) ih

end Order

namespace Plant

/-- A client carries out an order at its seat. -/
def perform (p : Plant) (patience : Nat) (o : Order) : Except Stop Value × Plant :=
  match p.seats[o.client]? with
  | some seat =>
    let client : Client (Fanout Network) :=
      { link := link o.client seat, config := o.config, valid := o.valid, patience }
    let (r, hub) := client.perform o.node o.target o.op p.hub
    (r, { p with hub })
  | none => (.error .unfinished, p)

def seat (share : Bool) (client : Nat) : Seat := if share then .channel 0 client else .tap client

def room (share : Bool) : Nat := if share then Channel.depth else 127

/-- What a client sees from its seat. -/
def View (share : Bool) (clients : Nat) (K : Server → Prop) (stand : Server → List Server)
    (client : Nat) : Fanout Network → Server → List Message → Prop :=
  if share then Fanout.View (Network.View K stand 1 0) clients client
  else fun f => Network.View K stand clients client f.world

theorem prompt (share : Bool) (clients : Nat) {node : NodeId} {K : Server → Prop}
    {stand : Server → List Server} (ha : Network.Answering node K stand) (client : Nat) :
    (link client (seat share client)).Prompt node (room share)
      (View share clients K stand client) := by
  cases share with
  | false => exact Fanout.prompt_beneath (Network.prompt ha client)
  | true =>
    refine Fanout.prompt_link (Network.prompt ha client) (by decide) fun {w srv ms} hv => ?_
    show ms.length ≤ ((w.bus.queues[0]?).getD []).length
    rw [hv.queue]
    exact Nat.le_refl _

/-- A plant in working order with these servers. -/
structure Runs (share : Bool) (clients : Nat) (servers : List Server) (p : Plant) : Prop where
  seats : p.seats = (List.range clients).map (seat share)
  connected : p.network.bus.connected = true
  devices : p.network.bus.devices = servers.map Network.Device.server
  taps : p.network.bus.queues.length = if share then 1 else clients
  calm : p.network.cancelled = []
  channels : share = true → p.hub.channels.length = clients ∧ ∀ c ∈ p.hub.channels, c.isLive = true

variable {share : Bool} {clients : Nat} {servers : List Server} {p : Plant} {K : Server → Prop}
variable {stand : Server → List Server} {s : Server} {client : Nat}

theorem Runs.view (K : Server → Prop) (stand : Server → List Server)
    (h : p.Runs share clients servers) (hclient : client < clients) (hs : servers = stand s)
    (hk : K s) : ∃ ms, View share clients K stand client p.hub s ms := by
  cases share with
  | false =>
    have hlt : client < p.network.bus.queues.length := Nat.lt_of_lt_of_eq hclient h.taps.symm
    exact ⟨_, h.connected, hs ▸ h.devices, hk, h.taps, List.getElem?_eq_getElem hlt, h.calm⟩
  | true =>
    obtain ⟨hcount, hlive⟩ := h.channels rfl
    have htap : 0 < p.network.bus.queues.length := Nat.lt_of_lt_of_eq Nat.zero_lt_one h.taps.symm
    have hlt : client < p.hub.channels.length := Nat.lt_of_lt_of_eq hclient hcount.symm
    obtain ⟨queue, hqueue⟩ : ∃ queue, p.hub.channels[client] = .live queue := by
      have hopen := hlive _ (List.getElem_mem hlt)
      generalize p.hub.channels[client] = c at hopen
      cases c with
      | live queue => exact ⟨queue, rfl⟩
      | closed | removed => cases hopen
    refine ⟨_, queue, _, ?_, ⟨h.connected, hs ▸ h.devices, hk, h.taps,
      List.getElem?_eq_getElem htap, h.calm⟩, rfl, hlive, hcount⟩
    rw [List.getElem?_eq_getElem hlt, hqueue]

theorem Runs.of_view {hub : Fanout Network} {ms : List Message}
    (h : View share clients K stand client hub s ms)
    (hseats : p.seats = (List.range clients).map (seat share)) :
    ({ p with hub } : Plant).Runs share clients (stand s) := by
  cases share with
  | false =>
    have hv : Network.View K stand clients client hub.world s ms := h
    exact ⟨hseats, hv.connected, hv.devices, hv.attached, hv.calm, nofun⟩
  | true =>
    obtain ⟨queue, arrived, -, hv, -, hlive, hcount⟩ := h
    exact ⟨hseats, hv.connected, hv.devices, hv.attached, hv.calm, fun _ => ⟨hcount, hlive⟩⟩

theorem Runs.servers_eq (h : p.Runs share clients servers) : p.network.servers = servers := by
  rw [Network.servers, h.devices, List.filterMap_map]
  exact List.filterMap_some

theorem Runs.seatAlone (h : p.Runs false clients servers) :
    p.seatAlone.Runs false (clients + 1) servers := by
  refine ⟨?_, h.connected, h.devices, ?_, h.calm, nofun⟩
  · have htap : p.network.bus.queues.length = clients := h.taps
    show p.seats ++ [Seat.tap p.network.bus.queues.length] = _
    rw [h.seats, htap, List.range_succ, List.map_append]
    rfl
  · show (p.network.bus.queues ++ [[]]).length = clients + 1
    rw [List.length_append, h.taps]
    rfl

theorem Runs.seatAt (h : p.Runs true clients servers) :
    (seatAt 0 p).Runs true (clients + 1) servers := by
  obtain ⟨hcount, hlive⟩ := h.channels rfl
  refine ⟨?_, h.connected, h.devices, h.taps, h.calm, fun _ => ⟨?_, fun c hc => ?_⟩⟩
  · show p.seats ++ [Seat.channel 0 p.hub.channels.length] = _
    rw [h.seats, hcount, List.range_succ, List.map_append]
    rfl
  · exact List.length_append.trans (congrArg (· + 1) hcount)
  · rcases List.mem_append.mp hc with hc | hc
    · exact hlive c hc
    · rw [List.mem_singleton.mp hc]
      rfl

theorem devices_attach (servers : List Server) (n : Network) :
    servers.foldl (fun n s => n.attach (.server s)) n =
      { n with bus := { n.bus with
        devices := n.bus.devices ++ servers.map Network.Device.server } } := by
  induction servers generalizing n with
  | nil => simp
  | cons s servers ih =>
    rw [List.foldl_cons, ih]
    simp [Network.attach, Bus.attachDevice]

theorem runs_build (servers : List Server) (clients : Nat) (share : Bool) :
    (build servers clients share).Runs share clients servers := by
  have hn := devices_attach servers {}
  unfold build
  rw [hn]
  cases share with
  | false =>
    rw [if_neg Bool.false_ne_true]
    induction clients with
    | zero => exact ⟨rfl, rfl, List.nil_append _, rfl, rfl, nofun⟩
    | succ clients ih => exact ih.seatAlone
  | true =>
    rw [if_pos rfl]
    induction clients with
    | zero => exact ⟨rfl, rfl, List.nil_append _, rfl, rfl, fun _ => ⟨rfl, nofun⟩⟩
    | succ clients ih => exact ih.seatAt

def Offers (share : Bool) (clients : Nat) (stock : List Server) (p : Plant) : Prop :=
  ∃ servers, p.Runs share clients servers ∧ servers.map Server.renewed = stock ∧
    ∀ s ∈ servers, s.Approachable

def seated (share : Bool) (patience : Nat) (o : Order) : Client (Fanout Network) :=
  { link := link o.client (seat share o.client), config := o.config, valid := o.valid, patience }

theorem Runs.perform_eq (h : p.Runs share clients servers) {o : Order} (ho : o.client < clients)
    (patience : Nat) :
    let r := (Plant.seated share patience o).perform o.node o.target o.op p.hub
    p.perform patience o = (r.1, { p with hub := r.2 }) := by
  have hseat : p.seats[o.client]? = some (seat share o.client) := by
    rw [h.seats, List.getElem?_map, List.getElem?_range ho, Option.map_some]
  rw [Plant.perform, hseat]
  rfl

theorem Runs.perform_beside {before after : List Server}
    (h : p.Runs share clients (before ++ s :: after))
    (alone : ∀ t ∈ before ++ after, t.node ≠ s.node) (hs : s.Approachable) {o : Order}
    (ho : o.client < clients) (interval : 0 < o.config.pollInterval)
    (hnode : s.node.value = o.node) :
    ∃ least, ∀ patience, least ≤ patience →
      let r := o.op.outcome (room share) o.config s o.target
      (p.perform patience o).1 = r.1.mapError .failed ∧
        ∃ s', (p.perform patience o).2.Runs share clients (before ++ s' :: after) ∧
          s'.renewed = { s.renewed with objects := r.2 } ∧ s'.Approachable := by
  let stand : Server → List Server := fun t => before ++ t :: after
  obtain ⟨ms, hv⟩ := h.view (·.node = s.node) stand ho rfl rfl
  refine ⟨ms.length + o.config.timeout + o.config.retries.toNat
    + segmentCount ((s.objects.get? o.target).getD []) + 1, fun patience hp => ?_⟩
  have hattends : (Plant.seated share patience o).Attends (room share)
      (View share clients (·.node = s.node) stand o.client) p.hub s o.target :=
    { link := prompt share clients (Network.answering_beside alone) o.client
      roomy := by cases share <;> decide
      interval
      flushes := ⟨ms, hv, show ms.length < patience by omega⟩
      waits := show o.config.timeout < patience by omega
      faults := hs.faults
      awaits := hs.awaits
      takes := by
        intro object hobject
        rw [hobject, Option.getD_some] at hp
        show segmentCount object + o.config.retries.toNat < patience
        omega }
  obtain ⟨hresult, s', ms', hv', hrenewed, hawaits⟩ := hattends.perform o.op
  rw [hnode] at hresult hv'
  rw [h.perform_eq ho]
  refine ⟨hresult, s', Runs.of_view hv' h.seats, hrenewed, ?_, hawaits⟩
  have hfaults : s'.renewed.faults = s.faults := by rw [hrenewed]; rfl
  exact hfaults.trans hs.faults

theorem Runs.perform_absent (h : p.Runs share clients servers) {o : Order} (ho : o.client < clients)
    (interval : 0 < o.config.pollInterval) (absent : ∀ t ∈ servers, t.node.value ≠ o.node) :
    ∃ least, ∀ patience, least ≤ patience →
      (p.perform patience o).1 = .error (.failed o.unanswered) ∧
        (p.perform patience o).2.Runs share clients servers := by
  unfold Order.unanswered
  cases hnode : NodeId.ofByte? o.node with
  | none =>
    refine ⟨0, fun patience _ => ?_⟩
    rw [h.perform_eq ho, perform_of_invalid hnode]
    exact ⟨rfl, h⟩
  | some node =>
    -- As if there were a server at the node that says nothing.
    let silent : Server := { node, faults := { silent := true } }
    let stand : Server → List Server := fun _ => servers
    let K : Server → Prop := fun s => s.node = node ∧ s.faults.silent = true
    have hvalue : node.value = o.node := NodeId.value_of_ofByte? hnode
    have hanswering : Network.Answering node K stand :=
      Network.answering_absent fun t ht he => absent t ht (he ▸ hvalue)
    obtain ⟨ms, hv⟩ := h.view K stand (s := silent) ho rfl ⟨rfl, rfl⟩
    refine ⟨ms.length + o.config.timeout + 1, fun patience hp => ?_⟩
    have hreaches : (Plant.seated share patience o).Reaches (room share)
        (View share clients K stand o.client) p.hub silent :=
      { link := prompt share clients hanswering o.client
        roomy := by cases share <;> decide
        interval
        flushes := ⟨ms, hv, show ms.length < patience by omega⟩
        waits := show o.config.timeout < patience by omega }
    have hneglected := hreaches.neglected o.target
      (Server.shuns_of_silent (s := silent) rfl .idle) rfl o.op
    have hsilent : silent.node.value = o.node := hvalue
    rw [hsilent] at hneglected
    rw [h.perform_eq ho]
    rcases hneglected with ⟨e, he, hperform⟩ | ⟨he, ⟨hr, state, k, -, hv'⟩ | ⟨-, hf, -⟩⟩
    · rw [hperform, he]
      exact ⟨rfl, h⟩
    · rw [he]
      exact ⟨hr, Runs.of_view hv' h.seats⟩
    · cases hf

theorem Offers.perform {stock : List Server} (h : p.Offers share clients stock)
    (distinct : (stock.map Server.node).Nodup) {o : Order} (ho : o.client < clients)
    (interval : 0 < o.config.pollInterval) :
    ∃ least, ∀ patience, least ≤ patience →
      let r := o.settle (room share) stock
      (p.perform patience o).1 = r.1.mapError .failed ∧
        (p.perform patience o).2.Offers share clients r.2 := by
  obtain ⟨servers, hruns, rfl, happroachable⟩ := h
  by_cases hpresent : ∃ s ∈ servers, s.node.value = o.node
  · obtain ⟨s, hs, hnode⟩ := hpresent
    obtain ⟨before, after, rfl⟩ := List.append_of_mem hs
    have hnodes : ((before ++ s :: after).map Server.node).Nodup := by
      rw [List.map_map] at distinct
      exact distinct
    have hnew : s.node ∉ (before ++ after).map Server.node := by
      rw [(List.perm_middle.map _).nodup_iff, List.map_cons, List.nodup_cons] at hnodes
      exact hnodes.1
    have halone : ∀ t ∈ before ++ after, t.node ≠ s.node :=
      fun t ht he => hnew (he ▸ List.mem_map_of_mem ht)
    obtain ⟨least, hleast⟩ :=
      hruns.perform_beside halone (happroachable s hs) ho interval hnode
    have hsettle : o.settle (room share) ((before ++ s :: after).map Server.renewed) =
        let r := o.op.outcome (room share) o.config s o.target
        (r.1, before.map Server.renewed ++ { s.renewed with objects := r.2 }
          :: after.map Server.renewed) := by
      have hbefore : ∀ t ∈ before.map Server.renewed, t.node.value ≠ o.node := by
        intro t ht he
        obtain ⟨u, hu, rfl⟩ := List.mem_map.mp ht
        exact halone u (List.mem_append_left _ hu) (NodeId.value_injective (he.trans hnode.symm))
      have hrenewed : s.renewed.node.value = o.node := hnode
      rw [List.map_append, List.map_cons, Order.settle_beside hbefore hrenewed,
        Operation.outcome_renewed]
    refine ⟨least, fun patience hp => ?_⟩
    obtain ⟨hresult, s', hruns', hrenewed, hs'⟩ := hleast patience hp
    rw [hsettle]
    refine ⟨hresult, _, hruns', ?_, fun t ht => ?_⟩
    · rw [List.map_append, List.map_cons, hrenewed]
    · rcases List.mem_append.mp ht with ht | ht
      · exact happroachable t (List.mem_append_left _ ht)
      · rcases List.mem_cons.mp ht with rfl | ht
        · exact hs'
        · exact happroachable t (List.mem_append_right _ (List.mem_cons_of_mem _ ht))
  · have habsent : ∀ t ∈ servers, t.node.value ≠ o.node :=
      fun t ht he => hpresent ⟨t, ht, he⟩
    obtain ⟨least, hleast⟩ := hruns.perform_absent ho interval habsent
    have hsettle : o.settle (room share) (servers.map Server.renewed)
        = (.error o.unanswered, servers.map Server.renewed) := by
      refine Order.settle_absent fun t ht => ?_
      obtain ⟨u, hu, rfl⟩ := List.mem_map.mp ht
      exact habsent u hu
    refine ⟨least, fun patience hp => ?_⟩
    obtain ⟨hresult, hruns'⟩ := hleast patience hp
    rw [hsettle]
    exact ⟨hresult, servers, hruns', rfl, happroachable⟩

def objects (p : Plant) : List (NodeId × Server.Dictionary) :=
  p.network.servers.map fun s => (s.node, s.objects)

theorem Runs.objects_eq (h : p.Runs share clients servers) :
    p.objects = servers.map fun s => (s.node, s.objects) := by
  rw [objects, h.servers_eq]

theorem Offers.objects_eq {stock : List Server} (h : p.Offers share clients stock) :
    p.objects = stock.map fun s => (s.node, s.objects) := by
  obtain ⟨servers, hruns, rfl, -⟩ := h
  rw [hruns.objects_eq, List.map_map]
  rfl

end Plant

end Canopen
