import Canopen.Proofs.Orders

/-!
Clients that share a tap against clients with taps of their own. Call by call both come to the
same, and leave the same objects. Only a queue has less room than a tap: of a block that is longer,
the end is lost and has to be asked for, so that a block upload may run out of retries.
-/

set_option autoImplicit false

namespace Canopen

open Client
open Client.Operation (reading)
open Sdo

theorem Client.Config.preferBlock_of_uploadMode (config : Config)
    (h : config.uploadMode = .block) : config.preferBlock = true := by
  unfold uploadMode at h
  split at h
  · assumption
  · cases h

namespace Client.Operation

/-- A block upload in which more blocks are too long than requests may be sent again. -/
def Crowded (room : Nat) (config : Config) (srv : Server) (target : Address) (op : Operation) :
    Prop :=
  (op = uploadBlock ∨ op = upload ∧ config.preferBlock = true) ∧
    ∃ object, srv.objects.get? target = some object ∧
      config.retries.toNat < longBlocks room config.blockSize.toNat (segmentCount object)

variable {room : Nat} {config : Config} {srv : Server} {target : Address} {op : Operation}

theorem reading_of_crowded {object : List UInt8} (hobject : srv.objects.get? target = some object)
    (h : config.retries.toNat < longBlocks room config.blockSize.toNat (segmentCount object)) :
    reading room config srv target .block = .error (.timeout 1) := by
  rw [reading, hobject]
  exact if_pos ⟨rfl, h⟩

theorem outcome_of_crowded (h : op.Crowded room config srv target) :
    op.outcome room config srv target = (.error (.timeout 1), srv.objects) := by
  obtain ⟨hop, object, hobject, hlong⟩ := h
  rcases hop with rfl | ⟨rfl, hprefer⟩
  · rw [outcome, reading_of_crowded hobject hlong]
    rfl
  · have hmode : config.uploadMode = .block := if_pos hprefer
    rw [outcome, hmode, reading_of_crowded hobject hlong]
    rfl

theorem reading_of_not_crowded (valid : config.Valid) {mode : Mode}
    (h : ∀ object, srv.objects.get? target = some object → mode = .block →
      longBlocks room config.blockSize.toNat (segmentCount object) ≤ config.retries.toNat) :
    reading room config srv target mode = reading 127 config srv target mode := by
  rw [reading, reading]
  cases hobject : srv.objects.get? target with
  | none => rfl
  | some object =>
    have hroom : ¬(mode = .block ∧ config.retries.toNat <
        longBlocks room config.blockSize.toNat (segmentCount object)) :=
      fun hc => Nat.not_lt.mpr (h object hobject hc.1) hc.2
    dsimp only
    rw [if_neg hroom, if_neg (roomy_of_valid valid mode object)]

theorem outcome_of_not_crowded (valid : config.Valid) (h : ¬op.Crowded room config srv target) :
    op.outcome room config srv target = op.outcome 127 config srv target := by
  have hfits : (op = uploadBlock ∨ op = upload ∧ config.preferBlock = true) →
      ∀ object, srv.objects.get? target = some object →
        longBlocks room config.blockSize.toNat (segmentCount object) ≤ config.retries.toNat :=
    fun hop object hobject => Nat.not_lt.mp fun hlong => h ⟨hop, object, hobject, hlong⟩
  have hsegmented : reading room config srv target .segmented
      = reading 127 config srv target .segmented :=
    reading_of_not_crowded valid fun _ _ hmode => by cases hmode
  cases op with
  | upload =>
    have hreading : reading room config srv target config.uploadMode
        = reading 127 config srv target config.uploadMode :=
      reading_of_not_crowded valid fun object hobject hmode =>
        hfits (.inr ⟨rfl, config.preferBlock_of_uploadMode hmode⟩) object hobject
    rw [outcome, outcome, hreading]
  | uploadSegmented => rw [outcome, outcome, hsegmented]
  | uploadBlock =>
    have hreading : reading room config srv target .block = reading 127 config srv target .block :=
      reading_of_not_crowded valid fun object hobject _ => hfits (.inl rfl) object hobject
    rw [outcome, outcome, hreading]
  | uploadNumber =>
    rw [outcome, outcome, readingNumber, readingNumber, hsegmented]
  | _ => rfl

theorem outcome_objects (room room' : Nat) :
    (op.outcome room config srv target).2 = (op.outcome room' config srv target).2 := by
  cases op <;> rfl

end Client.Operation

namespace Order

def Crowded (room : Nat) (o : Order) (servers : List Server) : Prop :=
  ∃ s ∈ servers, s.node.value = o.node ∧ o.op.Crowded room o.config s o.target

variable {room : Nat} {o : Order} {servers : List Server}

theorem crowded_renewed : o.Crowded room (servers.map Server.renewed) ↔ o.Crowded room servers := by
  constructor
  · intro h
    obtain ⟨s, hs, hnode, hcrowded⟩ := h
    obtain ⟨t, ht, rfl⟩ := List.mem_map.mp hs
    exact ⟨t, ht, hnode, hcrowded⟩
  · intro h
    obtain ⟨s, hs, hnode, hcrowded⟩ := h
    exact ⟨s.renewed, List.mem_map_of_mem hs, hnode, hcrowded⟩

theorem settle_of_crowded (distinct : (servers.map Server.node).Nodup)
    (h : o.Crowded room servers) : o.settle room servers = (.error (.timeout 1), servers) := by
  obtain ⟨s, hs, hnode, hcrowded⟩ := h
  induction servers with
  | nil => cases hs
  | cons t servers ih =>
    rw [List.map_cons, List.nodup_cons] at distinct
    rcases List.mem_cons.mp hs with rfl | hs
    · rw [settle, if_pos hnode, Operation.outcome_of_crowded hcrowded]
    · have hother : t.node.value ≠ o.node := by
        intro ht
        obtain heq : t.node = s.node := NodeId.value_injective (ht.trans hnode.symm)
        exact distinct.1 (heq ▸ List.mem_map_of_mem hs)
      rw [settle, if_neg hother, ih distinct.2 hs]

theorem settle_of_not_crowded (h : ¬o.Crowded room servers) :
    o.settle room servers = o.settle 127 servers := by
  induction servers with
  | nil => rfl
  | cons t servers ih =>
    have hrest : ¬o.Crowded room servers := by
      intro hc
      obtain ⟨s, hs, hcrowded⟩ := hc
      exact h ⟨s, List.mem_cons_of_mem t hs, hcrowded⟩
    rw [settle, settle, ih hrest]
    by_cases hnode : t.node.value = o.node
    · have hroomy : ¬o.op.Crowded room o.config t o.target :=
        fun hc => h ⟨t, List.mem_cons_self, hnode, hc⟩
      rw [if_pos hnode, if_pos hnode, Operation.outcome_of_not_crowded o.valid hroomy]
    · rw [if_neg hnode, if_neg hnode]

theorem stock_settle (room room' : Nat) (o : Order) (servers : List Server) :
    (o.settle room servers).2 = (o.settle room' servers).2 := by
  induction servers with
  | nil => rfl
  | cons s servers ih =>
    rw [settle, settle]
    split
    · dsimp only
      rw [Operation.outcome_objects room room']
    · exact congrArg (s :: ·) ih

end Order

namespace Plant

/-- Over a shared tap each of the orders comes to the same as over taps of one's own, as long as
there is patience enough, and leaves the same objects. A crowded upload gives up instead. -/
def Agree (shared alone : Plant) : List Order → Prop
  | [] => True
  | o :: orders => ∃ least, ∀ patience, least ≤ patience →
    let b := shared.perform patience o
    let a := alone.perform patience o
    a.1 ≠ .error .unfinished ∧
      (¬o.Crowded Channel.depth alone.network.servers → b.1 = a.1) ∧
      (o.Crowded Channel.depth alone.network.servers → b.1 = .error (.failed (.timeout 1))) ∧
      b.2.objects = a.2.objects ∧ Agree b.2 a.2 orders

theorem agree_of_offers {shared alone : Plant} {clients : Nat} {stock : List Server}
    (hb : shared.Offers true clients stock) (ha : alone.Offers false clients stock)
    (distinct : (stock.map Server.node).Nodup) {orders : List Order}
    (ho : ∀ o ∈ orders, o.client < clients ∧ 0 < o.config.pollInterval) :
    Agree shared alone orders := by
  -- Order by order, as what the servers offer then is the same on both sides.
  induction orders generalizing shared alone stock with
  | nil => trivial
  | cons o orders ih =>
    rw [List.forall_mem_cons] at ho
    obtain ⟨⟨hclient, hinterval⟩, ho⟩ := ho
    obtain ⟨leastB, hleastB⟩ := hb.perform distinct hclient hinterval
    obtain ⟨leastA, hleastA⟩ := ha.perform distinct hclient hinterval
    have hcrowded : o.Crowded Channel.depth alone.network.servers
        ↔ o.Crowded Channel.depth stock := by
      obtain ⟨servers, hruns, rfl, -⟩ := ha
      rw [hruns.servers_eq, Order.crowded_renewed]
    refine ⟨max leastA leastB, fun patience hp => ?_⟩
    obtain ⟨hresultB, hoffersB⟩ := hleastB patience (Nat.le_trans (Nat.le_max_right _ _) hp)
    obtain ⟨hresultA, hoffersA⟩ := hleastA patience (Nat.le_trans (Nat.le_max_left _ _) hp)
    have hroomB : room true = Channel.depth := rfl
    have hroomA : room false = 127 := rfl
    rw [hroomB] at hresultB hoffersB
    rw [hroomA] at hresultA hoffersA
    rw [Order.stock_settle Channel.depth 127] at hoffersB
    have hnodes : ((o.settle 127 stock).2.map Server.node).Nodup := by
      rw [Order.map_node_settle]
      exact distinct
    refine ⟨hresultA ▸ mapError_failed_ne_unfinished, fun h => ?_, fun h => ?_, ?_,
      ih hoffersB hoffersA hnodes ho⟩
    · rw [hresultA, hresultB, Order.settle_of_not_crowded (mt hcrowded.mpr h)]
    · rw [hresultB, Order.settle_of_crowded distinct (hcrowded.mp h)]
      rfl
    · rw [hoffersB.objects_eq, hoffersA.objects_eq]

theorem offers_build {servers : List Server} (h : ∀ s ∈ servers, s.Approachable) (clients : Nat)
    (share : Bool) :
    (build servers clients share).Offers share clients (servers.map Server.renewed) :=
  ⟨servers, runs_build servers clients share, rfl, h⟩

/-- A shared tap makes no difference but to uploads in blocks that are too long for a queue. -/
theorem shared_tap_agrees {servers : List Server} (distinct : (servers.map Server.node).Nodup)
    (approachable : ∀ s ∈ servers, s.Approachable) (clients : Nat) {orders : List Order}
    (possible : ∀ o ∈ orders, o.client < clients ∧ 0 < o.config.pollInterval) :
    Agree (build servers clients true) (build servers clients false) orders := by
  refine agree_of_offers (offers_build approachable clients true)
    (offers_build approachable clients false) ?_ possible
  rw [List.map_map]
  exact distinct

theorem shared_tap_agrees_for_two_clients :
    let five : Server :=
      { node := ⟨5, by decide, by decide⟩, objects := ⟨[(⟨0x2000, 0⟩, [1, 2, 3, 4, 5])]⟩ }
    let six : Server := { node := ⟨6, by decide, by decide⟩ }
    let upload : Order :=
      { client := 1, config := {}, valid := by decide, node := 5, target := ⟨0x2000, 0⟩
        op := .uploadBlock }
    let download : Order :=
      { client := 0, config := {}, valid := by decide, node := 6, target := ⟨0x2000, 0⟩
        op := .downloadSegmented [1, 2, 3] }
    Agree (build [five, six] 2 true) (build [five, six] 2 false) [upload, download, upload] := by
  intro five six upload download
  have happroachable : ∀ s ∈ [five, six], s.Approachable :=
    List.forall_mem_cons.mpr ⟨Server.approachable_of_idle rfl rfl,
      List.forall_mem_singleton.mpr (Server.approachable_of_idle rfl rfl)⟩
  have hpossible : ∀ o ∈ [upload, download, upload], o.client < 2 ∧ 0 < o.config.pollInterval := by
    decide
  exact shared_tap_agrees (by decide) happroachable 2 hpossible

/-- A block of 101 segments does not fit the queue of a channel. -/
theorem shared_tap_cuts_block :
    let s : Server :=
      { node := ⟨5, by decide, by decide⟩, objects := ⟨[(⟨0x2000, 0⟩, List.replicate 701 0)]⟩ }
    let o : Order :=
      { client := 0, config := { retries := 0 }, valid := by decide, node := 5
        target := ⟨0x2000, 0⟩, op := .uploadBlock }
    ∃ least, ∀ patience, least ≤ patience →
      ((build [s] 1 true).perform patience o).1 = .error (.failed (.timeout 1)) ∧
      ((build [s] 1 false).perform patience o).1 = .ok (.bytes (List.replicate 701 0)) := by
  intro s o
  have hobject : s.renewed.objects.get? o.target = some (List.replicate 701 0) := rfl
  have hcount : segmentCount (List.replicate 701 (0 : UInt8)) = 101 := by
    rw [segmentCount, List.length_replicate]
    rfl
  have happroachable : ∀ t ∈ [s], t.Approachable :=
    List.forall_mem_singleton.mpr (Server.approachable_of_idle rfl rfl)
  have hcrowded : o.Crowded Channel.depth [s.renewed] := by
    refine ⟨s.renewed, List.mem_cons_self, rfl, .inl rfl, _, hobject, ?_⟩
    rw [hcount]
    decide
  have hroomy : reading 127 o.config s.renewed o.target .block = .ok (List.replicate 701 0) := by
    have hsmall : (List.replicate 701 (0 : UInt8)).length < sizeLimit := by
      rw [List.length_replicate]
      decide
    rw [reading, hobject]
    dsimp only
    rw [hcount]
    exact (if_neg (by decide)).trans (if_neg (not_misstated hsmall))
  have hwhole : (o.settle 127 [s.renewed]).1 = .ok (.bytes (List.replicate 701 0)) := by
    have hnode : s.renewed.node.value = o.node := rfl
    have hop : o.op = .uploadBlock := rfl
    rw [Order.settle, if_pos hnode, hop, Operation.outcome, hroomy]
    rfl
  have hdistinct : ([s.renewed].map Server.node).Nodup := List.pairwise_singleton _ _
  have hclient : o.client < 1 := Nat.zero_lt_one
  have hinterval : 0 < o.config.pollInterval := by decide
  have hcut : (o.settle Channel.depth [s.renewed]).1 = .error (.timeout 1) := by
    rw [Order.settle_of_crowded hdistinct hcrowded]
  have hoffers : ∀ share, (build [s] 1 share).Offers share 1 [s.renewed] :=
    offers_build happroachable 1
  obtain ⟨leastB, hleastB⟩ := (hoffers true).perform hdistinct hclient hinterval
  obtain ⟨leastA, hleastA⟩ := (hoffers false).perform hdistinct hclient hinterval
  refine ⟨max leastA leastB, fun patience hp => ⟨?_, ?_⟩⟩
  · obtain ⟨hresult, -⟩ := hleastB patience (Nat.le_trans (Nat.le_max_right _ _) hp)
    have hroom : room true = Channel.depth := rfl
    rw [hresult, hroom, hcut]
    rfl
  · obtain ⟨hresult, -⟩ := hleastA patience (Nat.le_trans (Nat.le_max_left _ _) hp)
    have hroom : room false = 127 := rfl
    rw [hresult, hroom, hwhole]
    rfl

end Plant

end Canopen
