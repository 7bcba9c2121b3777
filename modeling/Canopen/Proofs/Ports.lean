import Canopen.Plant
import Canopen.Proofs.Attachment
import Canopen.Proofs.Prompt

set_option autoImplicit false

namespace Canopen

open Can (Message)

namespace Network

/-- Servers that stand like this answer the requests to a node as one of them does, of which
something is known. -/
structure Answering (node : NodeId) (K : Server → Prop) (stand : Server → List Server) : Prop where
  keeps : ∀ {s}, K s → ∀ m, K (s.handle m).device
  react : ∀ {s}, K s → ∀ {m : Message}, m.id = node.requestId →
    Bus.react respond m ((stand s).map Device.server) =
      { frames := (s.handle m).frames
        effects := (s.handle m).effects.map Effect.report
        device := (stand (s.handle m).device).map Device.server }

variable {node : NodeId} {before after servers : List Server}

theorem answering_beside (alone : ∀ t ∈ before ++ after, t.node ≠ node) :
    Answering node (·.node = node) fun s => before ++ s :: after where
  keeps hs m := (Server.handle_from _ m).1.trans hs
  react hs _ hm := Bus.react_servers (hs ▸ hm) (hs ▸ alone)

/-- Nobody answers when there is no server at the node, as if there were one that is silent. -/
theorem answering_absent (absent : ∀ t ∈ servers, t.node ≠ node) :
    Answering node (fun s => s.node = node ∧ s.faults.silent = true) fun _ => servers where
  keeps := by
    intro s hs m
    obtain ⟨hnode, hsilent⟩ := hs
    refine ⟨(Server.handle_from s m).1.trans hnode, ?_⟩
    unfold Server.handle
    split
    · dsimp only
      rw [if_pos hsilent]
      exact hsilent
    · exact hsilent
  react := by
    intro s hs m hm
    obtain ⟨rfl, hsilent⟩ := hs
    have hquiet : s.handle m = { device := { s with received := s.received + 1 } } := by
      rw [Server.handle, if_pos hm]
      exact if_pos hsilent
    rw [hquiet]
    refine Bus.react_of_quiet fun d hd => ?_
    obtain ⟨t, ht, rfl⟩ := List.mem_map.mp hd
    have hid : m.id ≠ t.node.requestId := fun he =>
      absent t ht (NodeId.requestId_injective (he.symm.trans hm))
    rw [respond, Server.handle_of_ne t hid]
    rfl

structure View (K : Server → Prop) (stand : Server → List Server) (taps tap : Nat) (n : Network)
    (s : Server) (ms : List Message) : Prop where
  connected : n.bus.connected = true
  devices : n.bus.devices = (stand s).map Device.server
  known : K s
  attached : n.bus.queues.length = taps
  queue : n.bus.queues[tap]? = some ms
  calm : n.cancelled = []

section
variable {K : Server → Prop} {stand : Server → List Server} {taps tap : Nat} {n : Network}
variable {s : Server} {ms : List Message}

theorem View.foldl_note (h : View K stand taps tap n s ms) (rs : List Record) :
    View K stand taps tap ((rs.map Effect.report).foldl takeEffect n) s ms := by
  induction rs generalizing n with
  | nil => exact h
  | cons r rs ih => exact ih (n := n.note r) { h with }

theorem View.send (h : View K stand taps tap n s []) (ha : Answering node K stand) {m : Message}
    (hm : m.id = node.requestId) :
    (n.send tap m).1 = .ok () ∧
      View K stand taps tap (n.send tap m).2 (s.handle m).device (s.handle m).frames := by
  have hdevices : (n.bus.deliver (some tap) m).devices = (stand s).map Device.server := h.devices
  let bus : Bus Device := (s.handle m).frames.foldl (Bus.deliver none)
    { n.bus.deliver (some tap) m with
      devices := (stand (s.handle m).device).map Device.server }
  have hbus : n.bus.send respond tap m
      = (.ok ((s.handle m).effects.map Effect.report), bus) := by
    rw [Bus.send, if_pos h.connected]
    dsimp only
    rw [hdevices, ha.react h.known hm]
  have hview : View K stand taps tap { n with bus } (s.handle m).device (s.handle m).frames := by
    have hbus : bus = _ := Bus.foldl_deliver _ _
    refine ⟨?_, ?_, ha.keeps h.known m, ?_, ?_, h.calm⟩
    · rw [hbus]
      exact h.connected
    · rw [hbus]
    · rw [hbus]
      simp [Bus.deliver, h.attached]
    · rw [hbus]
      simp [Bus.deliver, h.queue]
  rw [Network.send, hbus]
  exact ⟨rfl, hview.foldl_note _⟩

theorem View.receive (h : View K stand taps tap n s ms) :
    (n.receive tap).1 = .ok ms.head? ∧ View K stand taps tap (n.receive tap).2 s ms.tail := by
  have hlt : tap < n.bus.queues.length := (List.getElem?_eq_some_iff.mp h.queue).1
  rw [Network.receive, Bus.receive, if_pos h.connected, h.queue]
  cases ms with
  | nil => exact ⟨rfl, { h with }⟩
  | cons m ms =>
    refine ⟨rfl, h.connected, h.devices, h.known, ?_, List.getElem?_set_self hlt, h.calm⟩
    exact List.length_set.trans h.attached

theorem prompt (ha : Answering node K stand) (client : Nat) :
    (link tap client).Prompt node 127 (View K stand taps tap) where
  note h r := ⟨{ h with }, rfl⟩
  send h m hm hlength := by
    rw [List.take_of_length_le hlength]
    exact h.send ha hm
  receive h := ⟨h.receive.1, h.receive.2, rfl⟩
  sleep h t := ⟨{ h with }, rfl⟩
  cancelled h := by
    show (_ : List Nat).contains client = false
    rw [h.calm]
    rfl
  resume h := by
    refine ⟨h.connected, h.devices, h.known, h.attached, h.queue, ?_⟩
    show (_ : List Nat).filter _ = []
    rw [h.calm]
    rfl

end

end Network

namespace Channel

theorem foldl_push (ms : List Message) {queue : List Message} (h : queue.length ≤ depth) :
    ms.foldl (fun c m => push m c) (live queue)
      = live (queue ++ ms.take (depth - queue.length)) := by
  induction ms generalizing queue with
  | nil => simp
  | cons m ms ih =>
    rw [List.foldl_cons, push]
    by_cases hroom : queue.length < depth
    · obtain ⟨left, hleft⟩ : ∃ left, depth - queue.length = left + 1 :=
        Nat.exists_eq_add_of_le' (by omega)
      have hrest : depth - (queue ++ [m]).length = left := by
        rw [List.length_append, List.length_singleton]
        omega
      rw [if_pos hroom, ih (by rw [List.length_append, List.length_singleton]; omega), hrest, hleft,
        List.take_succ_cons, List.append_assoc]
      rfl
    · have hfull : depth - queue.length = 0 := by omega
      rw [if_neg hroom, ih h, hfull, List.take_zero, List.take_zero]

theorem isLive_foldl_push (ms : List Message) {c : Channel} (h : c.isLive = true) :
    (ms.foldl (fun c m => push m c) c).isLive = true := by
  induction ms generalizing c with
  | nil => exact h
  | cons m ms ih =>
    cases c with
    | live queue => exact ih rfl
    | closed | removed => cases h

end Channel

namespace Fanout

open Client

variable {σ : Type} {a : Link σ} {node : NodeId} {room : Nat}
variable {V : σ → Server → List Message → Prop} {f : Fanout σ} {srv : Server} {ms : List Message}

theorem prompt_beneath (h : a.Prompt node room V) :
    (beneath a).Prompt node room fun f => V f.world where
  note hv := h.note hv
  send hv := h.send hv
  receive hv := h.receive hv
  sleep hv := h.sleep hv
  cancelled hv := h.cancelled hv
  resume hv := h.resume hv

/-- What there is in the queue of a channel and at the interface that is shared. The channels are
so many, and none of them is closed. -/
def View (V : σ → Server → List Message → Prop) (count i : Nat) (f : Fanout σ) (srv : Server)
    (ms : List Message) : Prop :=
  ∃ queue arrived, f.channels[i]? = some (.live queue) ∧ V f.world srv arrived ∧
    ms = queue ++ arrived.take Channel.depth ∧ (∀ c ∈ f.channels, c.isLive = true) ∧
    f.channels.length = count

theorem note_repeat (h : a.Prompt node room V) {w : σ} (hv : V w srv ms) (r : Record) (n : Nat) :
    V (Nat.repeat (a.note r) n w) srv ms ∧ a.now (Nat.repeat (a.note r) n w) = a.now w := by
  induction n with
  | zero => exact ⟨hv, rfl⟩
  | succ n ih =>
    obtain ⟨hv', hnow⟩ := h.note ih.1 r
    exact ⟨hv', hnow.trans ih.2⟩

theorem drain_eq (h : a.Prompt node room V) {arrived : List Message} (hv : V f.world srv arrived)
    {limit : Nat} (hl : arrived.length < limit) :
    let r := drain a.toInterface limit f
    r.1 = .ok () ∧ V r.2.world srv [] ∧ a.now r.2.world = a.now f.world ∧
      r.2.channels = f.channels.map fun c => arrived.foldl (fun c m => c.push m) c := by
  induction arrived generalizing f limit with
  | nil =>
    obtain ⟨limit, rfl⟩ : ∃ n, limit = n + 1 := Nat.exists_eq_add_of_le' hl
    obtain ⟨hreceived, hv', hnow⟩ := h.receive hv
    rw [drain]
    generalize a.receive f.world = p at hreceived hv' hnow
    obtain ⟨received, w⟩ := p
    cases hreceived
    refine ⟨rfl, hv', hnow, ?_⟩
    exact (List.map_id' f.channels).symm
  | cons m arrived ih =>
    obtain ⟨limit, rfl⟩ : ∃ n, limit = n + 1 := Nat.exists_eq_add_of_le' (Nat.zero_lt_of_lt hl)
    obtain ⟨hreceived, hv', hnow⟩ := h.receive hv
    rw [drain]
    generalize a.receive f.world = p at hreceived hv' hnow
    obtain ⟨received, w⟩ := p
    cases hreceived
    obtain ⟨hpushed, hstill⟩ :=
      note_repeat h hv' overflow (f.channels.countP (·.isFull))
    obtain ⟨hdone, hempty, hlater, hchannels⟩ :=
      ih (f := push a.toInterface m { f with world := w }) hpushed (Nat.lt_of_succ_lt_succ hl)
    refine ⟨hdone, hempty, hlater.trans (hstill.trans hnow), hchannels.trans ?_⟩
    exact List.map_map

theorem View.pop {count i : Nat} {m : Message} {queue arrived : List Message}
    (hi : f.channels[i]? = some (.live (m :: queue))) (hv : V f.world srv arrived)
    (hlive : ∀ c ∈ f.channels, c.isLive = true) (hcount : f.channels.length = count) :
    (f.pop i).1 = some m ∧ (f.pop i).2.world = f.world ∧
      View V count i (f.pop i).2 srv (queue ++ arrived.take Channel.depth) := by
  have hlt : i < f.channels.length := (List.getElem?_eq_some_iff.mp hi).1
  rw [Fanout.pop, hi]
  refine ⟨rfl, rfl, queue, arrived, List.getElem?_set_self hlt, hv, rfl, fun c hc => ?_,
    List.length_set.trans hcount⟩
  rcases List.mem_or_eq_of_mem_set hc with hc | rfl
  · exact hlive c hc
  · rfl

theorem View.receive {count i : Nat} (h : a.Prompt node room V)
    (hback : ∀ {w srv ms}, V w srv ms → ms.length ≤ a.backlog w) (hv : View V count i f srv ms) :
    (receive a.toInterface i f).1 = .ok ms.head? ∧
      View V count i (receive a.toInterface i f).2 srv ms.tail ∧
      a.now (receive a.toInterface i f).2.world = a.now f.world := by
  obtain ⟨queue, arrived, hi, hv, rfl, hlive, hcount⟩ := hv
  cases queue with
  | cons m queue =>
    obtain ⟨hm, hworld, hview⟩ := View.pop hi hv hlive hcount
    rw [Fanout.receive]
    generalize f.pop i = p at hm hworld hview
    obtain ⟨m?, g⟩ := p
    cases hm
    exact ⟨rfl, hview, congrArg a.now hworld⟩
  | nil =>
    have hpop : f.pop i = (none, f) := by rw [Fanout.pop, hi]
    obtain ⟨hdone, hempty, hnow, hchannels⟩ :=
      drain_eq h hv (Nat.lt_succ_of_le (hback hv))
    rw [Fanout.receive, hpop]
    dsimp only
    generalize drain a.toInterface (a.backlog f.world + 1) f = p at hdone hempty hnow hchannels
    obtain ⟨done, g⟩ := p
    cases hdone
    dsimp only at hempty hnow hchannels ⊢
    have hgot : g.channels[i]? = some (.live (arrived.take Channel.depth)) := by
      rw [hchannels, List.getElem?_map, hi, Option.map_some,
        Channel.foldl_push arrived (Nat.zero_le _)]
      rfl
    have hlive' : ∀ c ∈ g.channels, c.isLive = true := by
      intro c hc
      rw [hchannels] at hc
      obtain ⟨c', hc', rfl⟩ := List.mem_map.mp hc
      exact Channel.isLive_foldl_push arrived (hlive c' hc')
    have hcount' : g.channels.length = count := by
      rw [hchannels, List.length_map, hcount]
    cases hall : arrived.take Channel.depth with
    | nil =>
      rw [hall] at hgot
      have hpop' : g.pop i = (none, g) := by rw [Fanout.pop, hgot]
      rw [hpop']
      exact ⟨rfl, ⟨[], [], hgot, hempty, rfl, hlive', hcount'⟩, hnow⟩
    | cons m rest =>
      rw [hall] at hgot
      obtain ⟨hm, hworld, hview⟩ := View.pop hgot hempty hlive' hcount'
      generalize g.pop i = p at hm hworld hview
      obtain ⟨m?, g'⟩ := p
      cases hm
      rw [List.take_nil, List.append_nil] at hview
      exact ⟨rfl, hview, (congrArg a.now hworld).trans hnow⟩

/-- At a channel a client gets as much of each answer as there is room for. -/
theorem prompt_link {count i : Nat} (h : a.Prompt node room V) (hroom : Channel.depth ≤ room)
    (hback : ∀ {w srv ms}, V w srv ms → ms.length ≤ a.backlog w) :
    (link a i).Prompt node Channel.depth (View V count i) where
  note hv r := by
    obtain ⟨queue, arrived, hi, hv, hms, hlive, hcount⟩ := hv
    obtain ⟨hv', hnow⟩ := h.note hv r
    exact ⟨⟨queue, arrived, hi, hv', hms, hlive, hcount⟩, hnow⟩
  send hv m hm hlength := by
    obtain ⟨queue, arrived, hi, hv, hms, hlive, hcount⟩ := hv
    obtain ⟨rfl, hnone⟩ := List.append_eq_nil_iff.mp hms.symm
    obtain rfl : arrived = [] := by
      rcases List.take_eq_nil_iff.mp hnone with hzero | hnil
      · cases hzero
      · exact hnil
    obtain ⟨hsent, hv'⟩ := h.send hv m hm hlength
    refine ⟨hsent, [], _, hi, hv', ?_, hlive, hcount⟩
    rw [List.nil_append, List.take_take, Nat.min_eq_left hroom]
  receive hv := hv.receive h hback
  sleep hv t := by
    obtain ⟨queue, arrived, hi, hv, hms, hlive, hcount⟩ := hv
    obtain ⟨hv', hnow⟩ := h.sleep hv t
    exact ⟨⟨queue, arrived, hi, hv', hms, hlive, hcount⟩, hnow⟩
  cancelled hv := by
    obtain ⟨queue, arrived, hi, hv, hms, hlive, hcount⟩ := hv
    exact h.cancelled hv
  resume hv := by
    obtain ⟨queue, arrived, hi, hv, hms, hlive, hcount⟩ := hv
    exact ⟨queue, arrived, hi, h.resume hv, hms, hlive, hcount⟩

end Fanout

end Canopen
