import Canopen.Network
import Canopen.Proofs.Addressing
import Canopen.Proofs.Line
import Canopen.Proofs.Simulation

/-!
A client at a tap of a bus, and the server that it addresses, are as if there were only a line
between them: the other servers neither answer nor change.
-/

set_option autoImplicit false

namespace Canopen

open Can (Message)
open Network (Device Effect respond)

namespace Bus

section
variable {δ ε : Type}

theorem react_append (f : Message → δ → Reaction ε δ) (m : Message) (ds es : List δ) :
    react f m (ds ++ es) =
      { frames := (react f m ds).frames ++ (react f m es).frames
        effects := (react f m ds).effects ++ (react f m es).effects
        device := (react f m ds).device ++ (react f m es).device } := by
  induction ds with
  | nil => rfl
  | cons d ds ih =>
    rw [List.cons_append, react, react, ih]
    simp only [List.append_assoc, List.cons_append]

theorem react_of_quiet {f : Message → δ → Reaction ε δ} {m : Message} {ds : List δ}
    (h : ∀ d ∈ ds, f m d = { device := d }) : react f m ds = { device := ds } := by
  induction ds with
  | nil => rfl
  | cons d ds ih =>
    rw [List.forall_mem_cons] at h
    rw [react, h.1, ih h.2]
    rfl

theorem foldl_deliver (ms : List Message) (b : Bus δ) :
    ms.foldl (deliver none) b =
      { b with queues := b.queues.map (· ++ ms), log := b.log ++ ms.toArray } := by
  induction ms generalizing b with
  | nil => simp
  | cons m ms ih =>
    have hqueues : (b.queues.mapIdx fun i q => if none = some i then q else q ++ [m]).map (· ++ ms)
        = b.queues.map (· ++ m :: ms) := by
      apply List.ext_getElem?
      simp [Function.comp_def]
    rw [List.foldl_cons, ih, deliver, hqueues]
    simp

end

theorem react_servers {before after : List Server} {s : Server} {m : Message}
    (hm : m.id = s.node.requestId) (others : ∀ t ∈ before ++ after, t.node ≠ s.node) :
    react respond m ((before ++ s :: after).map Device.server) =
      { frames := (s.handle m).frames
        effects := (s.handle m).effects.map Effect.report
        device := (before ++ (s.handle m).device :: after).map Device.server } := by
  have quiet : ∀ ts : List Server, (∀ t ∈ ts, t.node ≠ s.node) →
      react respond m (ts.map Device.server) = { device := ts.map Device.server } := by
    intro ts hts
    refine react_of_quiet fun d hd => ?_
    obtain ⟨t, ht, rfl⟩ := List.mem_map.mp hd
    have hid : m.id ≠ t.node.requestId := fun he =>
      hts t ht (NodeId.requestId_injective (he.symm.trans hm))
    rw [respond, Server.handle_of_ne t hid]
    rfl
  have hbefore := quiet before fun t ht => others t (List.mem_append_left _ ht)
  have hafter := quiet after fun t ht => others t (List.mem_append_right _ ht)
  rw [List.map_append, List.map_cons, react_append, hbefore, react, hafter, respond]
  simp [Reaction.map]

end Bus

namespace Network

def requests (n : Network) (node : NodeId) : List Message :=
  n.bus.log.toList.filter (·.id = node.requestId)

def warnings (n : Network) : List Record := n.log.toList.filter (·.level = .warn)

/-- A network that shows a client at a tap what a line shows it. What was on the network before
the line began is told apart: the requests on the bus and the warnings in the log. -/
structure Shows (node : NodeId) (tap client : Nat) (before after : List Server)
    (asked : List Message) (warned : List Record) (n : Network) (l : Line) : Prop where
  connected : n.bus.connected = true
  devices : n.bus.devices = (before ++ l.server :: after).map Device.server
  addressed : l.server.node = node
  queue : n.bus.queues[tap]? = some l.inbox
  sent : n.requests node = asked ++ l.sent
  now : n.now = l.now
  calm : n.cancelled.contains client = false
  warnings : n.warnings = warned ++ l.warnings

variable {node : NodeId} {tap client : Nat} {before after : List Server}
variable {asked : List Message} {warned : List Record} {n : Network} {l : Line}

theorem Shows.note (h : Shows node tap client before after asked warned n l) (r : Record) :
    Shows node tap client before after asked warned (n.note r) (l.note r) := by
  obtain ⟨connected, devices, addressed, queue, sent, now, calm, warnings⟩ := h
  have hwarnings : (n.note r).warnings = n.warnings ++ [r].filter (·.level = .warn) := by
    have hlog : (n.note r).log.toList = n.log.toList ++ [r] := Array.toList_push
    rw [Network.warnings, hlog, List.filter_append, ← Network.warnings]
  by_cases hr : r.level = .warn
  · rw [Line.note, if_pos hr]
    refine ⟨connected, devices, addressed, queue, sent, now, calm, ?_⟩
    rw [hwarnings, warnings, List.filter_cons, if_pos (decide_eq_true hr), List.append_assoc]
    rfl
  · rw [Line.note, if_neg hr]
    refine ⟨connected, devices, addressed, queue, sent, now, calm, ?_⟩
    rw [hwarnings, warnings, List.filter_cons, if_neg (by simpa using hr), List.filter_nil,
      List.append_nil]

theorem Shows.foldl_note (h : Shows node tap client before after asked warned n l)
    (rs : List Record) :
    Shows node tap client before after asked warned
      ((rs.map Effect.report).foldl takeEffect n) (rs.foldl (fun l r => l.note r) l) := by
  induction rs generalizing n l with
  | nil => exact h
  | cons r rs ih => exact ih (h.note r)

theorem Shows.send (h : Shows node tap client before after asked warned n l)
    (others : ∀ s ∈ before ++ after, s.node ≠ node) {m : Message} (hm : m.id = node.requestId) :
    (n.send tap m).1 = .ok () ∧
      Shows node tap client before after asked warned (n.send tap m).2 (l.send {} m) := by
  obtain ⟨connected, devices, addressed, queue, sent, now, calm, warnings⟩ := h
  obtain ⟨hsame, hframes⟩ := l.server.handle_from m
  have hanswers : (l.server.handle m).frames.filter (·.id = node.requestId) = [] := by
    refine List.filter_eq_nil_iff.mpr fun a ha => ?_
    rw [hframes a ha]
    simpa using NodeId.responseId_ne_requestId l.server.node node
  have hid : m.id = l.server.node.requestId := by rw [hm, addressed]
  have halone : ∀ t ∈ before ++ after, t.node ≠ l.server.node := by rwa [addressed]
  have hreact := Bus.react_servers hid halone
  have hdevices : (n.bus.deliver (some tap) m).devices
      = (before ++ l.server :: after).map Device.server := devices
  let bus : Bus Device := (l.server.handle m).frames.foldl (Bus.deliver none)
    { n.bus.deliver (some tap) m with
      devices := (before ++ (l.server.handle m).device :: after).map Device.server }
  let line : Line :=
    { l with
      server := (l.server.handle m).device
      inbox := l.inbox ++ (l.server.handle m).frames
      sent := l.sent ++ [m] }
  have hbus : n.bus.send respond tap m
      = (.ok ((l.server.handle m).effects.map Effect.report), bus) := by
    rw [Bus.send, if_pos connected]
    dsimp only
    rw [hdevices, hreact]
  have hline : l.send {} m = (l.server.handle m).effects.foldl (fun l r => l.note r) line := by
    rw [Line.send, if_neg Bool.false_ne_true]
    dsimp only
    rw [Line.survivors_eq_self fun _ => rfl]
  -- What the server reports comes last, on the bus as on the line.
  have hshows : Shows node tap client before after asked warned { n with bus } line := by
    refine ⟨?_, ?_, hsame.trans addressed, ?_, ?_, now, calm, warnings⟩
    · simp only [bus, Bus.foldl_deliver]
      exact connected
    · simp only [bus, line, Bus.foldl_deliver]
    · simp [bus, line, Bus.foldl_deliver, Bus.deliver, queue]
    · rw [Network.requests] at sent ⊢
      simp [bus, line, Bus.foldl_deliver, Bus.deliver, List.filter_append, sent, hm, hanswers]
  rw [Network.send, hbus, hline]
  exact ⟨rfl, hshows.foldl_note _⟩

theorem Shows.receive (h : Shows node tap client before after asked warned n l) :
    (n.receive tap).1 = .ok l.receive.1 ∧
      Shows node tap client before after asked warned (n.receive tap).2 l.receive.2 := by
  obtain ⟨connected, devices, addressed, queue, sent, now, calm, warnings⟩ := h
  rw [Network.receive, Bus.receive, if_pos connected, queue, Line.receive]
  cases hi : l.inbox with
  | nil =>
    rw [hi] at queue
    exact ⟨rfl, connected, devices, addressed, queue.trans (congrArg some hi.symm), sent, now, calm,
      warnings⟩
  | cons m rest =>
    have hlt : tap < n.bus.queues.length := (List.getElem?_eq_some_iff.mp queue).1
    exact ⟨rfl, connected, devices, addressed, List.getElem?_set_self hlt, sent, now, calm,
      warnings⟩

theorem simulates (others : ∀ s ∈ before ++ after, s.node ≠ node) :
    Client.Simulates (Shows node tap client before after asked warned) node
      (link tap client) (Line.link {}) where
  send h _ hm := h.send others hm
  receive h := h.receive
  note h r := h.note r
  now h := h.now
  sleep h t := { h with now := congrArg (· + t) h.now }
  cancelled h := h.calm

end Network
end Canopen
