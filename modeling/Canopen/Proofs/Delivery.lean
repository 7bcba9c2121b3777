import Canopen.Proofs.Attachment
import Canopen.Proofs.Trace

set_option autoImplicit false

namespace Canopen

open Can (Interface Message TransportError)

namespace Bus

variable {δ ε : Type}

/-- What can be done with a bus. A clone of a port has the same tap, so what is done at it is done
at the tap. -/
inductive Operation (δ : Type) where
  | attachTap
  | attachDevice (d : δ)
  | send (tap : Nat) (m : Message)
  | receive (tap : Nat)
  | flush (tap : Nat)
  | inject (m : Message)
  | disconnect

inductive Happening (δ : Type) where
  | tapped (tap : Nat)
  | joined (d : δ)
  | sent (tap : Nat) (m : Message) (answers : List Message)
  | taken (tap : Nat) (m : Message)
  | injected (m : Message)
  | disconnected

/-- A frame on the bus, and the tap it was sent at. There is none for answers of devices and for
frames from outside. -/
structure Entry where
  sender : Option Nat
  frame : Message

def Happening.entries : Happening δ → List Entry
  | .sent tap m answers => ⟨some tap, m⟩ :: answers.map (⟨none, ·⟩)
  | .injected m => [⟨none, m⟩]
  | _ => []

def entries (history : List (Happening δ)) : List Entry := history.flatMap (·.entries)

/-- What is left without the frames sent at a tap. -/
def ofOthers (tap : Nat) (es : List Entry) : List Message :=
  (es.filter (·.sender ≠ some tap)).map (·.frame)

def Happening.takenAt (tap : Nat) : Happening δ → List Message
  | .taken t m => if t = tap then [m] else []
  | _ => []

/-- The frames that were taken at a tap. -/
def taken (tap : Nat) (history : List (Happening δ)) : List Message :=
  history.flatMap (·.takenAt tap)

section
variable (respond : Message → δ → Reaction ε δ)

/-- Each device is shown the frames that are sent, once each, and nothing else. -/
def fleetAfter (ds : List δ) : Happening δ → List δ
  | .joined d => ds ++ [d]
  | .sent _ m _ => ds.map fun d => (respond m d).device
  | _ => ds

def fleet (history : List (Happening δ)) : List δ := history.foldl (fleetAfter respond) []

def tapInterface (tap : Nat) : Interface (Bus δ) where
  send m b :=
    let (sent, b) := b.send respond tap m
    (sent.map fun _ => (), b)
  receive := receive tap
  backlog b := ((b.queues[tap]?).getD []).length
  note _ b := b

def meet (b : Bus δ) : Operation δ → Bus δ
  | .attachTap => b.attachTap.2
  | .attachDevice d => b.attachDevice d
  | .send tap m => (b.send respond tap m).2
  | .receive tap => (b.receive tap).2
  | .flush tap => ((tapInterface respond tap).flush b).2
  | .inject m => b.inject m
  | .disconnect => b.disconnect

def happenings (b : Bus δ) : Operation δ → List (Happening δ)
  | .attachTap => [.tapped b.attachTap.1]
  | .attachDevice d => [.joined d]
  | .send tap m =>
    match b.send respond tap m with
    | (.ok _, b') => [.sent tap m (b'.log.toList.drop (b.log.size + 1))]
    | (.error _, _) => []
  | .receive tap =>
    match (b.receive tap).1 with
    | .ok (some m) => [.taken tap m]
    | _ => []
  | .flush tap => ((tapInterface respond tap).drain b).1.map (.taken tap)
  | .inject m => [.injected m]
  | .disconnect => [.disconnected]

def after (b : Bus δ) (ops : List (Operation δ)) : Bus δ := ops.foldl (meet respond) b

def past (b : Bus δ) : List (Operation δ) → List (Happening δ)
  | [] => []
  | op :: ops => happenings respond b op ++ past (meet respond b op) ops

end

@[simp] theorem entries_append (h h' : List (Happening δ)) :
    entries (h ++ h') = entries h ++ entries h' := List.flatMap_append

@[simp] theorem taken_append (tap : Nat) (h h' : List (Happening δ)) :
    taken tap (h ++ h') = taken tap h ++ taken tap h' := List.flatMap_append

@[simp] theorem ofOthers_append (tap : Nat) (es es' : List Entry) :
    ofOthers tap (es ++ es') = ofOthers tap es ++ ofOthers tap es' := by
  simp [ofOthers]

@[simp] theorem taken_map_taken (tap t : Nat) (ms : List Message) :
    taken tap (ms.map (Happening.taken (δ := δ) t)) = if t = tap then ms else [] := by
  induction ms with
  | nil => simp [taken]
  | cons m ms ih =>
    rw [List.map_cons, taken, List.flatMap_cons, ← taken, ih, Happening.takenAt]
    split <;> rfl

@[simp] theorem entries_map_taken (t : Nat) (ms : List Message) :
    entries (ms.map (Happening.taken (δ := δ) t)) = [] := by
  induction ms with
  | nil => rfl
  | cons m ms ih => exact ih

theorem ofOthers_sent (tap t : Nat) (m : Message) (answers : List Message) :
    ofOthers tap (entries [Happening.sent (δ := δ) t m answers])
      = if t = tap then answers else m :: answers := by
  have hanswers : ofOthers tap (answers.map (⟨none, ·⟩)) = answers := by
    simp [ofOthers, List.filter_map, Function.comp_def]
  have hcons : entries [Happening.sent (δ := δ) t m answers]
      = [⟨some t, m⟩] ++ answers.map (⟨none, ·⟩) := by
    simp [entries, Happening.entries]
  rw [hcons, ofOthers_append, hanswers]
  by_cases htap : t = tap <;> simp [ofOthers, htap]

theorem react_eq (respond : Message → δ → Reaction ε δ) (m : Message) (ds : List δ) :
    (react respond m ds).frames = ds.flatMap (fun d => (respond m d).frames) ∧
      (react respond m ds).device = ds.map fun d => (respond m d).device := by
  induction ds with
  | nil => exact ⟨rfl, rfl⟩
  | cons d ds ih =>
    rw [react, ih.1, ih.2]
    exact ⟨rfl, rfl⟩

section
variable {respond : Message → δ → Reaction ε δ} {b : Bus δ}

theorem send_eq (respond : Message → δ → Reaction ε δ) (hc : b.connected = true) (tap : Nat)
    (m : Message) :
    let answers := b.devices.flatMap fun d => (respond m d).frames
    b.send respond tap m =
      (.ok (react respond m b.devices).effects,
        { queues := (b.queues.mapIdx fun i q => if some tap = some i then q else q ++ [m]).map
            (· ++ answers)
          devices := b.devices.map fun d => (respond m d).device
          log := b.log.push m ++ answers.toArray
          connected := b.connected }) := by
  obtain ⟨hframes, hdevices⟩ := react_eq respond m b.devices
  rw [send, if_pos hc]
  simp only [foldl_deliver, deliver, hframes, hdevices]

theorem refuses (respond : Message → δ → Reaction ε δ) (hc : b.connected = false) (tap : Nat)
    (m : Message) :
    b.send respond tap m = (.error .notConnected, b) ∧
      b.receive tap = (.error .notConnected, b) ∧
      (tapInterface respond tap).drain b = ([], .error .notConnected, b) := by
  have hreceive : b.receive tap = (.error .notConnected, b) := by simp [receive, hc]
  refine ⟨by simp [send, hc], hreceive, ?_⟩
  have hinterface : (tapInterface respond tap).receive b = (.error .notConnected, b) := hreceive
  rw [Interface.drain, Interface.drainUpTo, hinterface]

structure Yields (b : Bus δ) (tap : Nat) (ms : List Message) (b' : Bus δ) : Prop where
  log : b'.log = b.log
  devices : b'.devices = b.devices
  connected : b'.connected = b.connected
  queues : ∀ t queue, b.queues[t]? = some queue →
    ∃ queue', b'.queues[t]? = some queue' ∧ queue = (if tap = t then ms else []) ++ queue'

theorem Yields.refl (b : Bus δ) (tap : Nat) : Yields b tap [] b :=
  ⟨rfl, rfl, rfl, fun _ queue hq => ⟨queue, hq, by simp⟩⟩

theorem Yields.trans {tap : Nat} {ms ns : List Message} {b b' b'' : Bus δ} (h : Yields b tap ms b')
    (h' : Yields b' tap ns b'') : Yields b tap (ms ++ ns) b'' := by
  refine ⟨h'.log.trans h.log, h'.devices.trans h.devices, h'.connected.trans h.connected, ?_⟩
  intro t queue hq
  obtain ⟨queue', hq', rfl⟩ := h.queues t queue hq
  obtain ⟨queue'', hq'', rfl⟩ := h'.queues t queue' hq'
  refine ⟨queue'', hq'', ?_⟩
  split <;> simp

theorem receive_yields (b : Bus δ) (tap : Nat) :
    (b.connected = true → (b.receive tap).1 = .ok (b.queues[tap]?.getD []).head?) ∧
      Yields b tap ((b.receive tap).1.toOption.getD none).toList (b.receive tap).2 := by
  by_cases hc : b.connected = true
  · rw [receive, if_pos hc]
    split
    · rename_i m queue hq
      refine ⟨fun _ => by rw [hq]; rfl, rfl, rfl, rfl, fun t queue' hq' => ?_⟩
      by_cases ht : tap = t
      · subst ht
        obtain rfl : m :: queue = queue' := Option.some.inj (hq.symm.trans hq')
        have hlt : tap < b.queues.length := (List.getElem?_eq_some_iff.mp hq).1
        exact ⟨queue, List.getElem?_set_self hlt, by simp [Except.toOption]⟩
      · exact ⟨queue', (List.getElem?_set_ne ht).trans hq', by simp [ht]⟩
    · rename_i hnone
      refine ⟨fun _ => ?_, Yields.refl b tap⟩
      cases hq : b.queues[tap]? with
      | none => rfl
      | some queue =>
        cases queue with
        | nil => rfl
        | cons m queue => exact absurd hq (hnone m queue)
  · rw [receive, if_neg hc]
    exact ⟨fun h => absurd h hc, Yields.refl b tap⟩

theorem drainUpTo_yields (limit : Nat) (b : Bus δ) (tap : Nat) :
    let r := (tapInterface respond tap).drainUpTo limit b
    Yields b tap r.1 r.2.2 := by
  induction limit generalizing b with
  | zero => exact Yields.refl b tap
  | succ limit ih =>
    have hfirst := (receive_yields b tap).2
    have hinterface : (tapInterface respond tap).receive b = b.receive tap := rfl
    rw [Interface.drainUpTo, hinterface]
    generalize b.receive tap = p at hfirst
    obtain ⟨received, b'⟩ := p
    cases received with
    | error e => exact hfirst
    | ok m? =>
      cases m? with
      | none => exact hfirst
      | some m => exact hfirst.trans (ih b')

structure Adds (respond : Message → δ → Reaction ε δ) (b b' : Bus δ)
    (es : List (Happening δ)) : Prop where
  log : b'.log.toList = b.log.toList ++ (entries es).map (·.frame)
  devices : b'.devices = es.foldl (fleetAfter respond) b.devices
  connected : b'.connected = true ↔ b.connected = true ∧ Happening.disconnected ∉ es
  queues : ∀ tap queue, b.queues[tap]? = some queue → ∃ queue', b'.queues[tap]? = some queue' ∧
    queue ++ ofOthers tap (entries es) = taken tap es ++ queue'
  tapped : ∀ tap, .tapped tap ∈ es → es = [.tapped tap] ∧ b'.queues[tap]? = some []
  sent : ∀ tap m answers, .sent tap m answers ∈ es → es = [.sent tap m answers] ∧
    answers = b.devices.flatMap fun d => (respond m d).frames

theorem Yields.adds (respond : Message → δ → Reaction ε δ) {tap : Nat} {ms : List Message}
    {b' : Bus δ} (h : Yields b tap ms b') :
    Adds respond b b' (ms.map (.taken tap)) := by
  refine ⟨?_, ?_, ?_, ?_, ?_, ?_⟩
  · simp [h.log]
  · rw [h.devices]
    clear h
    induction ms with
    | nil => rfl
    | cons m ms ih => exact ih
  · simp [h.connected]
  · intro t queue hq
    obtain ⟨queue', hq', hqueue⟩ := h.queues t queue hq
    exact ⟨queue', hq', by simpa [ofOthers] using hqueue⟩
  · simp
  · simp

theorem Adds.nothing (b : Bus δ) : Adds respond b b [] := (Yields.refl b 0).adds respond

theorem adds_send (b : Bus δ) (tap : Nat) (m : Message) :
    Adds respond b (meet respond b (.send tap m)) (happenings respond b (.send tap m)) := by
  by_cases hc : b.connected = true
  · have hsend := send_eq respond hc tap m
    dsimp only at hsend
    rw [meet, happenings, hsend]
    generalize hanswers : b.devices.flatMap (fun d => (respond m d).frames) = answers
    have hlength : b.log.size + 1 = (b.log.push m).toList.length := by simp
    have hdrop : (b.log.push m ++ answers.toArray).toList.drop (b.log.size + 1) = answers := by
      rw [Array.toList_append, hlength, List.drop_left]
    dsimp only
    rw [hdrop]
    refine ⟨?_, rfl, ?_, ?_, ?_, ?_⟩
    · simp [entries, Happening.entries, Function.comp_def]
    · simp
    · intro t queue hq
      have hqueue : ((b.queues.mapIdx fun i q => if some tap = some i then q else q ++ [m]).map
          (· ++ answers))[t]? = some ((if tap = t then queue else queue ++ [m]) ++ answers) := by
        simp [hq]
      refine ⟨_, hqueue, ?_⟩
      rw [ofOthers_sent]
      by_cases ht : tap = t <;> simp [ht, taken, Happening.takenAt]
    · simp
    · intro t m' answers' hmem
      cases List.mem_singleton.mp hmem
      exact ⟨rfl, hanswers.symm⟩
  · have hrefused := (refuses respond (eq_false_of_ne_true hc) tap m).1
    rw [meet, happenings, hrefused]
    exact Adds.nothing b

theorem adds_receive (b : Bus δ) (tap : Nat) :
    Adds respond b (meet respond b (.receive tap)) (happenings respond b (.receive tap)) := by
  have hadds := (receive_yields b tap).2.adds respond
  rw [meet, happenings]
  generalize b.receive tap = p at hadds
  obtain ⟨received, b'⟩ := p
  cases received with
  | error e => exact hadds
  | ok m? => cases m? <;> exact hadds

theorem adds_meet (b : Bus δ) (op : Operation δ) :
    Adds respond b (meet respond b op) (happenings respond b op) := by
  cases op with
  | attachTap =>
    refine ⟨by simp [meet, attachTap, happenings, entries, Happening.entries], rfl,
      by simp [meet, attachTap, happenings], ?_, ?_, by simp [happenings]⟩
    · intro tap queue hq
      have hlt : tap < b.queues.length := (List.getElem?_eq_some_iff.mp hq).1
      refine ⟨queue, (List.getElem?_append_left hlt).trans hq, ?_⟩
      simp [happenings, entries, Happening.entries, taken, Happening.takenAt, ofOthers]
    · intro tap hmem
      cases List.mem_singleton.mp hmem
      exact ⟨rfl, List.getElem?_concat_length⟩
  | attachDevice d =>
    refine ⟨by simp [meet, attachDevice, happenings, entries, Happening.entries], rfl,
      by simp [meet, attachDevice, happenings], fun tap queue hq => ⟨queue, hq, ?_⟩,
      by simp [happenings], by simp [happenings]⟩
    simp [happenings, entries, Happening.entries, taken, Happening.takenAt, ofOthers]
  | send tap m => exact adds_send b tap m
  | receive tap => exact adds_receive b tap
  | flush tap => exact (drainUpTo_yields _ b tap).adds respond
  | inject m =>
    refine ⟨by simp [meet, inject, deliver, happenings, entries, Happening.entries], rfl,
      by simp [meet, inject, deliver, happenings], fun tap queue hq => ⟨queue ++ [m], ?_, ?_⟩,
      by simp [happenings], by simp [happenings]⟩
    · simp [meet, inject, deliver, hq]
    · simp [happenings, entries, Happening.entries, taken, Happening.takenAt, ofOthers]
  | disconnect =>
    refine ⟨by simp [meet, disconnect, happenings, entries, Happening.entries], rfl,
      by simp [meet, disconnect, happenings], fun tap queue hq => ⟨queue, hq, ?_⟩,
      by simp [happenings], by simp [happenings]⟩
    simp [happenings, entries, Happening.entries, taken, Happening.takenAt, ofOthers]

structure Tells (respond : Message → δ → Reaction ε δ) (history : List (Happening δ))
    (b : Bus δ) : Prop where
  log : b.log.toList = (entries history).map (·.frame)
  devices : b.devices = fleet respond history
  connected : b.connected = true ↔ Happening.disconnected ∉ history
  queues : ∀ before tap since, history = before ++ .tapped tap :: since →
    ∃ queue, b.queues[tap]? = some queue ∧
      taken tap since ++ queue = ofOthers tap (entries since)
  answers : ∀ before tap m answers since, history = before ++ .sent tap m answers :: since →
    answers = (fleet respond before).flatMap fun d => (respond m d).frames

theorem Tells.adds {history es : List (Happening δ)} {b' : Bus δ} (h : Tells respond history b)
    (ha : Adds respond b b' es) : Tells respond (history ++ es) b' := by
  refine ⟨?_, ?_, ?_, ?_, ?_⟩
  · rw [ha.log, h.log, entries_append, List.map_append]
  · rw [ha.devices, h.devices, fleet, fleet, List.foldl_append]
  · rw [ha.connected, h.connected, List.mem_append, not_or]
  · intro before tap since hsplit
    obtain ⟨since', rfl, rfl⟩ | ⟨between, hes, rfl⟩ := split_of_append hsplit
    · obtain ⟨queue, hq, htaken⟩ := h.queues before tap since' rfl
      obtain ⟨queue', hq', hqueue⟩ := ha.queues tap queue hq
      refine ⟨queue', hq', ?_⟩
      rw [taken_append, List.append_assoc, ← hqueue, ← List.append_assoc, htaken, entries_append,
        ofOthers_append]
    · obtain ⟨hone, hnew⟩ := ha.tapped tap (hes ▸ List.mem_append_right _ List.mem_cons_self)
      rw [hone] at hes
      obtain ⟨-, -, rfl⟩ := split_singleton hes
      exact ⟨[], hnew, rfl⟩
  · intro before tap m answers since hsplit
    obtain ⟨since', rfl, rfl⟩ | ⟨between, hes, rfl⟩ := split_of_append hsplit
    · exact h.answers before tap m answers since' rfl
    · obtain ⟨hone, hanswers⟩ :=
        ha.sent tap m answers (hes ▸ List.mem_append_right _ List.mem_cons_self)
      rw [hone] at hes
      obtain ⟨rfl, -, -⟩ := split_singleton hes
      rw [List.append_nil, ← h.devices]
      exact hanswers

theorem tells_past (ops : List (Operation δ)) {history : List (Happening δ)}
    (h : Tells respond history b) :
    Tells respond (history ++ past respond b ops) (after respond b ops) := by
  induction ops generalizing b history with
  | nil =>
    rw [past, List.append_nil]
    exact h
  | cons op ops ih =>
    rw [past, ← List.append_assoc]
    exact ih (h.adds (adds_meet b op))

end

/-- Whatever is done with a bus: what was taken at a tap and what is left in its queue are all
frames since it was attached but its own, in the order of the log. The log has each frame that was
sent, with the answers of all devices behind it, and each one from outside. The devices have been
shown the frames that were sent, once each. A bus that was disconnected does nothing more for its
taps. -/
theorem delivers_all_but_own (respond : Message → δ → Reaction ε δ) (ops : List (Operation δ)) :
    let b := after respond {} ops
    let history := past respond {} ops
    (∀ before tap since, history = before ++ .tapped tap :: since →
      ∃ queue, b.queues[tap]? = some queue ∧
        taken tap since ++ queue = ofOthers tap (entries since) ∧
        (.disconnected ∉ history → (b.receive tap).1 = .ok queue.head?)) ∧
    b.log.toList = (entries history).map (·.frame) ∧
    (∀ before tap m answers since, history = before ++ .sent tap m answers :: since →
      answers = (fleet respond before).flatMap fun d => (respond m d).frames) ∧
    b.devices = fleet respond history ∧
    ∀ tap m,
      (.disconnected ∉ history → ∃ effects, (b.send respond tap m).1 = .ok effects) ∧
      (.disconnected ∈ history →
        b.send respond tap m = (.error .notConnected, b) ∧
        b.receive tap = (.error .notConnected, b) ∧
        (tapInterface respond tap).flush b = (.error .notConnected, b)) := by
  intro b history
  have hstart : Tells respond [] ({} : Bus δ) := by
    refine ⟨rfl, rfl, by simp, ?_, ?_⟩ <;> simp
  have h : Tells respond history b := tells_past ops hstart
  refine ⟨?_, h.log, h.answers, h.devices, fun tap m => ⟨fun hc => ?_, fun hd => ?_⟩⟩
  · intro before tap since hsplit
    obtain ⟨queue, hq, hqueue⟩ := h.queues before tap since hsplit
    refine ⟨queue, hq, hqueue, fun hc => ?_⟩
    rw [(receive_yields b tap).1 (h.connected.mpr hc), hq]
    rfl
  · exact ⟨_, congrArg Prod.fst (send_eq respond (h.connected.mpr hc) tap m)⟩
  · have hc : b.connected = false := by
      cases hb : b.connected with
      | false => rfl
      | true => exact absurd hd (h.connected.mp hb)
    obtain ⟨hsend, hreceive, hdrain⟩ := refuses respond hc tap m
    exact ⟨hsend, hreceive, congrArg Prod.snd hdrain⟩

end Bus

end Canopen
