import Canopen.Proofs.PromptOperations

set_option autoImplicit false

namespace Canopen

open Can (Message)
open Sdo

namespace Server

/-- In such states a server takes no request for what it is. It is quiet and stays in such a state,
or, if it has no faults, it says that a block has come. -/
def Shuns (s : Server) (P : State → Prop) : Prop :=
  ∀ state, P state → ∀ r : Request, r.Regular →
    (∃ state', P state' ∧ s.Responds state (r.message s.node) [] s state') ∨
    s.faults = {} ∧ ∃ state' seqno size, s.Responds state (r.message s.node)
      [(Response.confirmBlock seqno size).message s.node] s state'

theorem shuns_of_silent {s : Server} (h : s.faults.silent = true) (state : State) :
    s.Shuns (· = state) := by
  intro state' hstate r _
  subst hstate
  refine .inl ⟨state', rfl, fun k => ⟨[], ?_⟩⟩
  have hid : (r.message s.node).id = (s.during state' k).node.requestId := r.message_id s.node
  rw [handle, if_pos hid]
  exact if_pos h

theorem shuns_of_downloadBlock {s : Server} (hf : s.faults = {}) :
    s.Shuns fun state => ∃ t, state = .downloadBlock t := by
  intro state hstate r hr
  obtain ⟨t, rfl⟩ := hstate
  have hhead := hr.message_head_ne_abort s.node
  have hattentive : s.faults.Attentive := hf ▸ Faults.attentive_switching false
  have hread : ∀ k, (s.during (.downloadBlock t) k).handle (r.message s.node)
      = (s.during (.downloadBlock t) (k + 1)).readSegment t (r.message s.node) := by
    intro k
    rw [handle_eq_read_of_attentive hattentive (r.message_id s.node)]
    exact if_neg hhead
  unfold Responds
  simp only [hread, readSegment]
  cases BlockSegment.ofMessage (r.message s.node) with
  | error e => exact .inl ⟨_, ⟨t, rfl⟩, fun k => ⟨_, rfl⟩⟩
  | ok segment =>
    by_cases hinner : segment.seqno ≠ s.blockSize ∧ segment.last = false
    · exact .inl ⟨_, ⟨_, rfl⟩, fun k => ⟨[], blockSegment_inner hf hinner.1 hinner.2⟩⟩
    · have hend : segment.seqno = s.blockSize ∨ segment.last = true := by
        by_cases hsize : segment.seqno = s.blockSize
        · exact .inl hsize
        · exact .inr (by simpa [hsize] using hinner)
      exact .inr ⟨hf, _, _, _, fun k => ⟨[], blockSegment_last hf hend⟩⟩

end Server

namespace Client

variable {σ α : Type}

namespace Call.Prompt

open Transfer

variable {c : Call σ} {room : Nat} {V : σ → Server → List Message → Prop}
variable {srv : Server} {P : Server.State → Prop} {s : Session σ}

def Shunned (c : Call σ) (V : σ → Server → List Message → Prop) (srv : Server)
    (P : Server.State → Prop) (s : Session σ) : Prop :=
  (∃ state, P state ∧ c.Sees V s srv state []) ∨
    srv.faults = {} ∧ ∃ state seqno size,
      c.Sees V s srv state [(Response.confirmBlock seqno size).message c.node]

variable (h : c.Prompt room V) (hn : c.node = srv.node) (hp : srv.Shuns P)
include h hn hp

theorem ends_send_shunned {state : Server.State} (hstate : P state) (hs : c.Sees V s srv state [])
    {r : Request} (hr : r.Regular) {Q : Unit → Session σ → Prop} {E : Stop → Session σ → Prop}
    (goes : ∀ w d, Shunned c V srv P { s with world := w, deadline := d } →
      Q () { s with world := w, deadline := d }) :
    Ends (c.send r) s Q E := by
  have hroomy := h.roomy
  rcases hp state hstate r hr with ⟨state', hstate', hquiet⟩ | ⟨hf, state', seqno, size, hanswer⟩
  · rw [← hn] at hquiet
    refine h.ends_sendMessage hs (r.message_id c.node) hquiet (Nat.zero_le _) fun w d hw => ?_
    rw [List.take_nil] at hw
    exact goes w d (.inl ⟨state', hstate', hw⟩)
  · rw [← hn] at hanswer
    refine h.ends_sendMessage hs (r.message_id c.node) hanswer (by simp) fun w d hw => ?_
    rw [List.take_of_length_le (by simp; omega)] at hw
    exact goes w d (.inr ⟨hf, state', seqno, size, hw⟩)

theorem ends_awaitRounds_shunned (hs : Shunned c V srv P s) {r : Request} (hr : r.Regular)
    {attempts : UInt32} {Q : Response → Session σ → Prop} {E : Stop → Session σ → Prop}
    (heard : ∀ seqno size t, srv.faults = {} → (∃ state, c.Sees V t srv state []) →
      Q (.confirmBlock seqno size) t)
    (expired : ∀ state t, P state → c.Sees V t srv state [] →
      E (.failed (.timeout (attempts + UInt32.ofNat s.retries))) t) :
    Ends (c.awaitRounds (c.send r) attempts (s.retries + 1)) s Q E := by
  rcases hs with ⟨state, hstate, hs⟩ | ⟨hf, state, seqno, size, hs⟩
  · -- On the number of retries left.
    induction hk : s.retries generalizing s state attempts with
    | zero =>
      rw [awaitRounds, ends_bind, nextResponse, ends_bind]
      refine h.ends_nextMessage_nil hs fun w hw => ?_
      dsimp only
      rw [ends_pure, ends_bind]
      refine h.ends_takeRetry hw (fun _ w' hw' => ?_)
        fun n hne => absurd (hk.symm.trans hne) (Nat.succ_ne_zero n).symm
      rw [hk] at expired
      simpa using expired state _ hstate hw'
    | succ n ih =>
      rw [awaitRounds, ends_bind, nextResponse, ends_bind]
      refine h.ends_nextMessage_nil hs fun w hw => ?_
      dsimp only
      rw [ends_pure, ends_bind]
      refine h.ends_takeRetry hw (fun hne => absurd (hk.symm.trans hne) (Nat.succ_ne_zero n))
        fun left hleft w' hw' => ?_
      obtain rfl : n = left := Nat.succ.inj (hk.symm.trans hleft)
      have hsum : attempts + 1 + UInt32.ofNat n = attempts + UInt32.ofNat s.retries := by
        rw [hk, UInt32.ofNat_add, UInt32.add_assoc, UInt32.add_comm 1]
        rfl
      rw [← hsum] at expired
      rw [ends_bind]
      refine h.ends_send_shunned hn hp hstate hw' hr fun w'' d hw'' => ?_
      rcases hw'' with ⟨state', hstate', ht⟩ | ⟨hf, state', seqno, size, ht⟩
      · exact ih expired state' hstate' ht rfl
      · exact h.ends_awaitRounds ht (.of_plain trivial) fun _ hu => heard _ _ _ hf ⟨state', hu⟩
  · exact h.ends_awaitRounds hs (.of_plain trivial) fun _ ht => heard _ _ _ hf ⟨state, ht⟩

def Forsaken (c : Call σ) (V : σ → Server → List Message → Prop) (srv : Server)
    (P : Server.State → Prop) (retries : Nat) (e : Stop) (t : Session σ) : Prop :=
  e = .failed (.timeout (1 + UInt32.ofNat retries)) ∧
      (∃ state, P state ∧ c.Sees V t srv state []) ∨
    e = .failed .unexpectedResponse ∧ srv.faults = {} ∧
      ∃ last, c.Sees V t { srv with lastAbort := last } .idle []

theorem ends_exchange_shunned {state : Server.State} (hstate : P state)
    (hs : c.Sees V s srv state []) {r : Request} (hr : r.Regular)
    {f : Response → Transfer σ α}
    (hf : ∀ seqno size, f (.confirmBlock seqno size) = c.unexpected (.confirmBlock seqno size)) :
    Ends (do f (← c.exchange r)) s (fun _ _ => False) (Forsaken c V srv P s.retries) := by
  rw [ends_bind, exchange, ends_bind]
  refine h.ends_send_shunned hn hp hstate hs hr fun w d hw => ?_
  rw [await, ends_bind, ends_get]
  refine h.ends_awaitRounds_shunned hn hp hw hr (fun seqno size t hfaults ht => ?_)
    fun state' t hstate' ht => .inl ⟨rfl, state', hstate', ht⟩
  obtain ⟨state', ht⟩ := ht
  rw [hf, unexpected, ends_bind]
  refine h.ends_note ht fun w' hw' => ?_
  exact h.ends_abandon ⟨hn, hfaults⟩ hw' fun w'' d' hw'' => .inr ⟨rfl, hfaults, _, hw''⟩

end Call.Prompt

/-- Why an operation is turned down before anything is sent. -/
def Operation.refusal? : Operation → Option Error
  | downloadExpedited data =>
    if 1 ≤ data.length ∧ data.length ≤ 4 then none else some (.invalidDataLength data.length)
  | download data | downloadSegmented data | downloadBlock data =>
    if data.length < sizeLimit then none else some (.invalidDataLength data.length)
  | downloadNumber _ size => if 1 ≤ size ∧ size ≤ 4 then none else some (.invalidDataLength size)
  | _ => none

/-- The work of a transfer that begins with an exchange. The answer is not to be that a block has
come. -/
def Opens (work : Call σ → Transfer σ α) : Prop :=
  ∀ c : Call σ, ∃ (g : Session σ → Session σ) (r : Request) (f : Response → Transfer σ α),
    r.Regular ∧ (∀ s, (g s).world = s.world ∧ (g s).deadline = s.deadline ∧
      (g s).retries = s.retries) ∧
    (work c = do modify g; f (← c.exchange r)) ∧
    ∀ seqno size, f (.confirmBlock seqno size) = c.unexpected (.confirmBlock seqno size)

theorem opens_upload : Opens (Call.upload : Call σ → _) := by
  intro c
  exact ⟨id, .initiateUpload c.target, c.continueUpload, .of_plain trivial,
    fun _ => ⟨rfl, rfl, rfl⟩, rfl, fun _ _ => rfl⟩

theorem opens_uploadBlock : Opens (Call.uploadBlock : Call σ → _) := by
  intro c
  exact ⟨id, .initiateBlockUpload c.config.useCrc c.target c.config.blockSize c.threshold, _,
    .of_plain trivial, fun _ => ⟨rfl, rfl, rfl⟩, rfl, fun _ _ => rfl⟩

theorem opens_downloadExpedited {data : List UInt8} (h : 1 ≤ data.length ∧ data.length ≤ 4) :
    Opens (fun c : Call σ => c.downloadExpedited data h.2) := by
  intro c
  exact ⟨id, .expedited c.target data h.2, _, Request.regular_expedited c.target h.2 h.1,
    fun _ => ⟨rfl, rfl, rfl⟩, rfl, fun _ _ => rfl⟩

theorem opens_downloadSegmented (data : List UInt8) :
    Opens (fun c : Call σ => c.downloadSegmented data) := by
  intro c
  exact ⟨fun s => { s with announced := some data.length },
    .announce c.target (some (UInt32.ofNat data.length)), _, Request.regular_announce c.target _,
    fun _ => ⟨rfl, rfl, rfl⟩, rfl, fun _ _ => rfl⟩

theorem opens_downloadBlock (data : List UInt8) :
    Opens (fun c : Call σ => c.downloadBlock data) := by
  intro c
  exact ⟨fun s => { s with announced := some data.length },
    .initiateBlockDownload c.config.useCrc true c.target (UInt32.ofNat data.length), _,
    .of_plain trivial, fun _ => ⟨rfl, rfl, rfl⟩, rfl, fun _ _ => rfl⟩

section
variable {β : Type} (client : Client σ) (node : UInt8) (target : Address)

/-- What is turned down at once, or is a transfer that begins with an exchange. What fails that
transfer fails all of it. -/
def Begins (refusal : Option Error) (run : σ → Outcome σ β) : Prop :=
  (∃ e, refusal = some e ∧ ∀ w, run w = (.error (.failed e), w)) ∨
  refusal = none ∧ ∃ (α : Type) (direction : Direction) (mode : Mode)
    (work : Call σ → Transfer σ α) (finish : Except Stop α → Except Stop β),
    Opens work ∧ (∀ e, finish (.error e) = .error e) ∧
      ∀ w, run w = (finish (client.transfer node target direction mode work w).1,
        (client.transfer node target direction mode work w).2)

variable {client node target}

theorem Begins.map {refusal : Option Error} {run : σ → Outcome σ α} (f : α → β)
    (h : client.Begins node target refusal run) :
    client.Begins node target refusal fun w => Outcome.map f (run w) := by
  rcases h with ⟨e, he, hrun⟩ | ⟨he, γ, direction, mode, work, finish, hopens, hfinish, hrun⟩
  · exact .inl ⟨e, he, fun w => congrArg (Outcome.map f) (hrun w)⟩
  · exact .inr ⟨he, γ, direction, mode, work, fun r => (finish r).map f, hopens,
      fun e => congrArg (Except.map f) (hfinish e), fun w => congrArg (Outcome.map f) (hrun w)⟩

theorem begins_transfer {direction : Direction} {mode : Mode} {work : Call σ → Transfer σ α}
    (h : Opens work) :
    client.Begins node target none (client.transfer node target direction mode work) :=
  .inr ⟨rfl, α, direction, mode, work, id, h, fun _ => rfl, fun _ => rfl⟩

theorem begins_refused (e : Error) :
    client.Begins node target (some e) (fun w => ((.error (.failed e), w) : Outcome σ β)) :=
  .inl ⟨e, rfl, fun _ => rfl⟩

theorem begins_upload : client.Begins node target none (client.upload node target) := by
  unfold upload
  split
  · exact begins_transfer opens_uploadBlock
  · exact begins_transfer opens_upload

theorem begins_uploadNumber : client.Begins node target none (client.uploadNumber node target) := by
  refine .inr ⟨rfl, _, .upload, .segmented, Call.upload, fun
    | .ok data =>
      if data.length ≤ 4 then .ok (wordOf (padTo 4 data))
      else .error (.failed (.invalidDataLength data.length))
    | .error e => .error e, opens_upload, fun _ => rfl, fun w => ?_⟩
  rw [uploadNumber, uploadSegmented]
  cases client.transfer node target .upload .segmented Call.upload w with
  | mk r w => cases r with
    | error e => rfl
    | ok data => simp only; split <;> rfl

theorem begins_downloadExpedited (data : List UInt8) :
    client.Begins node target (Operation.downloadExpedited data).refusal?
      (client.downloadExpedited node target data) := by
  by_cases h : 1 ≤ data.length ∧ data.length ≤ 4
  · have hrefusal : (Operation.downloadExpedited data).refusal? = none := if_pos h
    have hrun : client.downloadExpedited node target data = client.transfer node target .download
        .expedited (fun c => c.downloadExpedited data h.2) := funext fun w => dif_pos h
    rw [hrefusal, hrun]
    exact begins_transfer (opens_downloadExpedited h)
  · have hrefusal : (Operation.downloadExpedited data).refusal?
        = some (.invalidDataLength data.length) := if_neg h
    have hrun : client.downloadExpedited node target data
        = fun w => (.error (.failed (.invalidDataLength data.length)), w) :=
      funext fun w => dif_neg h
    rw [hrefusal, hrun]
    exact begins_refused _

theorem begins_announced {data : List UInt8} {mode : Mode} {work : Call σ → Transfer σ Unit}
    (h : Opens work) :
    client.Begins node target (Operation.download data).refusal? fun w =>
      if data.length < sizeLimit then client.transfer node target .download mode work w
      else (.error (.failed (.invalidDataLength data.length)), w) := by
  unfold Operation.refusal?
  by_cases hsmall : data.length < sizeLimit
  · simp only [if_pos hsmall]
    exact begins_transfer h
  · simp only [if_neg hsmall]
    exact begins_refused _

theorem begins_downloadSegmented (data : List UInt8) :
    client.Begins node target (Operation.downloadSegmented data).refusal?
      (client.downloadSegmented node target data) :=
  begins_announced (opens_downloadSegmented data)

theorem begins_downloadBlock (data : List UInt8) :
    client.Begins node target (Operation.downloadBlock data).refusal?
      (client.downloadBlock node target data) :=
  begins_announced (opens_downloadBlock data)

theorem begins_download (data : List UInt8) :
    client.Begins node target (Operation.download data).refusal?
      (client.download node target data) := by
  unfold download
  cases hmode : client.config.downloadMode data.length with
  | expedited =>
    have hshort := client.config.expedited_of_downloadMode hmode
    have hexpedited : (Operation.downloadExpedited data).refusal? = none := if_pos hshort
    have hannounced : (Operation.download data).refusal? = none :=
      if_pos (Nat.lt_of_le_of_lt hshort.2 (by decide))
    rw [hannounced, ← hexpedited]
    exact begins_downloadExpedited data
  | segmented => exact begins_downloadSegmented data
  | block => exact begins_downloadBlock data

theorem begins_downloadNumber (value : UInt32) (size : Nat) :
    client.Begins node target (Operation.downloadNumber value size).refusal?
      (client.downloadNumber node target value size) := by
  unfold downloadNumber
  by_cases h : 1 ≤ size ∧ size ≤ 4
  · have hlength : ((bytesOfWord value).toList.take size).length = size := by
      rw [List.length_take, Vector.length_toList]
      exact Nat.min_eq_left h.2
    have hrefusal : (Operation.downloadNumber value size).refusal?
        = (Operation.downloadExpedited ((bytesOfWord value).toList.take size)).refusal? := by
      simp only [Operation.refusal?, hlength]
    simp only [hrefusal, if_pos h]
    exact begins_downloadExpedited _
  · have hrefusal : (Operation.downloadNumber value size).refusal?
        = some (.invalidDataLength size) := if_neg h
    simp only [hrefusal, if_neg h]
    exact begins_refused _

variable (client node target) in
theorem begins_perform (op : Operation) :
    client.Begins node target op.refusal? (client.perform node target op) := by
  cases op with
  | upload => exact begins_upload.map Value.bytes
  | uploadSegmented => exact (begins_transfer opens_upload).map Value.bytes
  | uploadBlock => exact (begins_transfer opens_uploadBlock).map Value.bytes
  | uploadNumber => exact begins_uploadNumber.map Value.number
  | download data => exact (begins_download data).map fun _ => Value.done
  | downloadExpedited data => exact (begins_downloadExpedited data).map fun _ => Value.done
  | downloadSegmented data => exact (begins_downloadSegmented data).map fun _ => Value.done
  | downloadBlock data => exact (begins_downloadBlock data).map fun _ => Value.done
  | downloadNumber value size =>
    exact (begins_downloadNumber value size).map fun _ => Value.done

theorem perform_of_invalid (h : NodeId.ofByte? node = none) (op : Operation) (w : σ) :
    client.perform node target op w
      = (.error (.failed (op.refusal?.getD (.invalidNodeId node))), w) := by
  rcases begins_perform client node target op with
    ⟨e, he, hrun⟩ | ⟨he, α, direction, mode, work, finish, -, hfinish, hrun⟩
  · rw [hrun, he]
    rfl
  · rw [hrun, transfer, h, he, hfinish]
    rfl

end

section
variable {β : Type} {client : Client σ} {room : Nat} {V : σ → Server → List Message → Prop} {w : σ}
variable {srv : Server} {P : Server.State → Prop} {target : Address}

def Neglected (V : σ → Server → List Message → Prop) (srv : Server) (P : Server.State → Prop)
    (retries : UInt32) (o : Outcome σ β) : Prop :=
  o.1 = .error (.failed (.timeout (1 + retries))) ∧
      (∃ state k, P state ∧ V o.2 (srv.during state k) []) ∨
    o.1 = .error (.failed .unexpectedResponse) ∧ srv.faults = {} ∧
      ∃ last k, V o.2 (({ srv with lastAbort := last } : Server).during .idle k) []

theorem Reaches.neglected_transfer (h : client.Reaches room V w srv) (hp : srv.Shuns P)
    (hstate : P srv.state) {direction : Direction} {mode : Mode} {work : Call σ → Transfer σ α}
    (hw : Opens work) :
    Neglected V srv P client.config.retries
      (client.transfer srv.node.value target direction mode work w) := by
  have hnote : ∀ {v : σ} {s : Server}, V v s [] → ∀ rec, V (client.link.note rec v) s [] :=
    fun hv rec => (h.link.note hv rec).1
  refine h.leads (fun hq rec => ?_) fun v hs => ?_
  · rcases hq with ⟨hr, state, k, hstate', hv⟩ | ⟨hr, hf, last, k, hv⟩
    · exact .inl ⟨hr, state, k, hstate', hnote hv rec⟩
    · exact .inr ⟨hr, hf, last, k, hnote hv rec⟩
  · obtain ⟨g, r, f, hregular, hg, hwork, hf⟩ := hw (client.call srv.node target direction)
    obtain ⟨hworld, hdeadline, hretries⟩ := hg
      { (client.call srv.node target direction).session mode
          ((client.call srv.node target direction).link.resume w) with world := v }
    have hprompt := h.prompt target direction
    show Transfer.Ends _ _ _ _
    rw [hwork, Transfer.ends_bind, Transfer.ends_modify]
    refine (hprompt.ends_exchange_shunned rfl hp hstate (hs.of_eq hworld hdeadline) hregular
      hf).mono (fun _ _ hq => hq.elim) fun e t hq => ?_
    have hword : UInt32.ofNat client.config.retries.toNat = client.config.retries :=
      UInt32.ofNat_toNat
    rw [hretries] at hq
    rcases hq with ⟨rfl, state, hstate', ⟨k, hv⟩, -⟩ | ⟨rfl, hfaults, last, ⟨k, hv⟩, -⟩
    · refine .inl ⟨?_, state, k, hstate', hv⟩
      show Except.error (Stop.failed (.timeout (1 + UInt32.ofNat client.config.retries.toNat))) = _
      rw [hword]
    · exact .inr ⟨rfl, hfaults, last, k, hv⟩

theorem Reaches.neglected (h : client.Reaches room V w srv) (target : Address) (hp : srv.Shuns P)
    (hstate : P srv.state) (op : Operation) :
    (∃ e, op.refusal? = some e ∧
        client.perform srv.node.value target op w = (.error (.failed e), w)) ∨
      op.refusal? = none ∧ Neglected V srv P client.config.retries
        (client.perform srv.node.value target op w) := by
  rcases begins_perform client srv.node.value target op with
    ⟨e, he, hrun⟩ | ⟨he, α, direction, mode, work, finish, hopens, hfinish, hrun⟩
  · exact .inl ⟨e, he, hrun w⟩
  · refine .inr ⟨he, ?_⟩
    rw [hrun]
    have htransfer : Neglected V srv P client.config.retries
        (client.transfer srv.node.value target direction mode work w) :=
      h.neglected_transfer hp hstate hopens
    rcases htransfer with ⟨hr, hv⟩ | ⟨hr, hv⟩
    · exact .inl ⟨by rw [hr, hfinish], hv⟩
    · exact .inr ⟨by rw [hr, hfinish], hv⟩

end

end Client
end Canopen
