import Canopen.Proofs.Operation

/-!
Two transfers side by side: over links that a client cannot tell apart until it fails, all ways of
transferring come to the same. It is enough that the client takes the same messages, and sends the
same; how long it looks for them is its own affair. What the failures have in common is left open.
-/

set_option autoImplicit false

namespace Canopen.Client

open Can (Message)
open Sdo
open Transfer

variable {σ τ α β : Type}

def Error.abortCode? : Error → Option UInt32
  | .toggleMismatch => some 0x05030000
  | .unexpectedResponse => some 0x05040001
  | .invalidBlockSize _ => some 0x05040002
  | .sequence _ => some 0x05040003
  | .crcMismatch .. => some 0x05040004
  | .sizeMismatch .. => some 0x06070010
  | .cancelled => some 0x08000000
  | .malformed (.unknownCommandSpecifier _) => some 0x05040001
  | .malformed _ => some 0x08000000
  | .transport _ | .timeout _ | .serverAbort .. | .invalidNodeId _ | .invalidDataLength _ => none

def Stop.abortCode? : Stop → Option UInt32
  | .failed e => e.abortCode?
  | .unfinished => none

def Session.inWorld (s : Session σ) (l : τ) : Session τ :=
  { world := l, mode := s.mode, toggle := s.toggle, seqno := s.seqno
    transferred := s.transferred, announced := s.announced, buffer := s.buffer
    retries := s.retries, deadline := s.deadline }

def Call.onLink (c : Call σ) (b : Link τ) : Call τ :=
  { link := b, config := c.config, node := c.node, target := c.target, direction := c.direction
    patience := c.patience }

def onLink (client : Client σ) (b : Link τ) : Client τ :=
  { link := b, config := client.config, valid := client.valid, patience := client.patience }

/-- Both ended alike: with the same value, in a session and a world that `R` relates, or with the
same failure, in worlds that `E` relates. -/
inductive Abreast (R : Session σ → τ → Prop) (E : Stop → σ → τ → Prop) :
    EStateM.Result Stop (Session σ) α → EStateM.Result Stop (Session τ) α → Prop
  | ok {a : α} {s : Session σ} {l : τ} (h : R s l) : Abreast R E (.ok a s) (.ok a (s.inWorld l))
  | error {e : Stop} {s : Session σ} {t : Session τ} (h : E e s.world t.world) :
    Abreast R E (.error e s) (.error e t)

theorem Abreast.mono {R S : Session σ → τ → Prop} {E : Stop → σ → τ → Prop}
    {p : EStateM.Result Stop (Session σ) α} {q : EStateM.Result Stop (Session τ) α}
    (h : Abreast R E p q) (hr : ∀ s l, R s l → S s l) :
    Abreast S E p q := by
  cases h with
  | ok h => exact .ok (hr _ _ h)
  | error h => exact .error h

/-- Steps of a transfer that end alike, one in a session and the other in the same session in
another world. -/
def Lockstep (R : Session σ → τ → Prop) (E : Stop → σ → τ → Prop) (x : Transfer σ α)
    (y : Transfer τ α) : Prop :=
  ∀ (s : Session σ) (l : τ), R s l → Abreast R E (x s) (y (s.inWorld l))

abbrev OfWorlds (R : σ → τ → Prop) : Session σ → τ → Prop := fun s l => R s.world l

/-- All that a client sees of a link but what comes of sending. -/
structure Link.Resembles (a : Link σ) (b : Link τ) (R : σ → τ → Prop) : Prop where
  receive : ∀ {w l}, R w l → (a.receive w).1 = (b.receive l).1 ∧ R (a.receive w).2 (b.receive l).2
  note : ∀ {w l}, R w l → ∀ r, R (a.note r w) (b.note r l)
  now : ∀ {w l}, R w l → a.now w = b.now l
  sleep : ∀ {w l}, R w l → ∀ t, R (a.sleep t w) (b.sleep t l)
  cancelled : ∀ {w l}, R w l → a.cancelled w = b.cancelled l

/-- A link on which a call does the same until it sends an abort. Of that nothing is asked but
what it leads to. -/
structure Call.Mirrors (c : Call σ) (b : Link τ) (R : σ → τ → Prop) (E : Stop → σ → Prop) : Prop
    extends c.link.Resembles b R where
  send : ∀ {w l}, R w l → ∀ m : Message, m.id = c.node.requestId → m.data.get 0 ≠ 0x80 →
    (c.link.send m w).1 = (b.send m l).1 ∧ R (c.link.send m w).2 (b.send m l).2
  stop : ∀ {w l}, R w l → ∀ e : Stop, e.abortCode? = none → E e w
  abandon : ∀ {α : Type} (code : AbortCode) (e : Error), e.abortCode? = some code.code →
    Lockstep (OfWorlds R) (fun e w _ => E e w) (c.abandon code e : Transfer σ α)
      ((c.onLink b).abandon code e)
  noted : ∀ {e w}, E e w → ∀ r, E e (c.link.note r w)

/-- A call that does alike over two links while `R` relates them. `J` relates the worlds that it
leaves with a value, and `E` those that it leaves with a failure. -/
structure Call.Tracks (c : Call σ) (b : Link τ) (R : Session σ → τ → Prop) (J : σ → τ → Prop)
    (E : Stop → σ → τ → Prop) : Prop where
  /-- What a session remembers of the data, and of retries, is of no matter. -/
  adjust : ∀ {s t l}, R s l → t.world = s.world → t.deadline = s.deadline → R t l
  note : ∀ level text, Lockstep R E (c.note level text) ((c.onLink b).note level text)
  restart : Lockstep R E c.restartDeadline (c.onLink b).restartDeadline
  tell : ∀ m : Message, m.id = c.node.requestId → m.data.get 0 ≠ 0x80 →
    Lockstep R E (c.sendMessage m) ((c.onLink b).sendMessage m)
  next : Lockstep R E c.nextMessage (c.onLink b).nextMessage
  stop : ∀ {s l}, R s l → ∀ e : Stop, e.abortCode? = none → E e s.world l
  abandon : ∀ {α : Type} (code : AbortCode) (e : Error), e.abortCode? = some code.code →
    Lockstep R E (c.abandon code e : Transfer σ α) ((c.onLink b).abandon code e)
  done : ∀ {s l}, R s l → ∀ r, J (c.link.note r s.world) (b.note r l)
  noted : ∀ {e w l}, E e w l → ∀ r, E e (c.link.note r w) (b.note r l)

namespace Transfer

variable {R : Session σ → τ → Prop} {E : Stop → σ → τ → Prop}

theorem lockstep_pure (a : α) : Lockstep R E (pure a : Transfer σ α) (pure a) :=
  fun _ _ hr => .ok hr

theorem lockstep_throw {e : Stop} (he : ∀ {s l}, R s l → E e s.world l) :
    Lockstep R E (throw e : Transfer σ α) (throw e) :=
  fun _ _ hr => .error (he hr)

theorem abreast_bind {S : Session σ → τ → Prop} {x : Transfer σ α} {y : Transfer τ α}
    {f : α → Transfer σ β} {g : α → Transfer τ β} {s : Session σ} {t : Session τ}
    (hx : Abreast R E (x s) (y t))
    (hf : ∀ a s l, R s l → Abreast S E (f a s) (g a (s.inWorld l))) :
    Abreast S E ((x >>= f) s) ((y >>= g) t) := by
  show Abreast S E (EStateM.bind x f s) (EStateM.bind y g t)
  unfold EStateM.bind
  generalize x s = p, y t = q at hx
  cases hx with
  | ok h => exact hf _ _ _ h
  | error h => exact .error h

theorem lockstep_bind {x : Transfer σ α} {y : Transfer τ α} {f : α → Transfer σ β}
    {g : α → Transfer τ β} (hx : Lockstep R E x y) (hf : ∀ a, Lockstep R E (f a) (g a)) :
    Lockstep R E (x >>= f) (y >>= g) :=
  fun s l hr => abreast_bind (hx s l hr) hf

theorem lockstep_map {x : Transfer σ α} {y : Transfer τ α} (f : α → β) (hx : Lockstep R E x y) :
    Lockstep R E (f <$> x) (f <$> y) := by
  intro s l hr
  have hm := hx s l hr
  show Abreast R E (EStateM.map f x s) (EStateM.map f y (s.inWorld l))
  unfold EStateM.map
  generalize x s = p, y (s.inWorld l) = q at hm
  cases hm with
  | ok h => exact .ok h
  | error h => exact .error h

theorem lockstep_get {f : Session σ → Transfer σ α} {g : Session τ → Transfer τ α}
    (hf : ∀ s l, R s l → Lockstep R E (f s) (g (s.inWorld l))) :
    Lockstep R E (get >>= f) (get >>= g) :=
  fun s l hr => hf s l hr s l hr

theorem lockstep_modify {f : Session σ → Session σ} {g : Session τ → Session τ}
    (hf : ∀ s l, R s l → R (f s) l ∧ g (s.inWorld l) = (f s).inWorld l) :
    Lockstep R E (modify f : Transfer σ Unit) (modify g) := by
  intro s l hr
  obtain ⟨hw, hg⟩ := hf s l hr
  show Abreast R E (.ok () (f s)) (.ok () (g (s.inWorld l)))
  rw [hg]
  exact .ok hw

theorem lockstep_act {f : σ → α × σ} {g : τ → α × τ}
    (hf : ∀ s l, R s l → (f s.world).1 = (g l).1 ∧ R { s with world := (f s.world).2 } (g l).2) :
    Lockstep R E (act f) (act g) := by
  intro s l hr
  obtain ⟨ha, hw⟩ := hf s l hr
  let t : Session σ := { s with world := (f s.world).2 }
  show Abreast R E (.ok (f s.world).1 t) (.ok (g l).1 (t.inWorld (g l).2))
  rw [ha]
  exact .ok hw

theorem lockstep_forM {ι : Type} {f : ι → Transfer σ Unit} {g : ι → Transfer τ Unit} {is : List ι}
    (hf : ∀ i ∈ is, Lockstep R E (f i) (g i)) : Lockstep R E (is.forM f) (is.forM g) := by
  induction is with
  | nil => exact lockstep_pure _
  | cons i is ih =>
    obtain ⟨hi, his⟩ := List.forall_mem_cons.mp hf
    exact lockstep_bind hi fun _ => ih his

end Transfer

namespace Call

section
variable {R : σ → τ → Prop} {c : Call σ} {b : Link τ}

section
variable {E : Stop → σ → τ → Prop} (h : c.link.Resembles b R)
include h

theorem lockstep_note (level : Level) (text : String) :
    Lockstep (OfWorlds R) E (c.note level text) ((c.onLink b).note level text) :=
  lockstep_act fun _ _ hr => ⟨rfl, h.note hr _⟩

theorem lockstep_restartDeadline :
    Lockstep (OfWorlds R) E c.restartDeadline (c.onLink b).restartDeadline := by
  refine lockstep_modify fun s l hr => ⟨hr, ?_⟩
  have hnow : c.link.now s.world = b.now l := h.now hr
  rw [hnow]
  rfl

theorem lockstep_overdue : Lockstep (OfWorlds R) E c.overdue (c.onLink b).overdue := by
  refine lockstep_get fun s l hr => ?_
  have hnow : c.link.now s.world = b.now l := h.now hr
  rw [hnow]
  exact lockstep_pure _

theorem lockstep_trySend {m : Message} (hsend : ∀ {w l}, R w l →
      (c.link.send m w).1 = (b.send m l).1 ∧ R (c.link.send m w).2 (b.send m l).2) :
    Lockstep (OfWorlds R) E (c.trySend m) ((c.onLink b).trySend m) := by
  refine lockstep_bind (lockstep_note h _ _) fun _ => ?_
  refine lockstep_bind (lockstep_act fun _ _ hr => hsend hr) fun sent => ?_
  cases sent.isOk with
  | true => exact lockstep_bind (lockstep_restartDeadline h) fun _ => lockstep_pure _
  | false => exact lockstep_pure _

section
variable (hstop : ∀ {w l}, R w l → ∀ e : Stop, e.abortCode? = none → E e w l)
include hstop

theorem lockstep_sendMessage {m : Message} (hsend : ∀ {w l}, R w l →
      (c.link.send m w).1 = (b.send m l).1 ∧ R (c.link.send m w).2 (b.send m l).2) :
    Lockstep (OfWorlds R) E (c.sendMessage m) ((c.onLink b).sendMessage m) := by
  refine lockstep_bind (lockstep_trySend h hsend) fun sent => ?_
  cases sent with
  | ok _ => exact lockstep_pure _
  | error e => exact lockstep_throw fun hr => hstop hr (.failed (.transport e)) rfl

theorem lockstep_receive : Lockstep (OfWorlds R) E c.receive (c.onLink b).receive := by
  refine lockstep_bind (lockstep_act fun _ _ hr => h.receive hr) fun received => ?_
  cases received with
  | ok m => exact lockstep_pure _
  | error e => exact lockstep_throw fun hr => hstop hr (.failed (.transport e)) rfl

theorem lockstep_flush (n : Nat) :
    Lockstep (OfWorlds R) E (c.flush n) ((c.onLink b).flush n) := by
  induction n with
  | zero => exact lockstep_throw fun hr => hstop hr .unfinished rfl
  | succ n ih =>
    refine lockstep_bind (lockstep_receive h hstop) fun received => ?_
    cases received with
    | some m => exact ih
    | none => exact lockstep_pure _

theorem lockstep_prepare (mode : Mode) :
    Lockstep (OfWorlds R) E (c.prepare mode) ((c.onLink b).prepare mode) :=
  lockstep_bind (lockstep_note h _ _) fun _ => lockstep_flush h hstop c.patience

theorem prepare_abreast {w : σ} {l : τ} (hr : R (c.link.resume w) (b.resume l)) (mode : Mode) :
    Abreast (OfWorlds R) E (c.prepare mode (c.session mode (c.link.resume w)))
      ((c.onLink b).prepare mode ((c.onLink b).session mode (b.resume l))) := by
  have hsession : (c.session mode (c.link.resume w)).inWorld (b.resume l)
      = (c.onLink b).session mode (b.resume l) := by
    have hnow : c.link.now (c.link.resume w) = b.now (b.resume l) := h.now hr
    simp only [session, Session.inWorld]
    rw [hnow]
    rfl
  have hprepared := lockstep_prepare h hstop mode (c.session mode (c.link.resume w)) (b.resume l) hr
  rw [hsession] at hprepared
  exact hprepared

theorem lockstep_poll (hcancel : Lockstep (OfWorlds R) E
      (c.cancel : Transfer σ (Option Message)) (c.onLink b).cancel) (n : Nat) :
    Lockstep (OfWorlds R) E (c.poll n) ((c.onLink b).poll n) := by
  induction n with
  | zero => exact lockstep_throw fun hr => hstop hr .unfinished rfl
  | succ n ih =>
    refine lockstep_get fun s l hr => ?_
    have hcancelled : c.link.cancelled s.world = b.cancelled l := h.cancelled hr
    have hcancelled' : (c.onLink b).link.cancelled (s.inWorld l).world = b.cancelled l := rfl
    rw [hcancelled, hcancelled']
    cases b.cancelled l with
    | true => exact hcancel
    | false =>
      refine lockstep_bind (lockstep_receive h hstop) fun received => ?_
      cases received with
      | none =>
        refine lockstep_bind (lockstep_overdue h) fun late => ?_
        cases late with
        | true => exact lockstep_pure _
        | false =>
          exact lockstep_bind (lockstep_act fun _ _ hr => ⟨rfl, h.sleep hr _⟩) fun _ => ih
      | some m =>
        show Lockstep (OfWorlds R) E (if m.id = c.node.responseId then _ else _)
          (if m.id = c.node.responseId then _ else _)
        split
        · exact lockstep_bind (lockstep_note h _ _) fun _ => lockstep_pure _
        · refine lockstep_bind (lockstep_note h _ _) fun _ => ?_
          refine lockstep_bind (lockstep_overdue h) fun late => ?_
          cases late with
          | true => exact lockstep_pure _
          | false => exact ih

end
end

theorem Mirrors.tracks {E : Stop → σ → Prop} (h : c.Mirrors b R E) :
    c.Tracks b (OfWorlds R) R fun e w _ => E e w where
  adjust := by
    intro s t l hr hw _
    rw [OfWorlds, hw]
    exact hr
  note := lockstep_note h.toResembles
  restart := lockstep_restartDeadline h.toResembles
  tell m hm hhead := lockstep_sendMessage h.toResembles h.stop fun hr => h.send hr m hm hhead
  next := lockstep_poll h.toResembles h.stop
    (lockstep_bind (lockstep_note h.toResembles _ _) fun _ => h.abandon _ _ rfl) c.patience
  stop hr e he := h.stop hr e he
  abandon := h.abandon
  done hr r := h.note hr r
  noted he r := h.noted he r

end

section
variable {R : Session σ → τ → Prop} {J : σ → τ → Prop} {E : Stop → σ → τ → Prop} {c : Call σ}
  {b : Link τ} (h : c.Tracks b R J E)
include h

theorem lockstep_fail {e : Error} (he : e.abortCode? = none) :
    Lockstep R E (fail e : Transfer σ α) (fail e) :=
  lockstep_throw fun hr => h.stop hr (.failed e) he

theorem lockstep_unfinished : Lockstep R E (throw .unfinished : Transfer σ α) (throw .unfinished) :=
  lockstep_throw fun hr => h.stop hr .unfinished rfl

theorem lockstep_adjust {f : Session σ → Session σ} {g : Session τ → Session τ}
    (hworld : ∀ s, (f s).world = s.world) (hdeadline : ∀ s, (f s).deadline = s.deadline)
    (hg : ∀ s l, g (s.inWorld l) = (f s).inWorld l) :
    Lockstep R E (modify f : Transfer σ Unit) (modify g) :=
  lockstep_modify fun s l hr => ⟨h.adjust hr (hworld s) (hdeadline s), hg s l⟩

theorem lockstep_adjust_bind {f : Session σ → Session σ} {g : Session τ → Session τ}
    {x : Transfer σ α} {y : Transfer τ α} (hworld : ∀ s, (f s).world = s.world)
    (hdeadline : ∀ s, (f s).deadline = s.deadline)
    (hg : ∀ s l, g (s.inWorld l) = (f s).inWorld l) (hx : Lockstep R E x y) :
    Lockstep R E (modify f >>= fun _ => x) (modify g >>= fun _ => y) :=
  lockstep_bind (lockstep_adjust h hworld hdeadline hg) fun _ => hx

theorem lockstep_store (bytes : List UInt8) :
    Lockstep R E (store bytes : Transfer σ Unit) (store bytes) :=
  lockstep_adjust h (fun _ => rfl) (fun _ => rfl) fun _ _ => rfl

theorem lockstep_trim (unused : Nat) :
    Lockstep R E (trim unused : Transfer σ Unit) (trim unused) :=
  lockstep_adjust h (fun _ => rfl) (fun _ => rfl) fun _ _ => rfl

theorem lockstep_send {r : Request} (hr : r.Regular) :
    Lockstep R E (c.send r) ((c.onLink b).send r) :=
  h.tell _ (r.message_id c.node) (hr.message_head_ne_abort c.node)

theorem lockstep_unexpected (r : Response) :
    Lockstep R E (c.unexpected r : Transfer σ α) ((c.onLink b).unexpected r) :=
  lockstep_bind (h.note _ _) fun _ => h.abandon _ _ rfl

theorem lockstep_malformed (e : ParseError) :
    Lockstep R E (c.malformed e : Transfer σ α) ((c.onLink b).malformed e) := by
  refine lockstep_bind (h.note _ _) fun _ => h.abandon _ _ ?_
  cases e <;> rfl

theorem lockstep_readResponse (m : Message) :
    Lockstep R E (c.readResponse m) ((c.onLink b).readResponse m) := by
  unfold readResponse
  split
  · exact lockstep_malformed h _
  · exact lockstep_bind (h.note _ _) fun _ => lockstep_fail h rfl
  · exact lockstep_pure _

theorem lockstep_nextResponse : Lockstep R E c.nextResponse (c.onLink b).nextResponse := by
  refine lockstep_bind (h.next) fun received => ?_
  cases received with
  | some m => exact lockstep_map some (lockstep_readResponse h m)
  | none => exact lockstep_pure _

theorem lockstep_takeRetry (attempts : UInt32) :
    Lockstep R E (c.takeRetry attempts) ((c.onLink b).takeRetry attempts) := by
  refine lockstep_get fun s l hr => ?_
  have hretries : (s.inWorld l).retries = s.retries := rfl
  rw [hretries]
  cases s.retries with
  | zero => exact lockstep_bind (h.note _ _) fun _ => lockstep_fail h rfl
  | succ left =>
    refine lockstep_adjust_bind h (fun _ => rfl) (fun _ => rfl) (fun _ _ => rfl) ?_
    exact h.note _ _

theorem lockstep_awaitRounds {resend : Transfer σ Unit} {resend' : Transfer τ Unit}
    (hs : Lockstep R E resend resend') (attempts : UInt32) (rounds : Nat) :
    Lockstep R E (c.awaitRounds resend attempts rounds)
      ((c.onLink b).awaitRounds resend' attempts rounds) := by
  induction rounds generalizing attempts with
  | zero => exact lockstep_unfinished h
  | succ rounds ih =>
    refine lockstep_bind (lockstep_nextResponse h) fun received => ?_
    cases received with
    | some r => exact lockstep_pure _
    | none =>
      refine lockstep_bind (lockstep_takeRetry h attempts) fun _ => ?_
      exact lockstep_bind hs fun _ => ih _

theorem lockstep_await {resend : Transfer σ Unit} {resend' : Transfer τ Unit}
    (hs : Lockstep R E resend resend') :
    Lockstep R E (c.await resend) ((c.onLink b).await resend') :=
  lockstep_get fun s _ _ => lockstep_awaitRounds h hs 1 (s.retries + 1)

theorem lockstep_exchange {r : Request} (hr : r.Regular) :
    Lockstep R E (c.exchange r) ((c.onLink b).exchange r) :=
  lockstep_bind (lockstep_send h hr) fun _ => lockstep_await h (lockstep_send h hr)

theorem lockstep_checkToggle (toggle : Bool) :
    Lockstep R E (c.checkToggle toggle) ((c.onLink b).checkToggle toggle) := by
  refine lockstep_get fun s l hr => ?_
  have htoggle : (s.inWorld l).toggle = s.toggle := rfl
  rw [htoggle]
  split
  · exact lockstep_adjust h (fun _ => rfl) (fun _ => rfl) fun _ _ => rfl
  · exact h.abandon _ _ rfl

theorem lockstep_checkSize : Lockstep R E c.checkSize (c.onLink b).checkSize := by
  refine lockstep_get fun s l hr => ?_
  have hannounced : (s.inWorld l).announced = s.announced := rfl
  have htransferred : (s.inWorld l).transferred = s.transferred := rfl
  rw [hannounced, htransferred]
  split
  · exact lockstep_pure _
  · exact lockstep_pure _
  · split
    · exact h.abandon _ _ rfl
    · exact lockstep_pure _

theorem lockstep_downloadExpedited {data : List UInt8} (h0 : 1 ≤ data.length)
    (fits : data.length ≤ 4) :
    Lockstep R E (c.downloadExpedited data fits) ((c.onLink b).downloadExpedited data fits) := by
  have hregular := Request.regular_expedited c.target fits h0
  refine lockstep_bind (lockstep_exchange h hregular) fun r => ?_
  cases r with
  | confirmDownload => exact lockstep_adjust h (fun _ => rfl) (fun _ => rfl) fun _ _ => rfl
  | _ => exact lockstep_unexpected h _

theorem lockstep_downloadSegments (data : List UInt8) (i count : Nat) :
    Lockstep R E (c.downloadSegments data i count)
      ((c.onLink b).downloadSegments data i count) := by
  induction count generalizing i with
  | zero => exact lockstep_pure _
  | succ count ih =>
    have hrest : Lockstep R E
        (do
          modify fun s => { s with transferred := s.transferred + (segmentBytes data i).length }
          c.downloadSegments data (i + 1) count)
        (do
          modify fun s => { s with transferred := s.transferred + (segmentBytes data i).length }
          (c.onLink b).downloadSegments data (i + 1) count) :=
      lockstep_adjust_bind h (fun _ => rfl) (fun _ => rfl) (fun _ _ => rfl) (ih _)
    refine lockstep_get fun s l hr => ?_
    have hregular := Request.regular_segment s.toggle (count == 0) (segmentBytes_length_le data i)
    refine lockstep_bind (lockstep_exchange h hregular) fun r => ?_
    cases r with
    | confirmDownloadSegment t => exact lockstep_bind (lockstep_checkToggle h t) fun _ => hrest
    | _ => exact lockstep_bind (lockstep_unexpected h _) fun _ => hrest

theorem lockstep_downloadSegmented (data : List UInt8) :
    Lockstep R E (c.downloadSegmented data) ((c.onLink b).downloadSegmented data) := by
  refine lockstep_adjust_bind h (fun _ => rfl) (fun _ => rfl) (fun _ _ => rfl) ?_
  have hregular := Request.regular_announce c.target (UInt32.ofNat data.length)
  refine lockstep_bind (lockstep_exchange h hregular) fun r => ?_
  cases r with
  | confirmDownload =>
    exact lockstep_bind (lockstep_downloadSegments h data 0 _) fun _ => lockstep_checkSize h
  | _ => exact lockstep_unexpected h _

theorem lockstep_uploadSegments (n : Nat) :
    Lockstep R E (c.uploadSegments n) ((c.onLink b).uploadSegments n) := by
  induction n with
  | zero => exact lockstep_unfinished h
  | succ n ih =>
    refine lockstep_get fun s l hr => ?_
    refine lockstep_bind (lockstep_exchange h (.of_plain trivial)) fun r => ?_
    cases r with
    | uploadSegment t unused last d =>
      refine lockstep_bind (lockstep_checkToggle h t) fun _ => ?_
      refine lockstep_bind (lockstep_store h _) fun _ => ?_
      cases last with
      | true => exact lockstep_pure _
      | false => exact ih
    | _ => exact lockstep_unexpected h _

theorem lockstep_continueUpload (r : Response) :
    Lockstep R E (c.continueUpload r) ((c.onLink b).continueUpload r) := by
  cases r with
  | confirmUpload unused expedited sized a d =>
    cases expedited with
    | true =>
      refine lockstep_adjust_bind h (fun _ => rfl) (fun _ => rfl) (fun _ _ => rfl) ?_
      refine lockstep_bind (lockstep_store h _) fun _ => ?_
      exact lockstep_get fun _ _ _ => lockstep_pure _
    | false =>
      refine lockstep_adjust_bind h (fun _ => rfl) (fun _ => rfl) (fun _ _ => rfl) ?_
      refine lockstep_bind (lockstep_uploadSegments h _) fun _ => ?_
      refine lockstep_bind (lockstep_checkSize h) fun _ => ?_
      exact lockstep_get fun _ _ _ => lockstep_pure _
  | _ => exact lockstep_unexpected h _

theorem lockstep_upload : Lockstep R E c.upload (c.onLink b).upload :=
  lockstep_bind (lockstep_exchange h (.of_plain trivial)) fun r => lockstep_continueUpload h r

theorem lockstep_checkBlockSize (value : UInt8) :
    Lockstep R E (c.checkBlockSize value) ((c.onLink b).checkBlockSize value) := by
  unfold checkBlockSize
  split
  · exact lockstep_pure _
  · exact h.abandon _ _ rfl

theorem lockstep_sendBlockSegment (data : List UInt8) (start : Nat) {seqno : Nat} (h0 : 1 ≤ seqno)
    (hle : seqno ≤ 127) :
    Lockstep R E (c.sendBlockSegment data start seqno)
      ((c.onLink b).sendBlockSegment data start seqno) := by
  have hseqno : (UInt8.ofNat seqno).toNat = seqno :=
    UInt8.toNat_ofNat_of_lt (Nat.lt_of_le_of_lt hle (by decide))
  refine h.tell _ (BlockSegment.message_client_id _ c.node) ?_
  exact BlockSegment.message_head_ne_abort .client c.node (s := blockSegment data _ _)
    (by rw [blockSegment, hseqno]; omega) (by rw [blockSegment, hseqno]; omega)

theorem lockstep_downloadBlockFrom (data : List UInt8) (start : Nat) {length first : Nat}
    (h0 : 1 ≤ length) (hle : length ≤ 127) (hfirst : 1 ≤ first) (n : Nat) :
    Lockstep R E (c.downloadBlockFrom data start length first n)
      ((c.onLink b).downloadBlockFrom data start length first n) := by
  induction n generalizing first with
  | zero => exact lockstep_unfinished h
  | succ n ih =>
    have hsend : ∀ seqno ∈ List.range' first (length + 1 - first),
        Lockstep R E (c.sendBlockSegment data start seqno)
          ((c.onLink b).sendBlockSegment data start seqno) := by
      intro seqno hseqno
      rw [List.mem_range'_1] at hseqno
      exact lockstep_sendBlockSegment h data start (by omega) (by omega)
    refine lockstep_bind (lockstep_forM hsend) fun _ => ?_
    have hresend := lockstep_sendBlockSegment h data start h0 hle
    refine lockstep_bind (lockstep_await h hresend) fun r => ?_
    cases r with
    | confirmBlock seqno next =>
      show Lockstep R E (if length < seqno.toNat then _ else if seqno.toNat = length then _ else _)
        (if length < seqno.toNat then _ else if seqno.toNat = length then _ else _)
      split
      · exact h.abandon _ _ rfl
      · split
        · exact lockstep_checkBlockSize h _
        · exact lockstep_bind (h.note _ _) fun _ => ih (Nat.le_add_left 1 _)
    | _ => exact lockstep_unexpected h _

theorem lockstep_downloadBlocks (data : List UInt8) (start : Nat) (size : BlockSize) :
    Lockstep R E (c.downloadBlocks data start size)
      ((c.onLink b).downloadBlocks data start size) := by
  induction hk : segmentCount data - start using Nat.strongRecOn generalizing start size with
  | ind k ih =>
    rw [downloadBlocks, downloadBlocks]
    split
    · have hpos := size.pos
      have hle := size.le
      refine lockstep_bind (h.note _ _) fun _ => ?_
      have hblock : Lockstep R E (c.downloadBlockFrom data start
          (min size.value.toNat (segmentCount data - start)) 1 c.patience) _ :=
        lockstep_downloadBlockFrom h data start (by omega) (by omega) (Nat.le_refl 1) c.patience
      refine lockstep_bind hblock fun next => ?_
      refine lockstep_adjust_bind h (fun _ => rfl) (fun _ => rfl) (fun _ _ => rfl) ?_
      exact ih _ (by omega) _ _ rfl
    · exact lockstep_pure _

theorem lockstep_downloadBlock (data : List UInt8) :
    Lockstep R E (c.downloadBlock data) ((c.onLink b).downloadBlock data) := by
  refine lockstep_adjust_bind h (fun _ => rfl) (fun _ => rfl) (fun _ _ => rfl) ?_
  refine lockstep_bind (lockstep_exchange h (.of_plain trivial)) fun r => ?_
  cases r with
  | confirmBlockDownload serverCrc a blockSize =>
    refine lockstep_bind (lockstep_checkBlockSize h blockSize) fun size => ?_
    refine lockstep_bind (lockstep_downloadBlocks h data 0 size) fun _ => ?_
    have hregular := Traffic.regular_endBlockDownload data
    refine lockstep_bind (lockstep_exchange h (hregular _)) fun r => ?_
    cases r with
    | confirmBlockDownloadEnd => exact lockstep_checkSize h
    | _ => exact lockstep_unexpected h _
  | _ => exact lockstep_unexpected h _

theorem lockstep_readSegment (m : Message) :
    Lockstep R E (c.readSegment m) ((c.onLink b).readSegment m) := by
  unfold readSegment
  split
  · exact lockstep_malformed h _
  · rename_i segment hs
    show Lockstep R E (if segment.seqno = 0 ∨ c.config.blockSize < segment.seqno then _ else _)
      (if segment.seqno = 0 ∨ c.config.blockSize < segment.seqno then _ else _)
    split
    · exact h.abandon _ _ rfl
    · exact lockstep_pure _

theorem lockstep_takeSegment (segment : BlockSegment) :
    Lockstep R E (c.takeSegment segment) ((c.onLink b).takeSegment segment) := by
  refine lockstep_get fun s l hr => ?_
  have hseqno : (s.inWorld l).seqno = s.seqno := rfl
  rw [hseqno]
  dsimp only
  split
  · refine lockstep_bind (h.restart) fun _ => ?_
    refine lockstep_bind (lockstep_store h _) fun _ => ?_
    exact lockstep_adjust_bind h (fun _ => rfl) (fun _ => rfl) (fun _ _ => rfl)
      (lockstep_pure _)
  · exact lockstep_bind (h.note _ _) fun _ => lockstep_pure _

theorem lockstep_acknowledge {f : Request → Transfer σ α} {g : Request → Transfer τ α}
    (hf : ∀ seqno, Lockstep R E (f (c.acknowledgement seqno)) (g (c.acknowledgement seqno))) :
    Lockstep R E (c.acknowledge >>= f) ((c.onLink b).acknowledge >>= g) := by
  unfold acknowledge
  simp only [bind_assoc]
  refine lockstep_get fun s l hr => ?_
  refine lockstep_bind (h.note _ _) fun _ => ?_
  refine lockstep_bind (lockstep_send h (.of_plain trivial)) fun _ => ?_
  show Lockstep R E ((if s.seqno = c.config.blockSize then _ else _) >>= f)
    ((if s.seqno = c.config.blockSize then _ else _) >>= g)
  split
  · simp only [bind_assoc, pure_bind]
    exact lockstep_adjust_bind h (fun _ => rfl) (fun _ => rfl) (fun _ _ => rfl) (hf s.seqno)
  · simp only [pure_bind]
    exact hf s.seqno

theorem lockstep_receiveBlocks {request : Request} (hrequest : request.Regular)
    (attempts : UInt32) (n : Nat) :
    Lockstep R E (c.receiveBlocks request attempts n)
      ((c.onLink b).receiveBlocks request attempts n) := by
  have hacknowledgement : ∀ seqno, (c.acknowledgement seqno).Regular := fun _ =>
    .of_plain trivial
  induction n generalizing request attempts with
  | zero => exact lockstep_unfinished h
  | succ n ih =>
    refine lockstep_bind (h.next) fun received => ?_
    cases received with
    | none =>
      refine lockstep_bind (lockstep_takeRetry h attempts) fun _ => ?_
      refine lockstep_get fun s l hr => ?_
      have hagain : (if 0 < s.seqno then c.acknowledgement s.seqno else request).Regular := by
        split
        · exact hacknowledgement s.seqno
        · exact hrequest
      exact lockstep_bind (lockstep_send h hagain) fun _ => ih hagain _
    | some m =>
      show Lockstep R E (if m.data.get 0 = 0x80 then _ else _)
        (if m.data.get 0 = 0x80 then _ else _)
      split
      · exact lockstep_bind (lockstep_readResponse h m) fun _ => ih hrequest _
      · refine lockstep_bind (lockstep_readSegment h m) fun segment => ?_
        refine lockstep_bind (lockstep_takeSegment h segment) fun inOrder => ?_
        show Lockstep R E
          (if (inOrder && segment.last) = true then _
            else if segment.seqno = c.config.blockSize ∨ segment.last = true then _ else _)
          (if (inOrder && segment.last) = true then _
            else if segment.seqno = c.config.blockSize ∨ segment.last = true then _ else _)
        split
        · exact lockstep_pure _
        · split
          · exact lockstep_acknowledge h fun seqno => ih (hacknowledgement seqno) 1
          · exact ih hrequest 1

theorem lockstep_uploadBlocks (serverCrc : Bool) :
    Lockstep R E (c.uploadBlocks serverCrc) ((c.onLink b).uploadBlocks serverCrc) := by
  refine lockstep_bind (lockstep_send h (.of_plain trivial)) fun _ => ?_
  refine lockstep_adjust_bind h (fun _ => rfl) (fun _ => rfl) (fun _ _ => rfl) ?_
  have hstart : Request.startBlockUpload.Regular := .of_plain trivial
  refine lockstep_bind (lockstep_receiveBlocks h hstart _ _) fun _ => ?_
  refine lockstep_get fun s l hr => ?_
  refine lockstep_bind (lockstep_exchange h (.of_plain trivial)) fun r => ?_
  cases r with
  | endBlockUpload unused expected =>
    refine lockstep_bind (lockstep_trim h _) fun _ => lockstep_get fun s l hr => ?_
    have hbuffer : (s.inWorld l).buffer = s.buffer := rfl
    have hrest : Lockstep R E
        (do
          c.checkSize
          c.send .confirmBlockUploadEnd
          return (← get).buffer)
        (do
          (c.onLink b).checkSize
          (c.onLink b).send .confirmBlockUploadEnd
          return (← get).buffer) := by
      refine lockstep_bind (lockstep_checkSize h) fun _ => ?_
      refine lockstep_bind (lockstep_send h (.of_plain trivial)) fun _ => ?_
      exact lockstep_get fun _ _ _ => lockstep_pure _
    rw [hbuffer]
    show Lockstep R E
      (if (serverCrc && c.config.useCrc && crc s.buffer != expected) = true then _ else _)
      (if (serverCrc && c.config.useCrc && crc s.buffer != expected) = true then _ else _)
    split
    · exact lockstep_bind (h.abandon _ _ rfl) fun _ => hrest
    · exact hrest
  | _ => exact lockstep_unexpected h _

theorem lockstep_uploadBlock : Lockstep R E c.uploadBlock (c.onLink b).uploadBlock := by
  refine lockstep_bind (lockstep_exchange h (.of_plain trivial)) fun r => ?_
  cases r with
  | confirmBlockUpload serverCrc sized a size =>
    cases sized with
    | true =>
      refine lockstep_adjust_bind h (fun _ => rfl) (fun _ => rfl) (fun _ _ => rfl) ?_
      exact lockstep_uploadBlocks h serverCrc
    | false => exact lockstep_uploadBlocks h _
  | confirmUpload =>
    exact lockstep_bind (h.note _ _) fun _ => lockstep_continueUpload h _
  | _ => exact lockstep_unexpected h _

end
end Call

structure Alike (J : σ → τ → Prop) (E : Stop → σ → τ → Prop) (o : Outcome σ α) (p : Outcome τ α) :
    Prop where
  result : o.1 = p.1
  value : ∀ v, o.1 = .ok v → J o.2 p.2
  failure : ∀ e, o.1 = .error e → E e o.2 p.2

/-- Of failures only the world of the one outcome is told. -/
abbrev Parallel (R : σ → τ → Prop) (E : Stop → σ → Prop) (o : Outcome σ α) (p : Outcome τ α) :
    Prop := Alike R (fun e w _ => E e w) o p

section
variable {J : σ → τ → Prop} {E : Stop → σ → τ → Prop}

theorem Alike.ok {a : α} {w : σ} {l : τ} (h : J w l) :
    Alike J E ((.ok a, w) : Outcome σ α) (.ok a, l) := by
  refine ⟨rfl, fun _ _ => h, fun _ he => ?_⟩
  cases he

theorem Alike.error {e : Stop} {w : σ} {l : τ} (h : E e w l) :
    Alike J E ((.error e, w) : Outcome σ α) (.error e, l) := by
  refine ⟨rfl, fun _ hv => ?_, fun _ he => ?_⟩
  · cases hv
  · cases he
    exact h

theorem Alike.map {o : Outcome σ α} {p : Outcome τ α} (f : α → β) (h : Alike J E o p) :
    Alike J E (Outcome.map f o) (Outcome.map f p) := by
  obtain ⟨r, w⟩ := o
  obtain ⟨r', l⟩ := p
  obtain rfl : r = r' := h.result
  cases r with
  | ok a => exact .ok (h.value a rfl)
  | error e => exact .error (h.failure e rfl)

theorem Call.run_alike {R : Session σ → τ → Prop} {c : Call σ} {b : Link τ}
    (h : c.Tracks b R J E) {mode : Mode} {work : Transfer σ α} {work' : Transfer τ α}
    (hw : Lockstep R E work work') {w : σ} {l : τ}
    (hstart : Abreast R E (c.prepare mode (c.session mode (c.link.resume w)))
      ((c.onLink b).prepare mode ((c.onLink b).session mode (b.resume l)))) :
    Alike J E (c.run mode work w) ((c.onLink b).run mode work' l) := by
  have hlink : (c.onLink b).link.resume l = b.resume l := rfl
  rw [run, run, hlink]
  generalize c.prepare mode (c.session mode (c.link.resume w)) = p,
    (c.onLink b).prepare mode ((c.onLink b).session mode (b.resume l)) = q at hstart
  cases hstart with
  | error he => exact .error he
  | ok hs =>
    have hworked := hw _ _ hs
    dsimp only
    generalize work _ = r, work' _ = r' at hworked
    cases hworked with
    | ok ht => exact .ok (h.done ht _)
    | @error e _ _ he =>
      cases e with
      | failed e => exact .error (h.noted he _)
      | unfinished => exact .error he

section
variable {R : NodeId → Session σ → τ → Prop} {client : Client σ} {b : Link τ} {node : UInt8}
  {target : Address} {w : σ} {l : τ}
  (h : ∀ n : NodeId, n.value = node → ∀ direction,
    (client.call n target direction).Tracks b (R n) J E)
  (hstart : ∀ n : NodeId, n.value = node → ∀ direction mode,
    let c := client.call n target direction
    Abreast (R n) E (c.prepare mode (c.session mode (c.link.resume w)))
      ((c.onLink b).prepare mode ((c.onLink b).session mode (b.resume l))))
  (hearly : ∀ e : Stop, e.abortCode? = none → E e w l)
include h hstart hearly

theorem transfer_alike (direction : Direction) (mode : Mode) {work : Call σ → Transfer σ α}
    {work' : Call τ → Transfer τ α} (hw : ∀ {R : Session σ → τ → Prop} {c : Call σ},
      c.Tracks b R J E → Lockstep R E (work c) (work' (c.onLink b))) :
    Alike J E (client.transfer node target direction mode work w)
      ((client.onLink b).transfer node target direction mode work' l) := by
  cases hn : NodeId.ofByte? node with
  | none =>
    rw [transfer, transfer, hn]
    exact .error (hearly _ rfl)
  | some n =>
    obtain rfl : n.value = node := NodeId.value_of_ofByte? hn
    rw [transfer_node, transfer_node]
    exact Call.run_alike (h n rfl direction) (hw (h n rfl direction)) (hstart n rfl direction mode)

theorem uploadSegmented_alike :
    Alike J E (client.uploadSegmented node target w)
      ((client.onLink b).uploadSegmented node target l) :=
  transfer_alike h hstart hearly .upload .segmented Call.lockstep_upload

theorem uploadBlock_alike :
    Alike J E (client.uploadBlock node target w)
      ((client.onLink b).uploadBlock node target l) :=
  transfer_alike h hstart hearly .upload .block Call.lockstep_uploadBlock

theorem upload_alike :
    Alike J E (client.upload node target w) ((client.onLink b).upload node target l) := by
  have hconfig : (client.onLink b).config = client.config := rfl
  rw [upload, upload, hconfig]
  cases client.config.uploadMode with
  | block => exact uploadBlock_alike h hstart hearly
  | _ => exact uploadSegmented_alike h hstart hearly

theorem uploadNumber_alike
    (hlong : ∀ {w l}, J w l → ∀ e : Stop, e.abortCode? = none → E e w l) :
    Alike J E (client.uploadNumber node target w)
      ((client.onLink b).uploadNumber node target l) := by
  have hupload := uploadSegmented_alike h hstart hearly
  rw [uploadNumber, uploadNumber]
  generalize client.uploadSegmented node target w = o,
    (client.onLink b).uploadSegmented node target l = p at hupload
  obtain ⟨r, w'⟩ := o
  obtain ⟨r', l'⟩ := p
  obtain rfl : r = r' := hupload.result
  cases r with
  | error e => exact .error (hupload.failure e rfl)
  | ok data =>
    have hr' : J w' l' := hupload.value data rfl
    dsimp only
    split
    · exact .ok hr'
    · exact .error (hlong hr' _ rfl)

theorem downloadExpedited_alike (data : List UInt8) :
    Alike J E (client.downloadExpedited node target data w)
      ((client.onLink b).downloadExpedited node target data l) := by
  rw [downloadExpedited, downloadExpedited]
  split
  · rename_i hsize
    exact transfer_alike h hstart hearly .download .expedited fun hc =>
      Call.lockstep_downloadExpedited hc hsize.1 hsize.2
  · exact .error (hearly _ rfl)

theorem downloadSegmented_alike (data : List UInt8) :
    Alike J E (client.downloadSegmented node target data w)
      ((client.onLink b).downloadSegmented node target data l) := by
  rw [downloadSegmented, downloadSegmented]
  split
  · exact transfer_alike h hstart hearly .download .segmented fun hc =>
      Call.lockstep_downloadSegmented hc data
  · exact .error (hearly _ rfl)

theorem downloadBlock_alike (data : List UInt8) :
    Alike J E (client.downloadBlock node target data w)
      ((client.onLink b).downloadBlock node target data l) := by
  rw [downloadBlock, downloadBlock]
  split
  · exact transfer_alike h hstart hearly .download .block fun hc =>
      Call.lockstep_downloadBlock hc data
  · exact .error (hearly _ rfl)

theorem download_alike (data : List UInt8) :
    Alike J E (client.download node target data w)
      ((client.onLink b).download node target data l) := by
  have hconfig : (client.onLink b).config = client.config := rfl
  rw [download, download, hconfig]
  cases client.config.downloadMode data.length with
  | expedited => exact downloadExpedited_alike h hstart hearly data
  | segmented => exact downloadSegmented_alike h hstart hearly data
  | block => exact downloadBlock_alike h hstart hearly data

theorem perform_alike
    (hlong : ∀ {w l}, J w l → ∀ e : Stop, e.abortCode? = none → E e w l) (op : Operation) :
    Alike J E (client.perform node target op w)
      ((client.onLink b).perform node target op l) := by
  cases op with
  | upload => exact (upload_alike h hstart hearly).map _
  | uploadSegmented => exact (uploadSegmented_alike h hstart hearly).map _
  | uploadBlock => exact (uploadBlock_alike h hstart hearly).map _
  | uploadNumber => exact (uploadNumber_alike h hstart hearly hlong).map _
  | download data => exact (download_alike h hstart hearly data).map _
  | downloadExpedited data => exact (downloadExpedited_alike h hstart hearly data).map _
  | downloadSegmented data => exact (downloadSegmented_alike h hstart hearly data).map _
  | downloadBlock data => exact (downloadBlock_alike h hstart hearly data).map _
  | downloadNumber value size =>
    rw [perform, perform, downloadNumber, downloadNumber]
    split
    · exact (downloadExpedited_alike h hstart hearly _).map _
    · exact .error (hearly _ rfl)

end
end

/-- What is seen of a link is enough to tell how an operation goes. -/
theorem perform_parallel {R : σ → τ → Prop} {E : Stop → σ → Prop} {client : Client σ} {b : Link τ}
    {node : UInt8} {target : Address}
    (h : ∀ n : NodeId, n.value = node → ∀ direction,
      (client.call n target direction).Mirrors b R E)
    {w : σ} {l : τ} (hearly : ∀ e : Stop, e.abortCode? = none → E e w)
    (hr : R (client.link.resume w) (b.resume l))
    (hstop : ∀ {w l}, R w l → ∀ e : Stop, e.abortCode? = none → E e w) (op : Operation) :
    Parallel R E (client.perform node target op w)
      ((client.onLink b).perform node target op l) := by
  refine perform_alike (fun n hn direction => (h n hn direction).tracks)
    (fun n hn direction mode => ?_) hearly hstop op
  have hmirrors : (client.call n target direction).Mirrors b R E := h n hn direction
  exact Call.prepare_abreast hmirrors.toResembles hmirrors.stop hr mode

end Canopen.Client
