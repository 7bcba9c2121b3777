import Canopen.Proofs.AbortDiscipline
import Canopen.Proofs.Ends
import Canopen.Proofs.Lockstep

/-!
What holds whenever a client has the turn holds throughout all ways of transferring. Only the
steps that all of them share have to be looked at: to send a message, to ask and wait for the
answer, to receive the blocks of an upload, and to give up.
-/

set_option autoImplicit false

namespace Canopen.Client

open Can (Message)
open Sdo
open Transfer

variable {σ α β : Type}

/-- A step that starts where `I` holds and ends where `G` holds, or fails where `K` holds. -/
def Carries (I : Session σ → Prop) (K : Stop → σ → Prop) (x : Transfer σ α)
    (G : α → Session σ → Prop) : Prop :=
  ∀ s, I s → Ends x s G fun e t => K e t.world

def Keeps (I : Session σ → Prop) (K : Stop → σ → Prop) (x : Transfer σ α) : Prop :=
  Carries I K x fun _ => I

/-- Not the message that asks for the blocks of an upload. In a download a segment may look like
it, and asks for nothing. -/
def Call.Plain (c : Call σ) (m : Message) : Prop :=
  c.direction = .upload → m ≠ Request.startBlockUpload.message c.node

/-- `I` holds throughout all steps that the ways of transferring share, and `K` when one of them has
failed. -/
structure Call.Sustains (c : Call σ) (I : Session σ → Prop) (K : Stop → σ → Prop) : Prop where
  /-- What a session remembers of the data is of no matter. -/
  adjust : ∀ {s t}, I s → t.world = s.world → t.retries = s.retries → t.deadline = s.deadline →
    I t
  note : ∀ level text, Keeps I K (c.note level text)
  tell : ∀ m, c.Plain m → Keeps I K (c.sendMessage m)
  ask : ∀ m, c.Plain m → Keeps I K (do
    c.sendMessage m
    c.await (c.sendMessage m))
  abandon : ∀ {α : Type} (code : AbortCode) (e : Error), e.abortCode? = some code.code →
    Keeps I K (c.abandon code e : Transfer σ α)

/-- `I` holds throughout the loops that depend on the world too. When the call is done `J` holds,
and `K` when it has failed. -/
structure Call.Completes (c : Call σ) (I : Session σ → Prop) (J : σ → Prop) (K : Stop → σ → Prop) :
    Prop extends c.Sustains I K where
  segments : c.direction = .upload → Keeps I K (c.uploadSegments c.patience)
  block : c.direction = .download → ∀ (data : List UInt8) (start : Nat) {length : Nat},
    1 ≤ length → Keeps I K (c.downloadBlockFrom data start length 1 c.patience)
  stream : c.direction = .upload → Keeps I K (do
    c.send .startBlockUpload
    modify fun s => { s with seqno := 0 }
    c.receiveBlocks .startBlockUpload 1 c.patience)
  done : ∀ {s}, I s → ∀ text, J (c.link.note ⟨.debug, text⟩ s.world)
  failed : ∀ {e w}, K (.failed e) w → ∀ text, K (.failed e) (c.link.note ⟨.debug, text⟩ w)

/-- `I` holds whenever the call has the turn, `J` when it is done, and `K` when it has failed. A
loop may end for want of patience. -/
structure Call.Upholds (c : Call σ) (I : Session σ → Prop) (J : σ → Prop) (K : Stop → σ → Prop) :
    Prop extends c.Sustains I K where
  stream : c.direction = .upload → Keeps I K (do
    c.send .startBlockUpload
    modify fun s => { s with seqno := 0 }
    c.receiveBlocks .startBlockUpload 1 c.patience)
  unfinished : ∀ {s}, I s → K .unfinished s.world
  done : ∀ {s}, I s → ∀ text, J (c.link.note ⟨.debug, text⟩ s.world)
  failed : ∀ {e w}, K (.failed e) w → ∀ text, K (.failed e) (c.link.note ⟨.debug, text⟩ w)

/-- Each way of transferring that begins where `I` holds ends where `G` holds, and fails where `K`
holds. When the call is done `J` holds. -/
structure Call.Achieves (c : Call σ) (I G : Session σ → Prop) (J : σ → Prop)
    (K : Stop → σ → Prop) : Prop where
  expedited : c.direction = .download → ∀ {data : List UInt8}, 1 ≤ data.length → ∀ fits,
    Carries I K (c.downloadExpedited data fits) fun _ => G
  segmented : c.direction = .download → ∀ data, Carries I K (c.downloadSegmented data) fun _ => G
  block : c.direction = .download → ∀ data, Carries I K (c.downloadBlock data) fun _ => G
  upload : c.direction = .upload → Carries I K c.upload fun _ => G
  uploadBlock : c.direction = .upload → Carries I K c.uploadBlock fun _ => G
  done : ∀ {s}, G s → ∀ text, J (c.link.note ⟨.debug, text⟩ s.world)
  failed : ∀ {e w}, K (.failed e) w → ∀ text, K (.failed e) (c.link.note ⟨.debug, text⟩ w)

theorem Carries.mono {I I' : Session σ → Prop} {K : Stop → σ → Prop} {x : Transfer σ α}
    {G G' : α → Session σ → Prop} (h : Carries I K x G) (hi : ∀ s, I' s → I s)
    (hg : ∀ a s, G a s → G' a s) : Carries I' K x G' :=
  fun s hs => (h s (hi s hs)).mono hg fun _ _ he => he

namespace Transfer

variable {I : Session σ → Prop} {G : α → Session σ → Prop} {H : β → Session σ → Prop}
  {K : Stop → σ → Prop}

theorem carries_bind {x : Transfer σ α} {f : α → Transfer σ β} (hx : Carries I K x G)
    (hf : ∀ a, Carries (G a) K (f a) H) : Carries I K (x >>= f) H := by
  intro s hs
  rw [ends_bind]
  exact (hx s hs).mono (fun a t ht => hf a t ht) fun _ _ he => he

theorem carries_get {f : Session σ → Transfer σ α} (hf : ∀ s, Carries I K (f s) G) :
    Carries I K (get >>= f) G := fun s hs => hf s s hs

theorem carries_of_and {p : Prop} {x : Transfer σ α} (h : p → Carries I K x G) :
    Carries (fun s => p ∧ I s) K x G := fun s hs => h hs.1 s hs.2

theorem keeps_pure (a : α) : Keeps I K (pure a : Transfer σ α) := fun _ hs => hs

theorem keeps_bind {x : Transfer σ α} {f : α → Transfer σ β} (hx : Keeps I K x)
    (hf : ∀ a, Keeps I K (f a)) : Keeps I K (x >>= f) :=
  carries_bind hx hf

theorem keeps_get {f : Session σ → Transfer σ α} (hf : ∀ s, Keeps I K (f s)) :
    Keeps I K (get >>= f) := carries_get hf

theorem keeps_modify {f : Session σ → Session σ} (hf : ∀ s, I s → I (f s)) :
    Keeps I K (modify f : Transfer σ Unit) := hf

theorem keeps_throw {e : Stop} (he : ∀ s, I s → K e s.world) :
    Keeps I K (throw e : Transfer σ α) := he

theorem keeps_forM {ι : Type} {f : ι → Transfer σ Unit} {is : List ι}
    (hf : ∀ i ∈ is, Keeps I K (f i)) : Keeps I K (is.forM f) := by
  induction is with
  | nil => exact keeps_pure _
  | cons i is ih =>
    obtain ⟨hi, his⟩ := List.forall_mem_cons.mp hf
    exact keeps_bind hi fun _ => ih his

end Transfer

structure Link.Preserves (a : Link σ) (P : σ → Prop) : Prop where
  note : ∀ {w}, P w → ∀ r, P (a.note r w)
  send : ∀ {w}, P w → ∀ m, P (a.send m w).2

theorem Link.preserves_true (a : Link σ) : a.Preserves fun _ => True where
  note _ _ := trivial
  send _ _ := trivial

namespace Call

variable {c : Call σ} {W L : Nat → Session σ → Prop} {M : Message → Session σ → Prop}
  {Q : Option Message → Session σ → Prop} {K : Stop → σ → Prop}

/-- A wait ends with a message on the channel of the server or when the deadline is found to have
passed. The clock is read behind a look that found nothing, and once a foreign message is logged.
`W` may tell how many looks are left. -/
theorem ends_poll_of_looks (hcancel : ∀ n s, W (n + 1) s →
      Ends (c.cancel : Transfer σ (Option Message)) s Q fun e t => K e t.world)
    (hunfinished : ∀ s, W 0 s → K .unfinished s.world)
    (herror : ∀ n s e w, W (n + 1) s → c.link.receive s.world = (.error e, w) →
      K (.failed (.transport e)) w)
    (hnone : ∀ n s w, W (n + 1) s → c.link.receive s.world = (.ok none, w) →
      if s.deadline ≤ c.link.now w then Q none { s with world := w }
      else W n { s with world := c.link.sleep c.config.pollInterval w })
    (hforeign : ∀ n s m w, W (n + 1) s → c.link.receive s.world = (.ok (some m), w) →
      m.id ≠ c.node.responseId →
      let v := c.link.note ⟨.trace, s!"Ignoring {m}"⟩ w
      if s.deadline ≤ c.link.now v then Q none { s with world := v } else W n { s with world := v })
    (hown : ∀ n s m w, W (n + 1) s → c.link.receive s.world = (.ok (some m), w) →
      m.id = c.node.responseId →
      Q (some m) { s with world := c.link.note ⟨.trace, s!"SDO rx: {m}"⟩ w })
    (n : Nat) {s : Session σ} (hs : W n s) :
    Ends (c.poll n) s Q fun e t => K e t.world := by
  -- On the looks left: one that ends nothing is followed by the next.
  induction n generalizing s with
  | zero => exact hunfinished s hs
  | succ n ih =>
    rw [poll, ends_bind, ends_get]
    split
    · exact hcancel n s hs
    · rw [ends_bind, receive, ends_bind, ends_act]
      generalize hreceived : c.link.receive s.world = p
      obtain ⟨received, w⟩ := p
      cases received with
      | error e => exact herror n s e w hs hreceived
      | ok m? =>
        cases m? with
        | none =>
          have hlook := hnone n s w hs hreceived
          simp only [ends_pure, ends_bind, overdue, ends_get]
          by_cases hlate : s.deadline ≤ c.link.now w
          · rw [if_pos hlate] at hlook
            rw [if_pos (decide_eq_true hlate)]
            exact hlook
          · rw [if_neg hlate] at hlook
            rw [if_neg (by simpa using hlate), ends_bind, ends_act]
            exact ih hlook
        | some m =>
          simp only [ends_pure]
          split
          · rename_i hid
            exact hown n s m w hs hreceived hid
          · rename_i hid
            have hlook := hforeign n s m w hs hreceived hid
            simp only [ends_bind, note, ends_act, overdue, ends_get, ends_pure]
            dsimp only at hlook
            generalize c.link.note _ w = v at hlook
            by_cases hlate : s.deadline ≤ c.link.now v
            · rw [if_pos hlate] at hlook
              rw [if_pos (decide_eq_true hlate)]
              exact hlook
            · rw [if_neg hlate] at hlook
              rw [if_neg (by simpa using hlate)]
              exact ih hlook

theorem keeps_takeRetry_of_note {P : σ → Prop} (hnote : ∀ {w}, P w → ∀ r, P (c.link.note r w))
    (htimeout : ∀ k w, P w → K (.failed (.timeout k)) w) (attempts : UInt32) :
    Keeps (fun s => P s.world) K (c.takeRetry attempts) := by
  intro s hs
  rw [takeRetry, ends_bind, ends_get]
  cases s.retries with
  | zero => exact htimeout _ _ (hnote hs _)
  | succ left => exact hnote hs _

section
variable {P : σ → Prop} (hP : c.link.Preserves P)
include hP

theorem keeps_note_of_preserves (level : Level) (text : String) :
    Keeps (fun s => P s.world) K (c.note level text) :=
  fun _ hs => hP.note hs _

theorem keeps_sendMessage_of_preserves (herror : ∀ e w, P w → K (.failed (.transport e)) w)
    (m : Message) : Keeps (fun s => P s.world) K (c.sendMessage m) := by
  intro s hs
  simp only [sendMessage, trySend, note, ends_bind, ends_act]
  have hw := hP.send (hP.note hs ⟨.trace, s!"SDO tx: {m}"⟩) m
  generalize c.link.send m _ = p at hw
  obtain ⟨sent, w⟩ := p
  cases sent with
  | ok _ => exact hw
  | error e => exact herror e w hw

theorem keeps_takeRetry_of_preserves (htimeout : ∀ k w, P w → K (.failed (.timeout k)) w)
    (attempts : UInt32) : Keeps (fun s => P s.world) K (c.takeRetry attempts) :=
  keeps_takeRetry_of_note hP.note htimeout attempts

variable {s : Session σ} (hs : P s.world)
include hs

theorem ends_abandon_of_preserves (code : AbortCode) (e : Error) :
    Ends (c.abandon code e : Transfer σ α) s (fun _ _ => False)
      (fun stop t => stop = .failed e ∧ P t.world) :=
  ends_abandon_of_send (P := P) (Q := P) (fun _ _ h => hP.note h _) (fun _ _ h => hP.note h _)
    code e (fun _ h => hP.send h _) hs

theorem ends_cancel_of_preserves :
    Ends (c.cancel : Transfer σ α) s (fun _ _ => False)
      (fun stop t => stop = .failed .cancelled ∧ P t.world) := by
  rw [cancel, ends_bind]
  exact (keeps_note_of_preserves (K := fun _ _ => False) hP _ _ s hs).mono
    (fun _ _ ht => ends_abandon_of_preserves hP ht _ _) fun _ _ h => h.elim

theorem ends_malformed_of_preserves (e : ParseError) :
    Ends (c.malformed e : Transfer σ α) s (fun _ _ => False)
      (fun stop t => stop = .failed (.malformed e) ∧ P t.world) := by
  rw [malformed, ends_bind]
  exact (keeps_note_of_preserves (K := fun _ _ => False) hP _ _ s hs).mono
    (fun _ _ ht => ends_abandon_of_preserves hP ht _ _) fun _ _ h => h.elim

end

/-- Each round of waiting ends with a response, or with a retry and the next round. `W` and `L` may
tell how many attempts were made, and how many rounds are left. -/
theorem ends_awaitRounds_of_attempts {resend : Transfer σ Unit}
    {W L : UInt32 → Nat → Session σ → Prop} {I : Response → Session σ → Prop}
    (hunfinished : ∀ attempts s, W attempts 0 s → K .unfinished s.world)
    (hnext : ∀ attempts n s, W attempts (n + 1) s → Ends c.nextMessage s
      (fun received t => match received with | some m => M m t | none => L attempts n t)
      fun e t => K e t.world)
    (hread : ∀ m s, M m s → Ends (c.readResponse m) s I fun e t => K e t.world)
    (hretry : ∀ attempts n s, L attempts n s →
      Ends (c.takeRetry attempts >>= fun _ => resend) s (fun _ t => W (attempts + 1) n t)
        fun e t => K e t.world)
    {attempts : UInt32} {rounds : Nat} {s : Session σ} (hs : W attempts rounds s) :
    Ends (c.awaitRounds resend attempts rounds) s I fun e t => K e t.world := by
  induction rounds generalizing attempts s with
  | zero => exact hunfinished attempts s hs
  | succ rounds ih =>
    rw [awaitRounds, nextResponse, bind_assoc, ends_bind]
    refine (hnext attempts rounds s hs).mono (fun received t ht => ?_) fun _ _ he => he
    cases received with
    | some m =>
      rw [ends_bind, ends_map]
      exact hread m t ht
    | none =>
      rw [pure_bind]
      have hround := hretry attempts rounds t ht
      rw [ends_bind] at hround ⊢
      refine hround.mono (fun _ u hu => ?_) fun _ _ he => he
      rw [ends_bind]
      exact hu.mono (fun _ _ hv => ih hv) fun _ _ he => he

theorem ends_awaitRounds_of_next {resend : Transfer σ Unit}
    {I : Response → Session σ → Prop}
    (hunfinished : ∀ s, W 0 s → K .unfinished s.world)
    (hnext : ∀ n s, W (n + 1) s → Ends c.nextMessage s
      (fun received t => match received with | some m => M m t | none => L n t)
      fun e t => K e t.world)
    (hread : ∀ m s, M m s → Ends (c.readResponse m) s I fun e t => K e t.world)
    (hretry : ∀ attempts n s, L n s → Ends (c.takeRetry attempts >>= fun _ => resend) s
      (fun _ t => W n t) fun e t => K e t.world)
    (attempts : UInt32) (rounds : Nat) {s : Session σ} (hs : W rounds s) :
    Ends (c.awaitRounds resend attempts rounds) s I fun e t => K e t.world :=
  ends_awaitRounds_of_attempts (W := fun _ => W) (L := fun _ => L) (fun _ => hunfinished)
    (fun _ => hnext) hread hretry hs

/-- Each round of a stream takes a message or a retry, and leads to the next round or, with the last
segment, to the end. `W` and `L` may tell how many attempts were made since something came, and how
many rounds are left. -/
theorem ends_receiveBlocks_of_attempts {W L : UInt32 → Nat → Request → Session σ → Prop}
    {M : UInt32 → Nat → Request → Message → Session σ → Prop} {I : Session σ → Prop}
    (hunfinished : ∀ attempts request s, W attempts 0 request s → K .unfinished s.world)
    (hnext : ∀ attempts n request s, W attempts (n + 1) request s → Ends c.nextMessage s
      (fun received t => match received with
        | some m => M attempts n request m t
        | none => L attempts n request t)
      fun e t => K e t.world)
    (hretry : ∀ attempts n request s, L attempts n request s → Ends (c.takeRetry attempts) s
      (fun _ t =>
        let again := if 0 < t.seqno then c.acknowledgement t.seqno else request
        Ends (c.send again) t (fun _ u => W (attempts + 1) n again u) fun e u => K e u.world)
      fun e t => K e t.world)
    (hread : ∀ attempts n request m s, M attempts n request m s → m.data.get 0 = 0x80 →
      Ends (c.readResponse m) s (fun _ t => W attempts n request t) fun e t => K e t.world)
    (hsegment : ∀ attempts n request m s, M attempts n request m s → m.data.get 0 ≠ 0x80 →
      Ends (c.readSegment m) s
        (fun segment t => Ends (c.takeSegment segment) t
          (fun inOrder u =>
            if inOrder && segment.last then I u
            else if segment.seqno = c.config.blockSize ∨ segment.last then
              Ends c.acknowledge u (fun request v => W 1 n request v) fun e v => K e v.world
            else W 1 n request u)
          fun e u => K e u.world)
        fun e t => K e t.world)
    {attempts : UInt32} {n : Nat} {request : Request} {s : Session σ}
    (hs : W attempts n request s) :
    Ends (c.receiveBlocks request attempts n) s (fun _ t => I t) fun e t => K e t.world := by
  induction n generalizing request attempts s with
  | zero => exact hunfinished attempts request s hs
  | succ n ih =>
    rw [receiveBlocks, ends_bind]
    refine (hnext attempts n request s hs).mono (fun received t ht => ?_) fun _ _ he => he
    cases received with
    | none =>
      rw [ends_bind]
      refine (hretry attempts n request t ht).mono (fun _ u hu => ?_) fun _ _ he => he
      rw [ends_bind, ends_get, ends_bind]
      exact hu.mono (fun _ _ hv => ih hv) fun _ _ he => he
    | some m =>
      dsimp only
      split
      · rename_i hhead
        rw [ends_bind]
        exact (hread attempts n request m t ht hhead).mono (fun _ _ hu => ih hu) fun _ _ he => he
      · rename_i hhead
        rw [ends_bind]
        refine (hsegment attempts n request m t ht hhead).mono (fun segment u hu => ?_)
          fun _ _ he => he
        rw [ends_bind]
        refine hu.mono (fun inOrder v hv => ?_) fun _ _ he => he
        split
        · rename_i hlast
          rw [if_pos hlast] at hv
          exact hv
        · rename_i hmore
          rw [if_neg hmore] at hv
          split
          · rename_i hend
            rw [if_pos hend] at hv
            rw [ends_bind]
            exact hv.mono (fun _ _ hw => ih hw) fun _ _ he => he
          · rename_i hinner
            rw [if_neg hinner] at hv
            exact ih hv

theorem ends_receiveBlocks_of_next {W L : Nat → Request → Session σ → Prop}
    {M : Nat → Request → Message → Session σ → Prop} {I : Session σ → Prop}
    (hunfinished : ∀ request s, W 0 request s → K .unfinished s.world)
    (hnext : ∀ n request s, W (n + 1) request s → Ends c.nextMessage s
      (fun received t => match received with | some m => M n request m t | none => L n request t)
      fun e t => K e t.world)
    (hretry : ∀ attempts n request s, L n request s → Ends (c.takeRetry attempts) s
      (fun _ t =>
        let again := if 0 < t.seqno then c.acknowledgement t.seqno else request
        Ends (c.send again) t (fun _ u => W n again u) fun e u => K e u.world)
      fun e t => K e t.world)
    (hread : ∀ n request m s, M n request m s → m.data.get 0 = 0x80 →
      Ends (c.readResponse m) s (fun _ t => W n request t) fun e t => K e t.world)
    (hsegment : ∀ n request m s, M n request m s → m.data.get 0 ≠ 0x80 →
      Ends (c.readSegment m) s
        (fun segment t => Ends (c.takeSegment segment) t
          (fun inOrder u =>
            if inOrder && segment.last then I u
            else if segment.seqno = c.config.blockSize ∨ segment.last then
              Ends c.acknowledge u (fun request v => W n request v) fun e v => K e v.world
            else W n request u)
          fun e u => K e u.world)
        fun e t => K e t.world)
    (attempts : UInt32) (n : Nat) {request : Request} {s : Session σ} (hs : W n request s) :
    Ends (c.receiveBlocks request attempts n) s (fun _ t => I t) fun e t => K e t.world :=
  ends_receiveBlocks_of_attempts (W := fun _ => W) (L := fun _ => L) (M := fun _ => M)
    (fun _ => hunfinished) (fun _ => hnext) hretry (fun _ => hread) (fun _ => hsegment) hs

end Call

theorem Call.plain_of_download {c : Call σ} (hd : c.direction = .download) (m : Message) :
    c.Plain m := by
  intro hu
  rw [hd] at hu
  cases hu

theorem Call.plain_of_ne {c : Call σ} {r : Request} (hr : r.Regular) (hne : r ≠ .startBlockUpload) :
    c.Plain (r.message c.node) := by
  intro _ heq
  have hread := Request.ofMessage_message c.node hr.fits hr.tidy
  have hstart := Request.ofMessage_message c.node (r := .startBlockUpload) trivial trivial
  rw [heq, hstart] at hread
  exact hne (Except.ok.inj hread).symm

namespace Call.Sustains

variable {c : Call σ} {I : Session σ → Prop} {K : Stop → σ → Prop} (h : c.Sustains I K)
include h

theorem keeps_modify {f : Session σ → Session σ} (hw : ∀ s, (f s).world = s.world)
    (hr : ∀ s, (f s).retries = s.retries) (hd : ∀ s, (f s).deadline = s.deadline) :
    Keeps I K (modify f : Transfer σ Unit) :=
  Transfer.keeps_modify fun s hs => h.adjust hs (hw s) (hr s) (hd s)

theorem keeps_store (bytes : List UInt8) : Keeps I K (store bytes) :=
  h.keeps_modify (fun _ => rfl) (fun _ => rfl) fun _ => rfl

theorem keeps_trim (unused : Nat) : Keeps I K (trim unused) :=
  h.keeps_modify (fun _ => rfl) (fun _ => rfl) fun _ => rfl

theorem keeps_unexpected (r : Response) : Keeps I K (c.unexpected r : Transfer σ α) :=
  keeps_bind (h.note _ _) fun _ => h.abandon _ _ rfl

theorem keeps_exchange {r : Request} (hr : r.Regular) (hne : r ≠ .startBlockUpload) :
    Keeps I K (c.exchange r) :=
  h.ask _ (plain_of_ne hr hne)

theorem keeps_checkToggle (toggle : Bool) : Keeps I K (c.checkToggle toggle) := by
  refine keeps_get fun s => ?_
  split
  · exact h.keeps_modify (fun _ => rfl) (fun _ => rfl) fun _ => rfl
  · exact h.abandon _ _ rfl

theorem keeps_checkSize : Keeps I K c.checkSize := by
  refine keeps_get fun s => ?_
  split
  · exact keeps_pure _
  · exact keeps_pure _
  · split
    · exact h.abandon _ _ rfl
    · exact keeps_pure _

theorem keeps_downloadExpedited {data : List UInt8} (h0 : 1 ≤ data.length)
    (fits : data.length ≤ 4) : Keeps I K (c.downloadExpedited data fits) := by
  have hregular := Request.regular_expedited c.target fits h0
  refine keeps_bind (h.keeps_exchange hregular (by simp [Request.expedited])) fun r => ?_
  cases r with
  | confirmDownload => exact h.keeps_modify (fun _ => rfl) (fun _ => rfl) fun _ => rfl
  | _ => exact h.keeps_unexpected _

theorem keeps_downloadSegments (data : List UInt8) (i count : Nat) :
    Keeps I K (c.downloadSegments data i count) := by
  induction count generalizing i with
  | zero => exact keeps_pure _
  | succ count ih =>
    have hrest : Keeps I K (do
        modify fun s => { s with transferred := s.transferred + (segmentBytes data i).length }
        c.downloadSegments data (i + 1) count) :=
      keeps_bind (h.keeps_modify (fun _ => rfl) (fun _ => rfl) fun _ => rfl) fun _ => ih _
    refine keeps_get fun s => ?_
    have hregular := Request.regular_segment s.toggle (count == 0) (segmentBytes_length_le data i)
    refine keeps_bind (h.keeps_exchange hregular (by simp [Request.segment])) fun r => ?_
    cases r with
    | confirmDownloadSegment t => exact keeps_bind (h.keeps_checkToggle t) fun _ => hrest
    | _ => exact keeps_bind (h.keeps_unexpected _) fun _ => hrest

theorem keeps_downloadSegmented (data : List UInt8) : Keeps I K (c.downloadSegmented data) := by
  refine keeps_bind (h.keeps_modify (fun _ => rfl) (fun _ => rfl) fun _ => rfl) fun _ => ?_
  have hregular := Request.regular_announce c.target (UInt32.ofNat data.length)
  refine keeps_bind (h.keeps_exchange hregular (by simp [Request.announce])) fun r => ?_
  cases r with
  | confirmDownload =>
    exact keeps_bind (h.keeps_downloadSegments data 0 _) fun _ => h.keeps_checkSize
  | _ => exact h.keeps_unexpected _

theorem keeps_checkBlockSize (value : UInt8) : Keeps I K (c.checkBlockSize value) := by
  unfold checkBlockSize
  split
  · exact keeps_pure _
  · exact h.abandon _ _ rfl

end Call.Sustains

namespace Call.Completes

variable {c : Call σ} {I : Session σ → Prop} {J : σ → Prop} {K : Stop → σ → Prop}
  (h : c.Completes I J K)
include h

theorem keeps_continueUpload (hu : c.direction = .upload) (r : Response) :
    Keeps I K (c.continueUpload r) := by
  cases r with
  | confirmUpload unused expedited sized a d =>
    cases expedited with
    | true =>
      refine keeps_bind (h.keeps_modify (fun _ => rfl) (fun _ => rfl) fun _ => rfl) fun _ => ?_
      refine keeps_bind (h.keeps_store _) fun _ => ?_
      exact keeps_get fun _ => keeps_pure _
    | false =>
      refine keeps_bind (h.keeps_modify (fun _ => rfl) (fun _ => rfl) fun _ => rfl) fun _ => ?_
      refine keeps_bind (h.segments hu) fun _ => ?_
      refine keeps_bind h.keeps_checkSize fun _ => ?_
      exact keeps_get fun _ => keeps_pure _
  | _ => exact h.keeps_unexpected _

theorem keeps_upload (hu : c.direction = .upload) : Keeps I K c.upload :=
  keeps_bind (h.keeps_exchange (.of_plain trivial) (by simp)) fun r => h.keeps_continueUpload hu r

theorem keeps_downloadBlocks (hd : c.direction = .download) (data : List UInt8) (start : Nat)
    (size : BlockSize) : Keeps I K (c.downloadBlocks data start size) := by
  induction hk : segmentCount data - start using Nat.strongRecOn generalizing start size with
  | ind k ih =>
    rw [downloadBlocks]
    split
    · have hpos := size.pos
      refine keeps_bind (h.note _ _) fun _ => ?_
      refine keeps_bind (h.block hd data start (by omega)) fun next => ?_
      refine keeps_bind (h.keeps_modify (fun _ => rfl) (fun _ => rfl) fun _ => rfl) fun _ => ?_
      exact ih _ (by omega) _ _ rfl
    · exact keeps_pure _

theorem keeps_downloadBlock (hd : c.direction = .download) (data : List UInt8) :
    Keeps I K (c.downloadBlock data) := by
  refine keeps_bind (h.keeps_modify (fun _ => rfl) (fun _ => rfl) fun _ => rfl) fun _ => ?_
  refine keeps_bind (h.keeps_exchange (.of_plain trivial) (by simp)) fun r => ?_
  cases r with
  | confirmBlockDownload serverCrc a blockSize =>
    refine keeps_bind (h.keeps_checkBlockSize blockSize) fun size => ?_
    refine keeps_bind (h.keeps_downloadBlocks hd data 0 size) fun _ => ?_
    have hregular := Traffic.regular_endBlockDownload data
    refine keeps_bind (h.keeps_exchange (hregular _) (by simp)) fun r => ?_
    cases r with
    | confirmBlockDownloadEnd => exact h.keeps_checkSize
    | _ => exact h.keeps_unexpected _
  | _ => exact h.keeps_unexpected _

theorem keeps_uploadBlocks (hu : c.direction = .upload) (serverCrc : Bool) :
    Keeps I K (c.uploadBlocks serverCrc) := by
  -- The stream is upheld as a whole, so that what comes before the acknowledgement stays together.
  have hstream := h.stream hu
  rw [← bind_assoc] at hstream
  rw [uploadBlocks, ← bind_assoc, ← bind_assoc]
  refine keeps_bind hstream fun _ => keeps_get fun s => ?_
  refine keeps_bind (h.keeps_exchange (.of_plain trivial) (by simp [acknowledgement]))
    fun r => ?_
  cases r with
  | endBlockUpload unused expected =>
    refine keeps_bind (h.keeps_trim _) fun _ => keeps_get fun s => ?_
    have hend : Keeps I K (do
        c.checkSize
        c.send .confirmBlockUploadEnd
        return (← get).buffer) := by
      have hplain : c.Plain (Request.confirmBlockUploadEnd.message c.node) :=
        plain_of_ne (.of_plain trivial) (by simp)
      refine keeps_bind h.keeps_checkSize fun _ => ?_
      refine keeps_bind (h.tell _ hplain) fun _ => ?_
      exact keeps_get fun _ => keeps_pure _
    show Keeps I K
      (if (serverCrc && c.config.useCrc && crc s.buffer != expected) = true then _ else _)
    split
    · exact keeps_bind (h.abandon _ _ rfl) fun _ => hend
    · exact hend
  | _ => exact h.keeps_unexpected _

theorem keeps_uploadBlock (hu : c.direction = .upload) : Keeps I K c.uploadBlock := by
  refine keeps_bind (h.keeps_exchange (.of_plain trivial) (by simp)) fun r => ?_
  cases r with
  | confirmBlockUpload serverCrc sized a size =>
    cases sized with
    | true =>
      refine keeps_bind (h.keeps_modify (fun _ => rfl) (fun _ => rfl) fun _ => rfl) fun _ => ?_
      exact h.keeps_uploadBlocks hu serverCrc
    | false => exact h.keeps_uploadBlocks hu _
  | confirmUpload => exact keeps_bind (h.note _ _) fun _ => h.keeps_continueUpload hu _
  | _ => exact h.keeps_unexpected _

end Call.Completes

namespace Call.Upholds

variable {c : Call σ} {I : Session σ → Prop} {J : σ → Prop} {K : Stop → σ → Prop}
  (h : c.Upholds I J K)
include h

theorem keeps_unfinished : Keeps I K (throw .unfinished : Transfer σ α) :=
  keeps_throw fun _ hs => h.unfinished hs

theorem keeps_uploadSegments (n : Nat) : Keeps I K (c.uploadSegments n) := by
  induction n with
  | zero => exact h.keeps_unfinished
  | succ n ih =>
    refine keeps_get fun s => ?_
    refine keeps_bind (h.keeps_exchange (.of_plain trivial) (by simp)) fun r => ?_
    cases r with
    | uploadSegment t unused last d =>
      refine keeps_bind (h.keeps_checkToggle t) fun _ => ?_
      refine keeps_bind (h.keeps_store _) fun _ => ?_
      cases last with
      | true => exact keeps_pure _
      | false => exact ih
    | _ => exact h.keeps_unexpected _

/-- The last segment of a block is asked with: it is sent again until the server answers. -/
theorem keeps_downloadBlockFrom (hd : c.direction = .download) (data : List UInt8) (start : Nat)
    {length first : Nat} (hfirst : 1 ≤ first) (hle : first ≤ length) (n : Nat) :
    Keeps I K (c.downloadBlockFrom data start length first n) := by
  induction n generalizing first with
  | zero => exact h.keeps_unfinished
  | succ n ih =>
    obtain ⟨j, rfl⟩ : ∃ j, first = j + 1 := ⟨first - 1, by omega⟩
    have htell : ∀ seqno, Keeps I K (c.sendBlockSegment data start seqno) :=
      fun _ => h.tell _ (plain_of_download hd _)
    have hlast := h.ask ((blockSegment data (start + length - 1) (UInt8.ofNat length)).message
      .client c.node) (plain_of_download hd _)
    rw [downloadBlockFrom, Traffic.forM_behind (by omega), bind_assoc]
    refine keeps_bind (keeps_forM fun seqno _ => htell seqno) fun _ => ?_
    rw [← bind_assoc]
    refine keeps_bind hlast fun r => ?_
    cases r with
    | confirmBlock seqno next =>
      show Keeps I K (if length < seqno.toNat then _ else if seqno.toNat = length then _ else _)
      split
      · exact h.abandon _ _ rfl
      · split
        · exact h.keeps_checkBlockSize _
        · exact keeps_bind (h.note _ _) fun _ => ih (Nat.le_add_left 1 _) (by omega)
    | _ => exact h.keeps_unexpected _

theorem completes : c.Completes I J K where
  toSustains := h.toSustains
  segments _ := h.keeps_uploadSegments c.patience
  block hd data start _ hl := h.keeps_downloadBlockFrom hd data start (Nat.le_refl 1) hl c.patience
  stream := h.stream
  done := h.done
  failed := h.failed

end Call.Upholds

def Leaves (J : σ → Prop) (K : Stop → σ → Prop) (o : Outcome σ α) : Prop :=
  match o.1 with
  | .ok _ => J o.2
  | .error e => K e o.2

theorem Leaves.map {J : σ → Prop} {K : Stop → σ → Prop} {o : Outcome σ α} (f : α → β)
    (h : Leaves J K o) : Leaves J K (Outcome.map f o) := by
  obtain ⟨r, w⟩ := o
  cases r <;> exact h

def Error.Refusal : Error → Prop
  | .invalidNodeId _ | .invalidDataLength _ => True
  | _ => False

def Operation.direction : Operation → Direction
  | upload | uploadSegmented | uploadBlock | uploadNumber => .upload
  | _ => .download

theorem Call.Completes.achieves {I : Session σ → Prop} {J : σ → Prop} {K : Stop → σ → Prop}
    {c : Call σ} (h : c.Completes I J K) : c.Achieves I I J K where
  expedited _ := h.keeps_downloadExpedited
  segmented _ := h.keeps_downloadSegmented
  block := h.keeps_downloadBlock
  upload := h.keeps_upload
  uploadBlock := h.keeps_uploadBlock
  done := h.done
  failed := h.failed

section
variable {J : σ → Prop} {K : Stop → σ → Prop}

theorem Call.Achieves.run_leaves {I G : Session σ → Prop} {c : Call σ} (h : c.Achieves I G J K)
    {mode : Mode} {work : Transfer σ α} {w : σ} (hw : Carries I K work fun _ => G)
    (hstart : Ends (c.prepare mode) (c.session mode (c.link.resume w)) (fun _ t => I t)
      fun e t => K e t.world) :
    Leaves J K (c.run mode work w) := by
  rw [run]
  unfold Ends at hstart
  generalize c.prepare mode (c.session mode (c.link.resume w)) = p at hstart
  cases p with
  | error e s => exact hstart
  | ok _ s =>
    have hworked := hw s hstart
    unfold Ends at hworked
    dsimp only
    generalize work s = q at hworked
    cases q with
    | ok a t => exact h.done hworked _
    | error e t =>
      cases e with
      | failed e => exact h.failed hworked _
      | unfinished => exact hworked

variable {I G : NodeId → Session σ → Prop}

section
variable {client : Client σ} {node : UInt8} {target : Address} {direction : Direction} {w : σ}
  (h : ∀ n : NodeId, n.value = node → (client.call n target direction).Achieves (I n) (G n) J K)
  (hstart : ∀ n : NodeId, n.value = node → ∀ mode,
    let c := client.call n target direction
    Ends (c.prepare mode) (c.session mode (c.link.resume w)) (fun _ t => I n t)
      fun e t => K e t.world)
  (hrefusal : ∀ e : Error, e.Refusal → K (.failed e) w)
include h hstart hrefusal

theorem transfer_leaves {mode : Mode} {work : Call σ → Transfer σ α}
    (hw : ∀ {I G : Session σ → Prop} {c : Call σ}, c.direction = direction → c.Achieves I G J K →
      Carries I K (work c) fun _ => G) :
    Leaves J K (client.transfer node target direction mode work w) := by
  cases hn : NodeId.ofByte? node with
  | none =>
    rw [transfer, hn]
    exact hrefusal _ trivial
  | some n =>
    obtain rfl : n.value = node := NodeId.value_of_ofByte? hn
    rw [transfer_node]
    exact (h n rfl).run_leaves (hw rfl (h n rfl)) (hstart n rfl mode)

end

section
variable {client : Client σ} {node : UInt8} {target : Address} {w : σ}

section
variable (h : ∀ n : NodeId, n.value = node →
    (client.call n target .upload).Achieves (I n) (G n) J K)
  (hstart : ∀ n : NodeId, n.value = node → ∀ mode,
    let c := client.call n target .upload
    Ends (c.prepare mode) (c.session mode (c.link.resume w)) (fun _ t => I n t)
      fun e t => K e t.world)
  (hrefusal : ∀ e : Error, e.Refusal → K (.failed e) w)
include h hstart hrefusal

theorem uploadSegmented_leaves : Leaves J K (client.uploadSegmented node target w) :=
  transfer_leaves h hstart hrefusal fun hu hc => hc.upload hu

theorem uploadBlock_leaves : Leaves J K (client.uploadBlock node target w) :=
  transfer_leaves h hstart hrefusal fun hu hc => hc.uploadBlock hu

theorem upload_leaves : Leaves J K (client.upload node target w) := by
  rw [upload]
  cases client.config.uploadMode with
  | block => exact uploadBlock_leaves h hstart hrefusal
  | _ => exact uploadSegmented_leaves h hstart hrefusal

theorem uploadNumber_leaves (hlong : ∀ {e : Error} {w}, e.Refusal → J w → K (.failed e) w) :
    Leaves J K (client.uploadNumber node target w) := by
  have hupload := uploadSegmented_leaves h hstart hrefusal
  rw [uploadNumber]
  generalize client.uploadSegmented node target w = o at hupload
  obtain ⟨r, v⟩ := o
  cases r with
  | error e => exact hupload
  | ok data =>
    dsimp only
    split
    · exact hupload
    · exact hlong (e := .invalidDataLength data.length) trivial hupload

end

section
variable (h : ∀ n : NodeId, n.value = node →
    (client.call n target .download).Achieves (I n) (G n) J K)
  (hstart : ∀ n : NodeId, n.value = node → ∀ mode,
    let c := client.call n target .download
    Ends (c.prepare mode) (c.session mode (c.link.resume w)) (fun _ t => I n t)
      fun e t => K e t.world)
  (hrefusal : ∀ e : Error, e.Refusal → K (.failed e) w)
include h hstart hrefusal

theorem downloadExpedited_leaves (data : List UInt8) :
    Leaves J K (client.downloadExpedited node target data w) := by
  rw [downloadExpedited]
  split
  · rename_i hsize
    exact transfer_leaves h hstart hrefusal fun hd hc =>
      hc.expedited hd hsize.1 hsize.2
  · exact hrefusal _ trivial

theorem downloadSegmented_leaves (data : List UInt8) :
    Leaves J K (client.downloadSegmented node target data w) := by
  rw [downloadSegmented]
  split
  · exact transfer_leaves h hstart hrefusal fun hd hc => hc.segmented hd data
  · exact hrefusal _ trivial

theorem downloadBlock_leaves (data : List UInt8) :
    Leaves J K (client.downloadBlock node target data w) := by
  rw [downloadBlock]
  split
  · exact transfer_leaves h hstart hrefusal fun hd hc => hc.block hd data
  · exact hrefusal _ trivial

theorem download_leaves (data : List UInt8) :
    Leaves J K (client.download node target data w) := by
  rw [download]
  cases client.config.downloadMode data.length with
  | expedited => exact downloadExpedited_leaves h hstart hrefusal data
  | segmented => exact downloadSegmented_leaves h hstart hrefusal data
  | block => exact downloadBlock_leaves h hstart hrefusal data

end

theorem perform_leaves_of_achieves {op : Operation}
    (h : ∀ n : NodeId, n.value = node →
      (client.call n target op.direction).Achieves (I n) (G n) J K)
    (hstart : ∀ n : NodeId, n.value = node → ∀ mode,
      let c := client.call n target op.direction
      Ends (c.prepare mode) (c.session mode (c.link.resume w)) (fun _ t => I n t)
        fun e t => K e t.world)
    (hrefusal : ∀ e : Error, e.Refusal → K (.failed e) w)
    (hlong : ∀ {e : Error} {w}, e.Refusal → J w → K (.failed e) w) :
    Leaves J K (client.perform node target op w) := by
  cases op with
  | upload => exact (upload_leaves h hstart hrefusal).map _
  | uploadSegmented => exact (uploadSegmented_leaves h hstart hrefusal).map _
  | uploadBlock => exact (uploadBlock_leaves h hstart hrefusal).map _
  | uploadNumber => exact (uploadNumber_leaves h hstart hrefusal hlong).map _
  | download data => exact (download_leaves h hstart hrefusal data).map _
  | downloadExpedited data => exact (downloadExpedited_leaves h hstart hrefusal data).map _
  | downloadSegmented data => exact (downloadSegmented_leaves h hstart hrefusal data).map _
  | downloadBlock data => exact (downloadBlock_leaves h hstart hrefusal data).map _
  | downloadNumber value size =>
    rw [perform, downloadNumber]
    split
    · exact (downloadExpedited_leaves h hstart hrefusal _).map _
    · exact hrefusal _ trivial

theorem perform_leaves_of_completes {op : Operation}
    (h : ∀ n : NodeId, n.value = node → (client.call n target op.direction).Completes (I n) J K)
    (hstart : ∀ n : NodeId, n.value = node → ∀ mode,
      let c := client.call n target op.direction
      Ends (c.prepare mode) (c.session mode (c.link.resume w)) (fun _ t => I n t)
        fun e t => K e t.world)
    (hrefusal : ∀ e : Error, e.Refusal → K (.failed e) w)
    (hlong : ∀ {e : Error} {w}, e.Refusal → J w → K (.failed e) w) :
    Leaves J K (client.perform node target op w) :=
  perform_leaves_of_achieves (fun n hn => (h n hn).achieves) hstart hrefusal hlong

theorem perform_leaves {op : Operation}
    (h : ∀ n : NodeId, n.value = node → (client.call n target op.direction).Upholds (I n) J K)
    (hstart : ∀ n : NodeId, n.value = node → ∀ mode,
      let c := client.call n target op.direction
      Ends (c.prepare mode) (c.session mode (c.link.resume w)) (fun _ t => I n t)
        fun e t => K e t.world)
    (hrefusal : ∀ e : Error, e.Refusal → K (.failed e) w)
    (hlong : ∀ {e : Error} {w}, e.Refusal → J w → K (.failed e) w) :
    Leaves J K (client.perform node target op w) :=
  perform_leaves_of_completes (fun n hn => (h n hn).completes) hstart hrefusal hlong

end
end

end Canopen.Client
