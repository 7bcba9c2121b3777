import Canopen.Proofs.BlockDownload
import Canopen.Proofs.BlockUpload
import Canopen.Proofs.Operation

set_option autoImplicit false

namespace Canopen

def Line.client (x : Losses) (config : Client.Config) (valid : config.Valid) (patience : Nat) :
    Client Line :=
  { link := link x, config, valid, patience }

namespace Client

open Can (Message)
open Sdo
open Transfer

namespace Call
variable {x : Losses} {c : Call Line} {s : Session Line}

theorem ends_flush (hc : c.link = Line.link x) {n : Nat}
    {Q : Unit → Session Line → Prop} {E : Stop → Session Line → Prop}
    (flushed : Q () { s with world := { s.world with inbox := [] } })
    (unfinished : ∀ t, n ≤ s.world.inbox.length → E .unfinished t) :
    Ends (c.flush n) s Q E := by
  induction n generalizing s with
  | zero => exact unfinished s (Nat.zero_le _)
  | succ n ih =>
    rw [flush]
    simp only [ends_bind, ends_receive hc]
    cases hi : s.world.inbox with
    | nil =>
      simp only [Line.receive, hi, ends_pure]
      rw [← hi] at flushed
      exact flushed
    | cons m rest =>
      simp only [Line.receive, hi]
      refine ih flushed fun t hn => unfinished t ?_
      rw [hi]
      exact Nat.succ_le_succ hn

def start (c : Call Line) (mode : Mode) (l : Line) : Session Line :=
  { world := { l with inbox := [] }, mode, retries := c.config.retries.toNat
    deadline := l.now + c.config.timeout }

theorem rests_start (c : Call Line) (mode : Mode) {l : Line} (idle : l.server.state = .idle) :
    (c.start mode l).world.Rests l.server .idle := by
  refine ⟨rfl, l.server.received, ?_⟩
  rw [← idle]
  rfl

theorem ends_prepare (hc : c.link = Line.link x) (mode : Mode) (l : Line) :
    Ends (c.prepare mode) (c.session mode (c.link.resume l)) (fun _ t => t = c.start mode l)
      (fun e _ => e = .unfinished ∧ c.patience ≤ l.inbox.length) := by
  rw [hc, prepare]
  simp only [ends_bind, ends_note hc .debug]
  refine ends_flush hc ?_ fun t hn => ⟨rfl, hn⟩
  rw [session, hc]
  rfl

/-- A whole transfer ends as its work does, unless there is too much to drop before it. -/
theorem run_of_ends (hc : c.link = Line.link x) {α : Type} {mode : Mode} {work : Transfer Line α}
    {l : Line} {Q : α → Session Line → Prop} {E : Stop → Session Line → Prop}
    (hw : Ends work (c.start mode l) Q E) :
    (∃ a t, Q a t ∧ c.run mode work l = (.ok a, t.world)) ∨
      (∃ e t, E e t ∧ c.run mode work l = (.error e, t.world)) ∨
      c.patience ≤ l.inbox.length ∧ (c.run mode work l).1 = .error .unfinished := by
  have hprepare := ends_prepare hc mode l
  have hnote : ∀ text (w : Line), c.link.note ⟨.debug, text⟩ w = w := by
    intro text w
    rw [hc]
    rfl
  rw [run]
  unfold Ends at hprepare
  split at hprepare
  · rename_i heq
    subst hprepare
    unfold Ends at hw
    rw [heq]
    dsimp only
    split at hw
    · rename_i a t hwork
      refine .inl ⟨a, t, hw, ?_⟩
      rw [hwork, conclude, hnote]
    · rename_i e t hwork
      refine .inr (.inl ⟨e, t, hw, ?_⟩)
      rw [hwork]
      cases e with
      | failed e => rw [conclude, hnote]
      | unfinished => rfl
  · rename_i heq
    obtain ⟨rfl, hmany⟩ := hprepare
    rw [heq]
    exact .inr (.inr ⟨hmany, rfl⟩)

end Call

variable {α β : Type} {lost : Nat → Bool} {l : Line} {retries : Nat}

def Expires (lost : Nat → Bool) (l : Line) (retries : Nat) (o : Outcome Line α) : Prop :=
  (∃ k, o.1 = .error (.failed (.timeout k))) ∧ o.2.server.objects = l.server.objects ∧
    retries + l.countLost lost < o.2.countLost lost

/-- The operation gave a value and left a server. If nothing was lost, it sent these frames and
the server is idle. -/
def Settles (lost : Nat → Bool) (l : Line) (retries : Nat) (v : α) (srv : Server)
    (frames : List Message) (o : Outcome Line α) : Prop :=
  o.1 = .ok v ∧ ∃ left state,
    Line.Onward lost { l with inbox := [] } retries o.2 left frames ∧ o.2.Rests srv state ∧
      (o.2.countLost lost = l.countLost lost → state = .idle)

def Concludes (lost : Nat → Bool) (l : Line) (retries : Nat) (verdict : Except Error (α × Server))
    (frames : List Message) (o : Outcome Line α) : Prop :=
  (match verdict with
    | .ok (v, srv) => Settles lost l retries v srv frames o
    | .error e => o.1 = .error (.failed e) ∧ o.2.server.objects = l.server.objects) ∨
  Expires lost l retries o

theorem Concludes.map {verdict : Except Error (α × Server)} {frames : List Message}
    {o : Outcome Line α} (f : α → β) (h : Concludes lost l retries verdict frames o) :
    Concludes lost l retries (verdict.map fun (v, srv) => (f v, srv)) frames
      (Outcome.map f o) := by
  obtain ⟨result, w⟩ := o
  rcases h with h | ⟨⟨k, hk⟩, h⟩
  · left
    cases verdict with
    | ok r =>
      obtain ⟨hr, h⟩ := h
      exact ⟨congrArg (Except.map f) hr, h⟩
    | error e => exact ⟨congrArg (Except.map f) h.1, h.2⟩
  · exact .inr ⟨⟨k, congrArg (Except.map f) hk⟩, h⟩

theorem Concludes.lossless {v : α} {srv : Server} {frames : List Message} {o : Outcome Line α}
    (h : Concludes (fun _ => false) l retries (.ok (v, srv)) frames o) :
    o.1 = .ok v ∧ ∃ k, o.2 =
      { server := srv.during .idle k
        sent := l.sent ++ frames
        now := l.now
        warnings := l.warnings } := by
  have hnone : ∀ m : Line, m.countLost (fun _ => false) = 0 := fun m => by simp [Line.countLost]
  obtain ⟨result, server, inbox, sent, now, ws⟩ := o
  rcases h with ⟨hresult, left, state, hon, ⟨hi, k, hk⟩, hidle⟩ | ⟨-, -, hmore⟩
  · obtain ⟨hnow, hwarnings, hsent⟩ := hon.calm ((hnone _).trans (hnone _).symm)
    rw [hidle ((hnone _).trans (hnone _).symm)] at hk
    dsimp only at hi hk hnow hwarnings hsent
    rw [hi, hk, hnow, hwarnings, hsent]
    exact ⟨hresult, k, rfl⟩
  · rw [hnone, hnone] at hmore
    omega

theorem Config.blockSize_of_valid {config : Config} (h : config.Valid) :
    0 < config.blockSize.toNat ∧ config.blockSize.toNat ≤ 127 := by
  unfold Config.Valid Config.fault? at h
  split at h
  · cases h
  · rename_i hb
    rw [not_or] at hb
    obtain ⟨h0, h1⟩ := hb
    have hpos : config.blockSize.toNat ≠ 0 := fun he => h0 (UInt8.toNat_inj.mp he)
    have hle : ¬127 < config.blockSize.toNat := fun hlt => h1 (UInt8.lt_iff_toNat_lt.mpr hlt)
    omega

/-- A client on a line with an idle server, and with patience for all the losses there are. -/
structure Ready (client : Client Line) (lost : Nat → Bool) (l : Line) (switch : Bool)
    (total : Nat) : Prop where
  link : client.link = Line.link { request := lost }
  faults : l.server.faults = { switchProtocol := switch }
  idle : l.server.state = .idle
  interval : ∀ i, lost i = true → 0 < client.config.pollInterval
  bounded : ∀ m : Line, m.countLost lost ≤ total
  flushes : l.inbox.length < client.patience
  waits : client.config.timeout < client.patience
  loses : total < client.patience

def Takes (client : Client Line) (srv : Server) (target : Address) : Prop :=
  ∀ object, srv.objects.get? target = some object → object.length < sizeLimit ∧
    segmentCount object + client.config.retries.toNat < client.patience

namespace Ready

variable {client : Client Line} {switch : Bool} {total : Nat} {target : Address}
variable (h : Ready client lost l switch total)
include h

theorem setting (direction : Direction) :
    (client.call l.server.node target direction).Setting lost l.server switch :=
  ⟨h.link, rfl, h.faults, h.interval, h.waits⟩

theorem rests (direction : Direction) (mode : Mode) :
    ((client.call l.server.node target direction).start mode l).world.Rests l.server .idle :=
  Call.rests_start _ mode h.idle

theorem settles {direction : Direction} {mode : Mode} {work : Call Line → Transfer Line α} {v : α}
    {srv : Server} {frames : List Message}
    (hw : Ends (work (client.call l.server.node target direction))
      ((client.call l.server.node target direction).start mode l)
      (fun a t => a = v ∧ ((client.call l.server.node target direction).start mode l).Finished lost
        srv frames t)
      (((client.call l.server.node target direction).start mode l).TimedOut lost
        l.server.objects)) :
    Concludes lost l client.config.retries.toNat (.ok (v, srv)) frames
      (client.transfer l.server.node.value target direction mode work l) := by
  rw [transfer_node]
  rcases Call.run_of_ends h.link hw with
    ⟨a, t, ⟨rfl, hon, state, hrests, hidle⟩, hrun⟩ | ⟨e, t, ⟨⟨k, rfl⟩, hlost, hobjects⟩, hrun⟩ |
    ⟨hmany, -⟩
  · rw [hrun]
    exact .inl ⟨rfl, t.retries, state, hon, hrests, hidle⟩
  · rw [hrun]
    exact .inr ⟨⟨k, rfl⟩, hobjects, hlost⟩
  · exact absurd h.flushes (Nat.not_lt.mpr hmany)

theorem refuses {direction : Direction} {mode : Mode} {work : Call Line → Transfer Line α}
    {err : Error} {frames : List Message}
    (hw : Ends (work (client.call l.server.node target direction))
      ((client.call l.server.node target direction).start mode l) (fun _ _ => False)
      (fun e t => e = .failed err ∧ t.world.server.objects = l.server.objects ∨
        ((client.call l.server.node target direction).start mode l).TimedOut lost
          l.server.objects e t)) :
    Concludes lost l client.config.retries.toNat (.error err) frames
      (client.transfer l.server.node.value target direction mode work l) := by
  rw [transfer_node]
  rcases Call.run_of_ends h.link hw with
    ⟨a, t, hfalse, -⟩ | ⟨e, t, ⟨rfl, hobjects⟩ | ⟨⟨k, rfl⟩, hlost, hobjects⟩, hrun⟩ | ⟨hmany, -⟩
  · exact hfalse.elim
  · rw [hrun]
    exact .inl ⟨rfl, hobjects⟩
  · rw [hrun]
    exact .inr ⟨⟨k, rfl⟩, hobjects, hlost⟩
  · exact absurd h.flushes (Nat.not_lt.mpr hmany)

theorem concludes_uploadSegmented (ho : client.Takes l.server target) :
    Concludes lost l client.config.retries.toNat (Operation.fetch l.server target)
      (Operation.fetchTraffic client.config l.server target
        ((l.server.objects.get? target).getD []) .segmented)
      (client.uploadSegmented l.server.node.value target l) := by
  cases hobject : l.server.objects.get? target with
  | none =>
    rw [Operation.fetch, hobject]
    exact h.refuses (Call.ends_upload_missing (h.setting .upload) (h.rests .upload .segmented)
      (by simp) hobject)
  | some object =>
    obtain ⟨hd, hp⟩ := ho object hobject
    have hp' : segmentCount object ≤ client.patience := by omega
    rw [Operation.fetch, hobject]
    refine h.settles ((Call.ends_upload (h.setting .upload) (h.rests .upload .segmented) (by simp)
      ⟨rfl, rfl, rfl⟩ hd hp' hobject).mono ?_ fun e t he => he)
    intro v t hq
    obtain ⟨hv, hreached⟩ := hq
    exact ⟨hv, hreached.finished⟩

theorem concludes_uploadBlock (ho : client.Takes l.server target) :
    Concludes lost l client.config.retries.toNat (Operation.fetch l.server target)
      (Operation.fetchTraffic client.config l.server target
        ((l.server.objects.get? target).getD []) .block)
      (client.uploadBlock l.server.node.value target l) := by
  cases hobject : l.server.objects.get? target with
  | none =>
    rw [Operation.fetch, hobject]
    exact h.refuses (Call.ends_uploadBlock_missing (h.setting .upload) (h.rests .upload .block)
      (by simp) hobject)
  | some object =>
    obtain ⟨hd, hp⟩ := ho object hobject
    have hsize := Config.blockSize_of_valid client.valid
    have hswitch : l.server.faults.switchProtocol = switch := by rw [h.faults]
    rw [Operation.fetch, hobject, Operation.fetchTraffic, hswitch]
    exact h.settles (Call.ends_uploadBlock (h.setting .upload) hsize (h.rests .upload .block)
      (by simp) ⟨rfl, rfl, rfl⟩ hd hp hobject)

theorem concludes_downloadExpedited (data : List UInt8) :
    Concludes lost l client.config.retries.toNat
      (Operation.put l.server target data .expedited)
      (Operation.putTraffic client.config l.server target data .expedited)
      (client.downloadExpedited l.server.node.value target data l) := by
  by_cases hd : 1 ≤ data.length ∧ data.length ≤ 4
  · rw [downloadExpedited, dif_pos hd, Operation.put, if_pos hd, Operation.putTraffic,
      dif_pos hd.2]
    refine h.settles ((Call.ends_downloadExpedited (h.setting .download)
      (h.rests .download .expedited) (by simp) hd.2 hd.1).mono ?_ fun e t he => he)
    intro v t hreached
    exact ⟨rfl, hreached.finished⟩
  · rw [downloadExpedited, dif_neg hd, Operation.put, if_neg hd]
    exact .inl ⟨rfl, rfl⟩

theorem concludes_downloadSegmented (data : List UInt8) :
    Concludes lost l client.config.retries.toNat
      (Operation.put l.server target data .segmented)
      (Operation.putTraffic client.config l.server target data .segmented)
      (client.downloadSegmented l.server.node.value target data l) := by
  by_cases hd : data.length < sizeLimit
  · rw [downloadSegmented, if_pos hd, Operation.put, if_pos hd]
    refine h.settles ((Call.ends_downloadSegmented (h.setting .download)
      (h.rests .download .segmented) (by simp) hd rfl rfl).mono ?_ fun e t he => he)
    intro v t hreached
    exact ⟨rfl, hreached.finished⟩
  · rw [downloadSegmented, if_neg hd, Operation.put, if_neg hd]
    exact .inl ⟨rfl, rfl⟩

theorem concludes_downloadBlock (data : List UInt8) :
    Concludes lost l client.config.retries.toNat
      (Operation.put l.server target data .block)
      (Operation.putTraffic client.config l.server target data .block)
      (client.downloadBlock l.server.node.value target data l) := by
  by_cases hd : data.length < sizeLimit
  · rw [downloadBlock, if_pos hd, Operation.put, if_pos hd]
    cases hsize : BlockSize.ofByte? l.server.blockSize with
    | none =>
      exact h.refuses (Call.ends_downloadBlock_invalid (h.setting .download) hsize
        (h.rests .download .block) (by simp))
    | some size =>
      have hvalue : l.server.blockSize = size.value := by
        unfold BlockSize.ofByte? at hsize
        split at hsize
        · cases hsize
          rfl
        · cases hsize
      rw [Operation.putTraffic, hvalue]
      refine h.settles ((Call.ends_downloadBlock (h.setting .download) hvalue h.bounded h.loses
        (h.rests .download .block) (by simp) hd).mono ?_ fun e t he => he)
      intro v t hreached
      exact ⟨rfl, hreached.finished⟩
  · rw [downloadBlock, if_neg hd, Operation.put, if_neg hd]
    exact .inl ⟨rfl, rfl⟩

theorem concludes_upload (ho : client.Takes l.server target) :
    Concludes lost l client.config.retries.toNat (Operation.fetch l.server target)
      (Operation.fetchTraffic client.config l.server target
        ((l.server.objects.get? target).getD []) client.config.uploadMode)
      (client.upload l.server.node.value target l) := by
  rw [upload, Config.uploadMode]
  cases client.config.preferBlock with
  | true => exact h.concludes_uploadBlock ho
  | false => exact h.concludes_uploadSegmented ho

theorem concludes_download (data : List UInt8) :
    Concludes lost l client.config.retries.toNat
      (Operation.put l.server target data (client.config.downloadMode data.length))
      (Operation.putTraffic client.config l.server target data
        (client.config.downloadMode data.length))
      (client.download l.server.node.value target data l) := by
  rw [download]
  cases client.config.downloadMode data.length with
  | expedited => exact h.concludes_downloadExpedited data
  | segmented => exact h.concludes_downloadSegmented data
  | block => exact h.concludes_downloadBlock data

theorem concludes_uploadNumber (ho : client.Takes l.server target) :
    Concludes lost l client.config.retries.toNat (Operation.fetchNumber l.server target)
      (Operation.fetchTraffic client.config l.server target
        ((l.server.objects.get? target).getD []) .segmented)
      (client.uploadNumber l.server.node.value target l) := by
  have hupload := h.concludes_uploadSegmented ho
  rw [uploadNumber]
  generalize client.uploadSegmented l.server.node.value target l = o at hupload
  obtain ⟨result, w⟩ := o
  rcases hupload with hupload | ⟨⟨k, hk⟩, hexpired⟩
  -- The upload has come to its end, but the object may be too long for a number.
  · rw [Operation.fetchNumber]
    unfold Operation.fetch at hupload ⊢
    cases hobject : l.server.objects.get? target with
    | none =>
      rw [hobject] at hupload
      obtain ⟨hresult, hobjects⟩ := hupload
      have hresult' : result = _ := hresult
      rw [hresult']
      exact .inl ⟨rfl, hobjects⟩
    | some object =>
      rw [hobject] at hupload
      obtain ⟨hresult, left, state, hon, ⟨hi, k, hk⟩, hidle⟩ := hupload
      have hresult' : result = _ := hresult
      have hk' : w.server = l.server.during state k := hk
      rw [hresult']
      by_cases hshort : object.length ≤ 4
      · simp only [if_pos hshort]
        exact .inl ⟨rfl, left, state, hon, ⟨hi, k, hk⟩, hidle⟩
      · simp only [if_neg hshort]
        refine .inl ⟨rfl, ?_⟩
        show w.server.objects = _
        rw [hk']
        rfl
  · have hk' : result = _ := hk
    rw [hk']
    exact .inr ⟨⟨k, rfl⟩, hexpired⟩

theorem concludes (op : Operation) (ho : op.Fetches → client.Takes l.server target) :
    Concludes lost l client.config.retries.toNat (op.verdict client.config l.server target)
      (op.traffic client.config l.server target)
      (client.perform l.server.node.value target op l) := by
  cases op with
  | upload => exact (h.concludes_upload (ho trivial)).map Value.bytes
  | uploadSegmented => exact (h.concludes_uploadSegmented (ho trivial)).map Value.bytes
  | uploadBlock => exact (h.concludes_uploadBlock (ho trivial)).map Value.bytes
  | uploadNumber => exact (h.concludes_uploadNumber (ho trivial)).map Value.number
  | download data => exact (h.concludes_download data).map fun _ => Value.done
  | downloadExpedited data => exact (h.concludes_downloadExpedited data).map fun _ => Value.done
  | downloadSegmented data => exact (h.concludes_downloadSegmented data).map fun _ => Value.done
  | downloadBlock data => exact (h.concludes_downloadBlock data).map fun _ => Value.done
  | downloadNumber value size =>
    rw [Operation.verdict, perform, downloadNumber]
    split
    · exact (h.concludes_downloadExpedited _).map fun _ => Value.done
    · exact .inl ⟨rfl, rfl⟩

end Ready

def patienceFor (config : Config) (l : Line) (target : Address) (losses : Nat) : Nat :=
  l.inbox.length + config.timeout + losses + config.retries.toNat
    + segmentCount ((l.server.objects.get? target).getD []) + 1

section
variable (config : Config) (valid : config.Valid) {lost : Nat → Bool} {l : Line} {target : Address}
variable {total patience : Nat} (hp : patienceFor config l target total ≤ patience)
include hp

theorem ready {switch : Bool} (interval : ∀ i, lost i = true → 0 < config.pollInterval)
    (bounded : ∀ m : Line, m.countLost lost ≤ total)
    (faults : l.server.faults = { switchProtocol := switch }) (idle : l.server.state = .idle) :
    Ready (Line.client { request := lost } config valid patience) lost l switch total := by
  unfold patienceFor at hp
  refine ⟨rfl, faults, idle, interval, bounded, ?_, ?_, ?_⟩
  · show l.inbox.length < patience
    omega
  · show config.timeout < patience
    omega
  · show total < patience
    omega

theorem takes (x : Losses)
    (small : ∀ object, l.server.objects.get? target = some object → object.length < sizeLimit) :
    (Line.client x config valid patience).Takes l.server target := by
  intro object hobject
  rw [patienceFor, hobject, Option.getD_some] at hp
  refine ⟨small object hobject, ?_⟩
  show segmentCount object + config.retries.toNat < patience
  omega

end

end Client
end Canopen
