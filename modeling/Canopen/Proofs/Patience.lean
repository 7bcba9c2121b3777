import Canopen.Proofs.Termination
import Canopen.Proofs.Trace

set_option autoImplicit false

namespace Canopen.Client

open Sdo
open Transfer

variable {σ α β : Type}

namespace Transfer

/-- The first step does what the second one does, unless that is left unfinished. -/
def Outlasts (x y : Transfer σ α) : Prop := ∀ s, x s = y s ∨ ∃ t, y s = .error .unfinished t

theorem outlasts_refl (x : Transfer σ α) : Outlasts x x := fun _ => .inl rfl

theorem outlasts_unfinished (x : Transfer σ α) : Outlasts x (throw .unfinished) :=
  fun s => .inr ⟨s, rfl⟩

theorem outlasts_bind {x y : Transfer σ α} {f g : α → Transfer σ β} (hx : Outlasts x y)
    (hf : ∀ a, Outlasts (f a) (g a)) : Outlasts (x >>= f) (y >>= g) := by
  intro s
  show EStateM.bind x f s = EStateM.bind y g s ∨ ∃ t, EStateM.bind y g s = _
  unfold EStateM.bind
  rcases hx s with hsame | ⟨t, hunfinished⟩
  · rw [hsame]
    cases y s with
    | ok a t => exact hf a t
    | error e t => exact .inl rfl
  · rw [hunfinished]
    exact .inr ⟨t, rfl⟩

theorem outlasts_behind (x : Transfer σ α) {f g : α → Transfer σ β}
    (hf : ∀ a, Outlasts (f a) (g a)) : Outlasts (x >>= f) (x >>= g) :=
  outlasts_bind (outlasts_refl x) hf

theorem outlasts_before {x y : Transfer σ α} (hx : Outlasts x y) (f : α → Transfer σ β) :
    Outlasts (x >>= f) (y >>= f) :=
  outlasts_bind hx fun a => outlasts_refl (f a)

end Transfer

def Call.withPatience (c : Call σ) (patience : Nat) : Call σ := { c with patience }

namespace Call

variable (c : Call σ) {patience : Nat}

theorem outlasts_flush {m n : Nat} (hle : m ≤ n) :
    Outlasts ((c.withPatience patience).flush n) (c.flush m) := by
  induction m generalizing n with
  | zero => exact outlasts_unfinished _
  | succ m ih =>
    obtain ⟨n, rfl⟩ : ∃ k, n = k + 1 := ⟨n - 1, by omega⟩
    refine outlasts_behind _ fun received => ?_
    cases received with
    | some _ => exact ih (by omega)
    | none => exact outlasts_refl _

theorem outlasts_poll {m n : Nat} (hle : m ≤ n) :
    Outlasts ((c.withPatience patience).poll n) (c.poll m) := by
  induction m generalizing n with
  | zero => exact outlasts_unfinished _
  | succ m ih =>
    obtain ⟨n, rfl⟩ : ∃ k, n = k + 1 := ⟨n - 1, by omega⟩
    have hrest := ih (show m ≤ n by omega)
    refine outlasts_behind _ fun s => ?_
    show Outlasts (if c.link.cancelled s.world then _ else _)
      (if c.link.cancelled s.world then _ else _)
    split
    · exact outlasts_refl _
    · refine outlasts_behind _ fun received => ?_
      cases received with
      | none =>
        refine outlasts_behind _ fun late => ?_
        split
        · exact outlasts_refl _
        · exact outlasts_behind _ fun _ => hrest
      | some m =>
        show Outlasts (if m.id = c.node.responseId then _ else _)
          (if m.id = c.node.responseId then _ else _)
        split
        · exact outlasts_refl _
        · refine outlasts_behind _ fun _ => outlasts_behind _ fun late => ?_
          split
          · exact outlasts_refl _
          · exact hrest

variable (h : c.patience ≤ patience)
include h

theorem outlasts_nextMessage : Outlasts (c.withPatience patience).nextMessage c.nextMessage :=
  c.outlasts_poll h

theorem outlasts_nextResponse : Outlasts (c.withPatience patience).nextResponse c.nextResponse :=
  outlasts_before (c.outlasts_nextMessage h) _

theorem outlasts_awaitRounds (resend : Transfer σ Unit) (attempts : UInt32) (rounds : Nat) :
    Outlasts ((c.withPatience patience).awaitRounds resend attempts rounds)
      (c.awaitRounds resend attempts rounds) := by
  induction rounds generalizing attempts with
  | zero => exact outlasts_refl _
  | succ rounds ih =>
    refine outlasts_bind (c.outlasts_nextResponse h) fun received => ?_
    cases received with
    | some r => exact outlasts_refl _
    | none => exact outlasts_behind _ fun _ => outlasts_behind _ fun _ => ih _

theorem outlasts_await (resend : Transfer σ Unit) :
    Outlasts ((c.withPatience patience).await resend) (c.await resend) :=
  outlasts_behind _ fun s => c.outlasts_awaitRounds h resend 1 (s.retries + 1)

theorem outlasts_exchange (r : Request) :
    Outlasts ((c.withPatience patience).exchange r) (c.exchange r) :=
  outlasts_behind _ fun _ => c.outlasts_await h _

theorem outlasts_downloadExpedited (data : List UInt8) (fits : data.length ≤ 4) :
    Outlasts ((c.withPatience patience).downloadExpedited data fits)
      (c.downloadExpedited data fits) :=
  outlasts_before (c.outlasts_exchange h _) _

theorem outlasts_downloadSegments (data : List UInt8) (i count : Nat) :
    Outlasts ((c.withPatience patience).downloadSegments data i count)
      (c.downloadSegments data i count) := by
  induction count generalizing i with
  | zero => exact outlasts_refl _
  | succ count ih =>
    refine outlasts_behind _ fun s => outlasts_bind (c.outlasts_exchange h _) fun r => ?_
    cases r with
    | confirmDownloadSegment t =>
      exact outlasts_behind _ fun _ => outlasts_behind _ fun _ => ih _
    | _ => exact outlasts_behind _ fun _ => outlasts_behind _ fun _ => ih _

theorem outlasts_downloadSegmented (data : List UInt8) :
    Outlasts ((c.withPatience patience).downloadSegmented data) (c.downloadSegmented data) := by
  refine outlasts_behind _ fun _ => outlasts_bind (c.outlasts_exchange h _) fun r => ?_
  cases r with
  | confirmDownload => exact outlasts_before (c.outlasts_downloadSegments h data 0 _) _
  | _ => exact outlasts_refl _

theorem outlasts_uploadSegments {m n : Nat} (hle : m ≤ n) :
    Outlasts ((c.withPatience patience).uploadSegments n) (c.uploadSegments m) := by
  induction m generalizing n with
  | zero => exact outlasts_unfinished _
  | succ m ih =>
    obtain ⟨n, rfl⟩ : ∃ k, n = k + 1 := ⟨n - 1, by omega⟩
    refine outlasts_behind _ fun s => outlasts_bind (c.outlasts_exchange h _) fun r => ?_
    cases r with
    | uploadSegment t unused last d =>
      refine outlasts_behind _ fun _ => outlasts_behind _ fun _ => ?_
      cases last with
      | true => exact outlasts_refl _
      | false => exact ih (by omega)
    | _ => exact outlasts_refl _

theorem outlasts_continueUpload (r : Response) :
    Outlasts ((c.withPatience patience).continueUpload r) (c.continueUpload r) := by
  cases r with
  | confirmUpload unused expedited sized a d =>
    cases expedited with
    | true => exact outlasts_refl _
    | false => exact outlasts_behind _ fun _ => outlasts_before (c.outlasts_uploadSegments h h) _
  | _ => exact outlasts_refl _

theorem outlasts_upload : Outlasts (c.withPatience patience).upload c.upload :=
  outlasts_bind (c.outlasts_exchange h _) fun r => c.outlasts_continueUpload h r

theorem outlasts_downloadBlockFrom (data : List UInt8) (start length first : Nat) {m n : Nat}
    (hle : m ≤ n) :
    Outlasts ((c.withPatience patience).downloadBlockFrom data start length first n)
      (c.downloadBlockFrom data start length first m) := by
  induction m generalizing first n with
  | zero => exact outlasts_unfinished _
  | succ m ih =>
    obtain ⟨n, rfl⟩ : ∃ k, n = k + 1 := ⟨n - 1, by omega⟩
    refine outlasts_behind _ fun _ => outlasts_bind (c.outlasts_await h _) fun r => ?_
    cases r with
    | confirmBlock seqno next =>
      show Outlasts (if length < seqno.toNat then _ else if seqno.toNat = length then _ else _)
        (if length < seqno.toNat then _ else if seqno.toNat = length then _ else _)
      split
      · exact outlasts_refl _
      · split
        · exact outlasts_refl _
        · exact outlasts_behind _ fun _ => ih _ (by omega)
    | _ => exact outlasts_refl _

theorem outlasts_downloadBlocks (data : List UInt8) (start : Nat) (size : BlockSize) :
    Outlasts ((c.withPatience patience).downloadBlocks data start size)
      (c.downloadBlocks data start size) := by
  induction hk : segmentCount data - start using Nat.strongRecOn generalizing start size with
  | ind k ih =>
    rw [downloadBlocks, downloadBlocks]
    split
    · have hpos := size.pos
      refine outlasts_behind _ fun _ => ?_
      refine outlasts_bind (c.outlasts_downloadBlockFrom h data start _ 1 h) fun next => ?_
      exact outlasts_behind _ fun _ => ih _ (by omega) _ _ rfl
    · exact outlasts_refl _

theorem outlasts_downloadBlock (data : List UInt8) :
    Outlasts ((c.withPatience patience).downloadBlock data) (c.downloadBlock data) := by
  refine outlasts_behind _ fun _ => outlasts_bind (c.outlasts_exchange h _) fun r => ?_
  cases r with
  | confirmBlockDownload serverCrc a blockSize =>
    refine outlasts_behind _ fun size => ?_
    refine outlasts_bind (c.outlasts_downloadBlocks h data 0 size) fun _ => ?_
    exact outlasts_before (c.outlasts_exchange h _) _
  | _ => exact outlasts_refl _

theorem outlasts_receiveBlocks (request : Request) (attempts : UInt32) {m n : Nat} (hle : m ≤ n) :
    Outlasts ((c.withPatience patience).receiveBlocks request attempts n)
      (c.receiveBlocks request attempts m) := by
  induction m generalizing request attempts n with
  | zero => exact outlasts_unfinished _
  | succ m ih =>
    obtain ⟨n, rfl⟩ : ∃ k, n = k + 1 := ⟨n - 1, by omega⟩
    have hrest : ∀ request attempts,
        Outlasts ((c.withPatience patience).receiveBlocks request attempts n)
          (c.receiveBlocks request attempts m) := fun _ _ => ih _ _ (by omega)
    refine outlasts_bind (c.outlasts_nextMessage h) fun received => ?_
    cases received with
    | none =>
      exact outlasts_behind _ fun _ => outlasts_behind _ fun _ => outlasts_behind _ fun _ =>
        hrest _ _
    | some message =>
      dsimp only
      split
      · exact outlasts_behind _ fun _ => hrest _ _
      · refine outlasts_behind _ fun segment => outlasts_behind _ fun inOrder => ?_
        split
        · exact outlasts_refl _
        · show Outlasts (if segment.seqno = c.config.blockSize ∨ segment.last = true then _ else _)
            (if segment.seqno = c.config.blockSize ∨ segment.last = true then _ else _)
          split
          · exact outlasts_behind _ fun _ => hrest _ _
          · exact hrest _ _

theorem outlasts_uploadBlocks (serverCrc : Bool) :
    Outlasts ((c.withPatience patience).uploadBlocks serverCrc) (c.uploadBlocks serverCrc) := by
  refine outlasts_behind _ fun _ => outlasts_behind _ fun _ => ?_
  refine outlasts_bind (c.outlasts_receiveBlocks h _ _ h) fun _ => ?_
  exact outlasts_behind _ fun _ => outlasts_before (c.outlasts_exchange h _) _

theorem outlasts_uploadBlock : Outlasts (c.withPatience patience).uploadBlock c.uploadBlock := by
  refine outlasts_bind (c.outlasts_exchange h _) fun r => ?_
  cases r with
  | confirmBlockUpload serverCrc sized a size =>
    cases sized with
    | true => exact outlasts_behind _ fun _ => c.outlasts_uploadBlocks h _
    | false => exact c.outlasts_uploadBlocks h _
  | confirmUpload => exact outlasts_behind _ fun _ => c.outlasts_continueUpload h _
  | _ => exact outlasts_refl _

end Call

def withPatience (client : Client σ) (patience : Nat) : Client σ := { client with patience }

/-- The first outcome is the second one, unless that is of a transfer left unfinished. -/
def Outcome.Outlasts (o p : Outcome σ α) : Prop := o = p ∨ p.1 = .error .unfinished

theorem Outcome.Outlasts.map {o p : Outcome σ α} (h : Outcome.Outlasts o p) (f : α → β) :
    Outcome.Outlasts (Outcome.map f o) (Outcome.map f p) := by
  rcases h with rfl | hunfinished
  · exact .inl rfl
  · refine .inr ?_
    rw [Outcome.map, hunfinished]
    rfl

theorem Call.run_of_prepared {c : Call σ} {mode : Mode} {w : σ} {s : Session σ}
    (h : c.prepare mode (c.session mode (c.link.resume w)) = .ok () s) (x : Transfer σ α) :
    c.run mode x w = c.conclude (x s) := by
  rw [run, h]

theorem Call.run_of_unprepared {c : Call σ} {mode : Mode} {w : σ} {e : Stop} {s : Session σ}
    (h : c.prepare mode (c.session mode (c.link.resume w)) = .error e s) (x : Transfer σ α) :
    c.run mode x w = (.error e, s.world) := by
  rw [run, h]

theorem Call.outlasts_run {c d : Call σ} {patience : Nat} (h : c.patience ≤ patience) (mode : Mode)
    (hd : d = c.withPatience patience) {x y : Transfer σ α} (hx : Outlasts x y) (w : σ) :
    Outcome.Outlasts (d.run mode x w) (c.run mode y w) := by
  subst hd
  have hprepare : Outlasts ((c.withPatience patience).prepare mode) (c.prepare mode) :=
    outlasts_behind _ fun _ => c.outlasts_flush h
  rcases hprepare (c.session mode (c.link.resume w)) with hsame | ⟨t, hunfinished⟩
  · cases hp : c.prepare mode (c.session mode (c.link.resume w)) with
    | error e s => exact .inl (by rw [run_of_unprepared hp, run_of_unprepared (hsame.trans hp)])
    | ok a s =>
      rw [run_of_prepared hp, run_of_prepared (hsame.trans hp)]
      rcases hx s with hsame | ⟨t, hunfinished⟩
      · exact .inl (congrArg c.conclude hsame)
      · rw [hunfinished]
        exact .inr rfl
  · rw [run_of_unprepared hunfinished]
    exact .inr rfl

section
variable (client : Client σ) {patience : Nat} (h : client.patience ≤ patience) (node : UInt8)
  (target : Address) (w : σ)
include h

theorem outlasts_transfer (direction : Direction) (mode : Mode) {work : Call σ → Transfer σ α}
    (hwork : ∀ c : Call σ, c.patience ≤ patience →
      Outlasts (work (c.withPatience patience)) (work c)) :
    Outcome.Outlasts
      ((client.withPatience patience).transfer node target direction mode work w)
      (client.transfer node target direction mode work w) := by
  rw [transfer, transfer]
  cases NodeId.ofByte? node with
  | none => exact .inl rfl
  | some n =>
    have hcall := hwork (client.call n target direction) h
    exact Call.outlasts_run (c := client.call n target direction) h mode rfl hcall w

theorem outlasts_uploadSegmented :
    Outcome.Outlasts ((client.withPatience patience).uploadSegmented node target w)
      (client.uploadSegmented node target w) :=
  client.outlasts_transfer h node target w _ _ fun c hc => c.outlasts_upload hc

theorem outlasts_uploadBlock :
    Outcome.Outlasts ((client.withPatience patience).uploadBlock node target w)
      (client.uploadBlock node target w) :=
  client.outlasts_transfer h node target w _ _ fun c hc => c.outlasts_uploadBlock hc

theorem outlasts_upload :
    Outcome.Outlasts ((client.withPatience patience).upload node target w)
      (client.upload node target w) := by
  have hmode : (client.withPatience patience).config.uploadMode = client.config.uploadMode := rfl
  rw [upload, upload, hmode]
  cases client.config.uploadMode with
  | block => exact client.outlasts_uploadBlock h node target w
  | _ => exact client.outlasts_uploadSegmented h node target w

theorem outlasts_uploadNumber :
    Outcome.Outlasts ((client.withPatience patience).uploadNumber node target w)
      (client.uploadNumber node target w) := by
  rw [uploadNumber, uploadNumber]
  rcases client.outlasts_uploadSegmented h node target w with hsame | hunfinished
  · rw [hsame]
    exact .inl rfl
  · refine .inr ?_
    generalize client.uploadSegmented node target w = o at hunfinished
    obtain ⟨result, v⟩ := o
    obtain rfl : result = .error .unfinished := hunfinished
    rfl

theorem outlasts_downloadExpedited (data : List UInt8) :
    Outcome.Outlasts ((client.withPatience patience).downloadExpedited node target data w)
      (client.downloadExpedited node target data w) := by
  rw [downloadExpedited, downloadExpedited]
  split
  · exact client.outlasts_transfer h node target w _ _ fun c hc =>
      c.outlasts_downloadExpedited hc data _
  · exact .inl rfl

theorem outlasts_downloadSegmented (data : List UInt8) :
    Outcome.Outlasts ((client.withPatience patience).downloadSegmented node target data w)
      (client.downloadSegmented node target data w) := by
  rw [downloadSegmented, downloadSegmented]
  split
  · exact client.outlasts_transfer h node target w _ _ fun c hc =>
      c.outlasts_downloadSegmented hc data
  · exact .inl rfl

theorem outlasts_downloadBlock (data : List UInt8) :
    Outcome.Outlasts ((client.withPatience patience).downloadBlock node target data w)
      (client.downloadBlock node target data w) := by
  rw [downloadBlock, downloadBlock]
  split
  · exact client.outlasts_transfer h node target w _ _ fun c hc => c.outlasts_downloadBlock hc data
  · exact .inl rfl

theorem outlasts_download (data : List UInt8) :
    Outcome.Outlasts ((client.withPatience patience).download node target data w)
      (client.download node target data w) := by
  have hmode : (client.withPatience patience).config.downloadMode data.length
      = client.config.downloadMode data.length := rfl
  rw [download, download, hmode]
  cases client.config.downloadMode data.length with
  | expedited => exact client.outlasts_downloadExpedited h node target w data
  | segmented => exact client.outlasts_downloadSegmented h node target w data
  | block => exact client.outlasts_downloadBlock h node target w data

theorem outlasts_downloadNumber (value : UInt32) (size : Nat) :
    Outcome.Outlasts ((client.withPatience patience).downloadNumber node target value size w)
      (client.downloadNumber node target value size w) := by
  rw [downloadNumber, downloadNumber]
  split
  · exact client.outlasts_downloadExpedited h node target w _
  · exact .inl rfl

theorem perform_outlasts (op : Operation) :
    Outcome.Outlasts ((client.withPatience patience).perform node target op w)
      (client.perform node target op w) := by
  cases op with
  | upload => exact (client.outlasts_upload h node target w).map _
  | uploadSegmented => exact (client.outlasts_uploadSegmented h node target w).map _
  | uploadBlock => exact (client.outlasts_uploadBlock h node target w).map _
  | uploadNumber => exact (client.outlasts_uploadNumber h node target w).map _
  | download data => exact (client.outlasts_download h node target w data).map _
  | downloadExpedited data => exact (client.outlasts_downloadExpedited h node target w data).map _
  | downloadSegmented data => exact (client.outlasts_downloadSegmented h node target w data).map _
  | downloadBlock data => exact (client.outlasts_downloadBlock h node target w data).map _
  | downloadNumber value size =>
    exact (client.outlasts_downloadNumber h node target w value size).map _

end

/-- Where only so much can still come, an operation comes to a result that does not depend on the
patience. -/
theorem perform_returns (client : Client σ) {stock : σ → Nat} (hf : client.link.Finite stock)
    (interval : 0 < client.config.pollInterval) (node : UInt8) (target : Address) (op : Operation)
    (w : σ) :
    ∃ (result : Except Error Value) (v : σ), ∀ patience,
      stock w + client.config.retries.toNat + client.config.timeout < patience →
      (client.withPatience patience).perform node target op w = (result.mapError .failed, v) := by
  let least := stock w + client.config.retries.toNat + client.config.timeout + 1
  have hfinite : (client.withPatience least).link.Finite stock := hf
  have hconcludes : ((client.withPatience least).perform node target op w).1
      ≠ .error .unfinished :=
    perform_concludes hfinite interval (Nat.lt_succ_self _) node target op
  have hsame : ∀ patience, least ≤ patience →
      (client.withPatience patience).perform node target op w
        = (client.withPatience least).perform node target op w := fun patience hle =>
    ((client.withPatience least).perform_outlasts hle node target w op).resolve_right hconcludes
  generalize (client.withPatience least).perform node target op w = o at hconcludes hsame
  obtain ⟨result, v⟩ := o
  match result with
  | .ok value => exact ⟨.ok value, v, hsame⟩
  | .error (.failed e) => exact ⟨.error e, v, hsame⟩
  | .error .unfinished => exact absurd rfl hconcludes

end Canopen.Client

namespace Canopen.Script

open Can (TransportError)
open Client (Config Error Operation Value)

/-- On a script every operation comes to an end. What it comes to, and where it leaves the script,
depends on the patience of the client no more once that is enough for the events that can still
come, the retries and the time to wait for an answer. -/
theorem operation_ends (config : Config) (valid : config.Valid) (interval : 0 < config.pollInterval)
    (node : UInt8) (target : Sdo.Address) (op : Operation) (s : Script TransportError) :
    ∃ (result : Except Error Value) (left : Script TransportError), ∀ patience,
      s.stock + config.retries.toNat + config.timeout < patience →
      let client : Client (Script TransportError) := { link := link, config, valid, patience }
      client.perform node target op s = (result.mapError .failed, left) :=
  Client.perform_returns { link := link, config, valid, patience := 0 } finite interval node target
    op s

/-- Somebody else talks on while the server says nothing, also when it is asked again. -/
theorem operation_ends_amid_chatter :
    let config : Config := { timeoutMs := 1, retries := 1, pollIntervalUs := 400 }
    let chatter : Can.Message :=
      { id := .std 0x701, data := #v[5, 0, 0, 0, 0, 0, 0, 0], dlc := 1, rtr := false }
    let s : Script TransportError :=
      { replies := [.ok [.event (.frame chatter) 300 5], .ok [.event (.frame chatter) 900 2]]
        receiveCost := 50 }
    config.Valid ∧ 0 < config.pollInterval ∧ ∃ left : Script TransportError, left.sent.size = 2 ∧
      ∀ patience, s.stock + config.retries.toNat + config.timeout < patience →
        let client : Client (Script TransportError) :=
          { link := link, config, valid := by decide, patience }
        client.perform 5 ⟨0x2000, 0⟩ .upload s = (.error (.failed (.timeout 2)), left) := by
  intro config chatter s
  have valid : config.Valid := by decide
  have interval : 0 < config.pollInterval := by decide
  obtain ⟨result, left, hends⟩ := operation_ends config valid interval 5 ⟨0x2000, 0⟩ .upload s
  obtain ⟨patience, henough, hresult, hsent⟩ : ∃ patience,
      s.stock + config.retries.toNat + config.timeout < patience ∧
        let client : Client (Script TransportError) :=
          { link := link, config, valid := by decide, patience }
        let o := client.perform 5 ⟨0x2000, 0⟩ .upload s
        o.1 = .error (.failed (.timeout 2)) ∧ o.2.sent.size = 2 :=
    ⟨1100, by decide, by decide +kernel⟩
  have hrun := hends patience henough
  dsimp only at hresult hsent hrun
  rw [hrun] at hresult hsent
  dsimp only at hresult
  rw [hresult] at hends
  exact ⟨valid, interval, left, hsent, hends⟩

end Canopen.Script
