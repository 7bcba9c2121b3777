import Canopen.Proofs.BlockStreams
import Canopen.Proofs.OverBus
import Canopen.Proofs.Watching
import Mathlib.Control.Monad.Basic

set_option autoImplicit false

namespace Canopen

open Can (Message)
open Sdo

namespace Client

open Transfer

namespace Call

variable {c : Call (Supervised Line)} {press : Nat → Bool} {blockSize : UInt8}

abbrev Streaming (c : Call (Supervised Line)) : View :=
  Server.Streams c.node c.config.blockSize

abbrev Paused (c : Call (Supervised Line)) : View :=
  fun state ms => c.Streaming state ms ∧ Server.Heard state ms

theorem brings_start :
    c.Brings blockSize c.Paused (Request.startBlockUpload.message c.node) c.Streaming :=
  fun _ _ hl h => h.1.handle_start hl h.2

theorem brings_acknowledgement (seqno : UInt8) :
    c.Brings blockSize c.Paused ((c.acknowledgement seqno).message c.node) c.Streaming :=
  fun _ _ hl h => h.1.handle_confirm hl h.2 seqno

section
variable (hc : c.link = (Line.link {}).supervised press)
include hc

theorem carries_downloadExpedited {data : List UInt8} (h0 : 1 ≤ data.length)
    (fits : data.length ≤ 4) :
    Carries (c.At blockSize (Resting (· = .idle))) Released (c.downloadExpedited data fits) fun _ =>
      c.At blockSize (Resting (· = .idle)) := by
  refine carries_bind (carries_exchange hc (D := fun _ state => state = .idle) ?_) fun r => ?_
  · intro s _ hs
    refine s.read_commits (by simp [hs]) (Request.regular_expedited _ fits h0) ?_
    exact s.proceed_expedited_commits _ _ _ _
  · cases r with
    | confirmDownload => exact carries_modify fun _ => rfl
    | _ => exact carries_unexpected hc _

theorem carries_downloadSegments (data : List UInt8) (i count : Nat) :
    Carries (c.At blockSize (Resting fun state => state.Downloads ∧ (count = 0 → state = .idle)))
      Released (c.downloadSegments data i count) fun _ =>
        c.At blockSize (Resting (· = .idle)) := by
  induction count generalizing i with
  | zero => exact carries_pure () fun _ _ h => ⟨h.1, h.2.2 rfl⟩
  | succ count ih =>
    have hrest : Carries (c.At blockSize (Resting fun state =>
        state.Downloads ∧ ((count == 0) = true → state = .idle))) Released (do
          modify fun s => { s with transferred := s.transferred + (segmentBytes data i).length }
          c.downloadSegments data (i + 1) count) fun _ => c.At blockSize (Resting (· = .idle)) := by
      refine carries_bind (carries_modify fun _ => rfl) fun _ => carries_of_view (ih (i + 1)) ?_
      exact fun _ _ h => ⟨h.1, h.2.1, fun h0 => h.2.2 (beq_iff_eq.mpr h0)⟩
    refine carries_get fun s => ?_
    refine carries_bind (G := fun _ => c.At blockSize (Resting fun state =>
      state.Downloads ∧ ((count == 0) = true → state = .idle))) ?_ fun r => ?_
    · refine carries_of_view (carries_exchange hc (S := Server.State.Downloads) ?_) ?_
      · intro s _ hs
        refine s.read_commits (fun t ht => ?_)
          (Request.regular_segment _ _ (segmentBytes_length_le data i)) ?_
        · rw [ht] at hs
          exact hs
        · exact s.proceed_segment_commits hs _ _ _ _
      · exact fun _ _ h => ⟨h.1, h.2.1⟩
    · cases r with
      | confirmDownloadSegment t => exact carries_bind (carries_checkToggle hc t) fun _ => hrest
      | _ => exact carries_bind (carries_unexpected hc _) fun _ => hrest

theorem carries_downloadSegmented (data : List UInt8) :
    Carries (c.At blockSize (Resting (· = .idle))) Released (c.downloadSegmented data) fun _ =>
      c.At blockSize (Resting (· = .idle)) := by
  refine carries_bind (carries_modify fun _ => rfl) fun _ => ?_
  refine carries_bind (carries_exchange hc (D := fun _ state => state.Downloads) ?_) fun r => ?_
  · intro s _ hs
    refine s.read_commits (by simp [hs]) (Request.regular_announce _ _) ?_
    exact s.proceed_announce_commits _ _ _ _
  · cases r with
    | confirmDownload =>
      refine carries_bind ?_ fun _ => carries_checkSize hc
      refine carries_of_view (carries_downloadSegments hc data 0 (segmentCount data)) ?_
      have hpos := segmentCount_pos data
      exact fun _ _ h => ⟨h.1, h.2, fun h0 => absurd h0 (Nat.ne_of_gt hpos)⟩
    | _ => exact carries_unexpected hc _

theorem carries_uploadSegments (n : Nat) :
    Carries (c.At blockSize (Resting Server.State.Uploads)) Released (c.uploadSegments n) fun _ =>
      c.At blockSize (Resting (· = .idle)) := by
  induction n with
  | zero => exact fun _ _ => .inl trivial
  | succ n ih =>
    refine carries_get fun s => ?_
    refine carries_bind (carries_exchange hc (D := Server.State.AfterSegment) ?_) fun r => ?_
    · intro s _ hs
      refine s.read_commits (fun t ht => ?_) (.of_plain trivial)
        (s.proceed_uploadSegment_commits hs _)
      rw [ht] at hs
      exact hs
    · cases r with
      | uploadSegment t unused last d =>
        refine carries_bind (carries_checkToggle hc t) fun _ => ?_
        refine carries_bind (carries_modify fun _ => rfl) fun _ => ?_
        cases last with
        | true => exact carries_pure () fun _ _ h => ⟨h.1, h.2.2 rfl⟩
        | false => exact carries_of_view ih fun _ _ h => ⟨h.1, h.2.1⟩
      | _ => exact carries_unexpected hc _

theorem carries_continueUpload {size : UInt8} (r : Response) :
    Carries (c.At blockSize (Resting (Server.State.Uploading size r))) Released (c.continueUpload r)
      fun _ => c.At blockSize fun state _ => state = .idle := by
  cases r with
  | confirmUpload unused expedited sized a d =>
    cases expedited with
    | true =>
      refine carries_bind (carries_modify fun _ => rfl) fun _ => ?_
      refine carries_bind (carries_modify fun _ => rfl) fun _ => ?_
      exact carries_get fun _ => carries_pure _ fun _ _ h => h.2.2 rfl
    | false =>
      refine carries_bind (carries_modify fun _ => rfl) fun _ => ?_
      refine carries_bind (G := fun _ => c.At blockSize (Resting (· = .idle))) ?_ fun _ => ?_
      · refine carries_of_view (carries_uploadSegments hc c.patience) ?_
        exact fun _ _ h => ⟨h.1, h.2.1⟩
      · refine carries_bind (carries_checkSize hc) fun _ => ?_
        exact carries_get fun _ => carries_pure _ fun _ _ h => h.2
  | _ => exact carries_unexpected hc _

theorem carries_upload :
    Carries (c.At blockSize (Resting (· = .idle))) Released c.upload fun _ =>
      c.At blockSize fun state _ => state = .idle := by
  refine carries_bind (carries_exchange hc (D := Server.State.Uploading 0) ?_) fun r =>
    carries_continueUpload hc r
  intro s _ hs
  exact s.read_commits (by simp [hs]) (.of_plain trivial) (s.proceed_initiateUpload_commits _ _)

section
variable {data : List UInt8} {start length : Nat} (hlength : length ≤ blockSize.toNat)
  (hsize : blockSize.toNat ≤ 127) (hend : start + length ≤ segmentCount data)
include hlength hsize hend

/-- The server says nothing before the end of a block. -/
theorem carries_sendBlockSegment {n : Nat} (h0 : 1 ≤ n) (hn : n < length) :
    Carries (c.At blockSize (Resting Server.State.InBlock)) Released
      (c.sendBlockSegment data start n) fun _ =>
        c.At blockSize (Resting Server.State.InBlock) := by
  refine carries_sendMessage hc (BlockSegment.message_client_id _ _) ?_
  rintro s ms hl ⟨rfl, t, ht⟩
  have hseqno : (blockSegment data (start + n - 1) (UInt8.ofNat n)).seqno.toNat = n :=
    UInt8.toNat_ofNat_of_lt' (by show n < 256; omega)
  rw [hl.handle_segment ht (by omega) (by omega)]
  refine Server.blockSegment_within { s with received := s.received + 1 } ht ?_ ?_
  · intro heq
    have hsized := hl.sized
    have hvalue : (blockSegment data (start + n - 1) (UInt8.ofNat n)).seqno.toNat
        = s.blockSize.toNat := congrArg UInt8.toNat heq
    rw [hseqno, hsized] at hvalue
    omega
  · refine decide_eq_false fun hlast => ?_
    omega

theorem carries_downloadBlockFrom {first : Nat} (hfirst : 1 ≤ first) (hle : first ≤ length)
    (n : Nat) :
    Carries (c.At blockSize (Resting Server.State.InBlock)) Released
      (c.downloadBlockFrom data start length first n) fun size s => size.value = blockSize ∧
        c.At blockSize (Resting fun state => state.InBlock ∨ start + length = segmentCount data)
          s := by
  -- On the rounds left. Only the last segment of all takes the server out of the blocks.
  induction n generalizing first with
  | zero => exact fun _ _ => .inl trivial
  | succ n ih =>
    obtain ⟨j, rfl⟩ : ∃ j, first = j + 1 := ⟨first - 1, by omega⟩
    have hlast : Carries (c.At blockSize (Resting Server.State.InBlock)) Released (do
        c.sendBlockSegment data start length
        c.await (c.sendBlockSegment data start length)) fun r =>
          c.At blockSize (Resting fun state => ∃ k, r = .confirmBlock k blockSize ∧
            (state.InBlock ∨ k.toNat = length ∧ start + length = segmentCount data)) := by
      refine carries_ask hc (BlockSegment.message_client_id _ _) ?_
      rintro s ms hl ⟨rfl, t, ht⟩
      have hseqno : (UInt8.ofNat length).toNat = length :=
        UInt8.toNat_ofNat_of_lt' (by show length < 256; omega)
      have hcommits := ({ s with received := s.received + 1 } : Server).blockSegment_commits ht
        (blockSegment data (start + length - 1) (UInt8.ofNat length))
      rw [hl.handle_segment ht (by show 0 < (UInt8.ofNat length).toNat; omega)
        (by show (UInt8.ofNat length).toNat < 128; omega), ← hl.addressed]
      refine hcommits.mono (fun _ h => h) ?_
      rintro r state ⟨k, rfl, hk⟩
      refine ⟨k, congrArg _ hl.sized, hk.imp_right ?_⟩
      rintro ⟨rfl, hlast⟩
      have hcount : start + length - 1 + 1 = segmentCount data := of_decide_eq_true hlast
      exact ⟨hseqno, by omega⟩
    rw [downloadBlockFrom, Traffic.forM_behind (by omega), bind_assoc]
    refine carries_bind (keeps_forM fun seqno hmem => ?_) fun _ => ?_
    · obtain ⟨h0, hlt⟩ := List.mem_range'_1.mp hmem
      exact carries_sendBlockSegment hc hlength hsize hend (by omega) (by omega)
    rw [← bind_assoc]
    refine carries_bind hlast fun r => ?_
    cases r with
    | confirmBlock seqno next =>
      rintro s ⟨hl, hms, k, heq, hk⟩
      cases heq
      have hs : c.At blockSize (Resting fun state =>
          state.InBlock ∨ start + length = segmentCount data) s :=
        ⟨hl, hms, hk.imp_right And.right⟩
      show Ends (if length < seqno.toNat then _ else if seqno.toNat = length then _ else _) s _ _
      split
      · exact carries_abandon hc _ _ s hs
      · split
        · exact carries_checkBlockSize hc _ s hs
        · -- Not all of the block was taken, so the server still awaits the rest of it.
          rename_i hne
          have hblock : c.At blockSize (Resting Server.State.InBlock) s :=
            ⟨hl, hms, hk.resolve_right fun h => hne h.1⟩
          refine carries_bind (carries_note hc _ _) (fun _ => ?_) s hblock
          exact ih (Nat.le_add_left 1 _) (by omega)
    | _ => exact carries_unexpected hc _

end

theorem carries_downloadBlocks (data : List UInt8) (start : Nat) {size : BlockSize}
    (hsize : size.value = blockSize) :
    Carries (c.At blockSize (Resting fun state => state.InBlock ∨ segmentCount data ≤ start))
      Released (c.downloadBlocks data start size) fun _ =>
        c.At blockSize (Resting fun _ => True) := by
  -- On the number of segments left.
  induction hk : segmentCount data - start using Nat.strongRecOn generalizing start size with
  | ind k ih =>
    have hpos := size.pos
    have hle := size.le
    rw [hsize] at hpos hle
    rw [downloadBlocks]
    split
    · rename_i hstart
      rw [hsize]
      refine carries_bind (carries_note hc _ _) fun _ => ?_
      refine carries_bind (I := _) (G := fun (next : BlockSize) s => next.value = blockSize ∧
        c.At blockSize (Resting fun state => state.InBlock ∨
          start + min blockSize.toNat (segmentCount data - start) = segmentCount data) s) ?_ ?_
      · refine carries_of_view (carries_downloadBlockFrom hc (Nat.min_le_left _ _) hle (by omega)
          (Nat.le_refl 1) (by omega) c.patience) ?_
        exact fun _ _ h => ⟨h.1, h.2.resolve_right (by omega)⟩
      · refine fun next => carries_of_and fun hnext => ?_
        refine carries_bind (carries_modify fun _ => rfl) fun _ => ?_
        refine carries_of_view (ih _ (by omega) _ hnext rfl) ?_
        exact fun _ _ h => ⟨h.1, h.2.imp_right fun h => by omega⟩
    · exact carries_pure () fun _ _ h => ⟨h.1, trivial⟩

theorem carries_downloadBlock (data : List UInt8) :
    Carries (c.At blockSize (Resting (· = .idle))) Released (c.downloadBlock data) fun _ =>
      c.At blockSize fun state _ => state = .idle := by
  refine carries_bind (carries_modify fun _ => rfl) fun _ => ?_
  refine carries_bind (carries_exchange hc (D := Server.State.Receiving blockSize) ?_) fun r => ?_
  · rintro s rfl hs
    exact s.read_commits (by simp [hs]) (.of_plain trivial)
      (s.proceed_initiateBlockDownload_commits _ _ _ _)
  cases r with
  | confirmBlockDownload serverCrc a size =>
    rintro s ⟨hl, hms, rfl, hblock⟩
    have hs : c.At size (Resting fun state => state.InBlock ∨ segmentCount data ≤ 0) s :=
      ⟨hl, hms, .inl hblock⟩
    refine carries_bind (carries_checkBlockSize hc size) (fun b => carries_of_and fun hb => ?_) s hs
    refine carries_bind (carries_downloadBlocks hc data 0 hb) fun _ => ?_
    refine carries_bind (carries_exchange hc (S := fun _ => True)
      (D := fun r state => r = .confirmBlockDownloadEnd → state = .idle) ?_) fun r => ?_
    · exact fun s _ _ => s.read_endBlockDownload_commits (Traffic.regular_endBlockDownload data _)
    cases r with
    | confirmBlockDownloadEnd =>
      exact carries_of_view (carries_checkSize hc) fun _ _ h => h.2 rfl
    | _ => exact carries_unexpected hc _
  | _ => exact carries_unexpected hc _

theorem carries_acknowledge :
    Carries (c.At blockSize c.Paused) Released c.acknowledge fun request s =>
      (∃ k, request = c.acknowledgement k) ∧ c.At blockSize c.Streaming s := by
  refine carries_get fun s => ?_
  refine carries_bind (carries_note hc _ _) fun _ => ?_
  refine carries_bind (carries_sendMessage hc (Request.message_id _ _)
    (brings_acknowledgement s.seqno)) fun _ => ?_
  split
  · exact fun t ht => ⟨⟨_, rfl⟩, ht⟩
  · exact fun t ht => ⟨⟨_, rfl⟩, ht⟩

/-- Blocks are received until the last segment has come in order, and then nothing is left of them
to be taken. -/
theorem carries_receiveBlocks (hsize : c.config.blockSize.toNat ≤ 127) {request : Request}
    (hrequest : c.Brings blockSize c.Paused (request.message c.node) c.Streaming)
    (attempts : UInt32) (n : Nat) :
    Carries (c.At blockSize c.Streaming) Released (c.receiveBlocks request attempts n) fun _ s =>
      c.At blockSize (Server.Delivered c.node c.config.blockSize s.seqno) s := by
  intro s hs
  refine ends_receiveBlocks_of_next (K := Released)
    (W := fun _ request s => c.Brings blockSize c.Paused (request.message c.node) c.Streaming ∧
      c.At blockSize c.Streaming s)
    (L := fun _ request s => c.Brings blockSize c.Paused (request.message c.node) c.Streaming ∧
      c.At blockSize (fun state ms => ms = [] ∧ c.Streaming state []) s)
    (M := fun _ request m s => c.Brings blockSize c.Paused (request.message c.node) c.Streaming ∧
      c.At blockSize (fun state ms => c.Streaming state (m :: ms)) s)
    (I := fun s => c.At blockSize (Server.Delivered c.node c.config.blockSize s.seqno) s)
    ?_ ?_ ?_ ?_ ?_ attempts n ⟨hrequest, hs⟩
  · exact fun _ _ _ => .inl trivial
  · rintro _ request s ⟨hrequest, hs⟩
    refine (carries_nextMessage hc (fun _ _ h => h.own) s hs).mono (fun received t ht => ?_)
      fun _ _ he => he
    cases received with
    | none => exact ⟨hrequest, ht⟩
    | some m => exact ⟨hrequest, ht⟩
  · rintro attempts _ request s ⟨hrequest, hs⟩
    refine (carries_takeRetry hc attempts s hs).mono (fun _ t ht => ?_) fun _ _ he => he
    have hagain : c.Brings blockSize c.Paused
        ((if 0 < t.seqno then c.acknowledgement t.seqno else request).message c.node)
        c.Streaming := by
      split
      · exact brings_acknowledgement t.seqno
      · exact hrequest
    refine (carries_of_view (carries_sendMessage hc (Request.message_id _ _) hagain) ?_ t ht).mono
      (fun _ u hu => ⟨hagain, hu⟩) fun _ _ he => he
    rintro state ms ⟨rfl, h⟩
    exact ⟨h, .inr rfl⟩
  · rintro _ request m s ⟨hrequest, hs⟩ hhead
    refine (carries_readResponse hc (fun _ _ h => (h.take hsize).abort hhead) s hs).mono
      (fun _ t ht => ⟨hrequest, ?_⟩) fun _ _ he => he
    exact ht.1.mono fun _ _ h => (h.take hsize).streams
  · rintro _ request m s ⟨hrequest, hs⟩ -
    refine (carries_readSegment hc m s hs).mono (fun segment t ht => ?_) fun _ _ he => he
    obtain ⟨hread, ht⟩ := ht
    refine (carries_takeSegment hc segment t ht).mono (fun inOrder u hu => ?_) fun _ _ he => he
    obtain ⟨hseqno, hu⟩ := hu
    split
    · rename_i hend
      obtain ⟨hnext, hlast⟩ := Bool.and_eq_true_iff.mp hend
      refine hu.mono fun _ _ h => ?_
      rw [hseqno hnext]
      exact (h.take hsize).delivered segment hread hlast
    · split
      · rename_i hturn
        have hpaused : c.At blockSize c.Paused u := hu.mono fun _ _ h =>
          ⟨(h.take hsize).streams, (h.take hsize).heard segment hread hturn⟩
        refine (carries_acknowledge hc u hpaused).mono ?_ fun _ _ he => he
        rintro _ v ⟨⟨k, rfl⟩, hv⟩
        exact ⟨brings_acknowledgement k, hv⟩
      · exact ⟨hrequest, hu.mono fun _ _ h => (h.take hsize).streams⟩

theorem carries_acknowledgeAll
    (hsize : 0 < c.config.blockSize.toNat ∧ c.config.blockSize.toNat ≤ 127) (seqno : UInt8) :
    Carries (c.At blockSize (Server.Delivered c.node c.config.blockSize seqno)) Released
      (c.exchange (c.acknowledgement seqno)) fun _ =>
        c.At blockSize fun state _ => state = .idle ∨ state = .endUploadBlock := by
  have hack : (c.acknowledgement seqno).Regular := .of_plain trivial
  refine carries_bind (carries_sendMessage hc (Request.message_id _ _) fun _ _ hl h =>
    h.handle_confirm hl hsize) fun _ => ?_
  refine carries_await hc (Request.message_id _ _) (X := Server.Closes c.node) ?_ ?_ ?_
  · exact fun _ _ h => h.own
  · intro m state ms h r hr
    cases state with
    | idle => exact ⟨fun _ => rfl, fun _ => .inl rfl⟩
    | endUploadBlock =>
      obtain ⟨m', hend, heq⟩ := h
      obtain ⟨rfl, rfl⟩ := List.cons.inj heq
      obtain ⟨unused, checksum, hread⟩ := hend.ofMessage
      rw [hread] at hr
      cases hr
      exact ⟨fun h => by simp [Response.kind] at h, fun _ => .inr rfl⟩
    | _ => exact h.elim
  · rintro s ms hl ⟨rfl, h⟩
    -- Only a server that is idle has kept silent.
    have hidle : s.state = .idle := by
      cases hstate : s.state with
      | idle => rfl
      | endUploadBlock =>
        rw [hstate] at h
        obtain ⟨m', -, heq⟩ := h
        cases heq
      | _ =>
        rw [hstate] at h
        exact h.elim
    rw [hl.idle_handle hidle hack rfl]
    exact hl.own_handle (fun _ hm => absurd hm List.not_mem_nil) _

theorem carries_uploadBlocks
    (hsize : 0 < c.config.blockSize.toNat ∧ c.config.blockSize.toNat ≤ 127) (serverCrc : Bool) :
    Carries (c.At blockSize c.Paused) Released (c.uploadBlocks serverCrc) fun _ =>
      c.At blockSize fun state _ => state = .idle := by
  refine carries_bind (carries_sendMessage hc (Request.message_id _ _) brings_start) fun _ => ?_
  refine carries_bind (carries_modify fun _ => rfl) fun _ => ?_
  refine carries_bind (carries_receiveBlocks hc hsize.2 brings_start 1 c.patience) fun _ => ?_
  intro s hs
  rw [ends_bind, ends_get]
  refine carries_bind (carries_acknowledgeAll hc hsize s.seqno) (fun r => ?_) s hs
  cases r with
  | endBlockUpload unused expected =>
    refine carries_bind (carries_modify fun _ => rfl) fun _ => carries_get fun s => ?_
    have hend : Carries (c.At blockSize fun state _ => state = .idle ∨ state = .endUploadBlock)
        Released (do
          c.checkSize
          c.send .confirmBlockUploadEnd
          return (← get).buffer) fun _ => c.At blockSize fun state _ => state = .idle := by
      refine carries_bind (carries_checkSize hc) fun _ => ?_
      refine carries_bind (carries_sendMessage hc (Y := fun state _ => state = .idle)
        (Request.message_id _ _) fun _ _ hl h => hl.idle_handle_end h) fun _ => ?_
      exact fun _ hs => hs
    show Carries _ _
      (if (serverCrc && c.config.useCrc && crc s.buffer != expected) = true then _ else _) _
    split
    · exact carries_bind (carries_abandon hc _ _) fun _ => hend
    · exact hend
  | _ => exact carries_unexpected hc _

theorem carries_uploadBlock
    (hsize : 0 < c.config.blockSize.toNat ∧ c.config.blockSize.toNat ≤ 127) :
    Carries (c.At blockSize (Resting (· = .idle))) Released c.uploadBlock fun _ =>
      c.At blockSize fun state _ => state = .idle := by
  refine carries_bind
    (carries_exchange hc (D := Server.State.Uploading c.config.blockSize) ?_) fun r => ?_
  · intro s _ hs
    exact s.read_commits (by simp [hs]) (.of_plain trivial)
      (s.proceed_initiateBlockUpload_commits _ _ _ _)
  cases r with
  | confirmBlockUpload serverCrc sized a size =>
    have hblocks : Carries (c.At blockSize (Resting fun state => ∃ t : Server.BlockUpload,
        state = .uploadBlockInitiated t ∧ t.blockSize = c.config.blockSize)) Released
        (c.uploadBlocks serverCrc) fun _ => c.At blockSize fun state _ => state = .idle := by
      refine carries_of_view (carries_uploadBlocks hc hsize serverCrc) ?_
      rintro state ms ⟨rfl, t, rfl, ht⟩
      exact ⟨⟨ht, rfl⟩, .inr rfl⟩
    cases sized with
    | true => exact carries_bind (carries_modify fun _ => rfl) fun _ => hblocks
    | false => exact hblocks
  | confirmUpload =>
    exact carries_bind (carries_note hc _ _) fun _ => carries_continueUpload hc _
  | _ => exact carries_unexpected hc _

/-- However a transfer goes, it ends with an idle server or without an answer. -/
theorem achieves_release
    (hsize : 0 < c.config.blockSize.toNat ∧ c.config.blockSize.toNat ≤ 127) :
    c.Achieves (c.At blockSize (Resting (· = .idle)))
      (c.At blockSize fun state _ => state = .idle) (fun w => w.world.server.state = .idle)
      Released where
  expedited _ _ h0 fits := (carries_downloadExpedited hc h0 fits).mono (fun _ h => h)
    fun _ _ hs => hs.mono fun _ _ h => h.2
  segmented _ data := (carries_downloadSegmented hc data).mono (fun _ h => h)
    fun _ _ hs => hs.mono fun _ _ h => h.2
  block _ := carries_downloadBlock hc
  upload _ := carries_upload hc
  uploadBlock _ := carries_uploadBlock hc hsize
  done hs text := (viewed_note hc hs _).view
  failed {e w} he text := by
    obtain ⟨ws, hw⟩ := note_supervised hc (w := w) ⟨.debug, text⟩
    rw [Released, hw]
    exact he

end

end Call

theorem perform_releases {config : Config} (valid : config.Valid) (patience : Nat)
    (press : Nat → Bool) {w : Supervised Line} (idle : w.world.server.state = .idle)
    (target : Address) (op : Operation) :
    Leaves (fun w => w.world.server.state = .idle) Released
      (((Line.client {} config valid patience).supervised press).perform
        w.world.server.node.value target op w) := by
  let client := (Line.client {} config valid patience).supervised press
  have hsize := Config.blockSize_of_valid valid
  refine perform_leaves_of_achieves
    (I := fun n => (client.call n target op.direction).At w.world.server.blockSize
      (Resting (· = .idle)))
    (G := fun n => (client.call n target op.direction).At w.world.server.blockSize
      fun state _ => state = .idle) ?_ ?_ (fun _ _ => .inr idle) fun _ hw => .inr hw
  · exact fun n _ => Call.achieves_release rfl hsize
  · intro n hn mode
    have haddressed : w.world.server.node = n :=
      Option.some.inj (by rw [← n.ofByte?_value, ← w.world.server.node.ofByte?_value, hn])
    refine carries_bind (Call.carries_note rfl _ _)
      (fun _ => Call.carries_flush rfl (· = .idle) _) _ ?_
    exact ⟨⟨haddressed, rfl, fun _ => idle⟩, idle⟩

end Client

namespace Network

open Client

/-- The servers of a network where that of a line is among them. -/
structure Hosting (node : NodeId) (before after : List Server) (w : Supervised Network)
    (l : Supervised Line) : Prop where
  devices : w.world.bus.devices = (before ++ l.world.server :: after).map Device.server
  addressed : l.world.server.node = node

variable {n : Network} {tap : Nat} {before after : List Server} {s : Server}

theorem Hosts.perform_supervised (number : Nat) (h : n.Hosts tap before s after) (config : Config)
    (valid : config.Valid) (patience : Nat) (press : Nat → Bool) (target : Address)
    (op : Operation) :
    Alike (Hosting s.node before after) (fun _ => Hosting s.node before after)
      (((client tap number config valid patience).supervised press).perform s.node.value target op
        { world := n })
      (((Line.client {} config valid patience).supervised press).perform s.node.value target op
        { world := n.line tap s }) := by
  let watched := (client tap number config valid patience).supervised press
  let b : Link (Supervised Line) := (Line.link {}).supervised press
  let R := Together (Shows s.node tap number before after (n.requests s.node) n.warnings)
  have hsim : Simulates R s.node watched.link b := (simulates h.alone).supervised press
  have hhosting : ∀ {w l}, R w l → Hosting s.node before after w l :=
    fun hr => ⟨hr.worlds.devices, hr.worlds.addressed⟩
  have hnoted : ∀ {w l}, Hosting s.node before after w l → ∀ r,
      Hosting s.node before after (watched.link.note r w) (b.note r l) := by
    intro w l hw r
    obtain ⟨ws, hl⟩ := Line.foldl_note [r] l.world
    have hworld : (b.note r l).world = { l.world with warnings := ws } := hl
    refine ⟨?_, ?_⟩
    · rw [hworld]
      exact hw.devices
    · rw [hworld]
      exact hw.addressed
  have hearly : ∀ e : Stop, e.abortCode? = none →
      Hosting s.node before after { world := n } { world := n.line tap s } :=
    fun _ _ => ⟨h.devices, rfl⟩
  refine perform_alike (b := b) (R := fun _ => OfWorlds R) ?_ ?_ hearly
    (fun hw _ _ => hw) op
  · intro m hm direction
    obtain rfl : m = s.node :=
      Option.some.inj (by rw [← m.ofByte?_value, ← s.node.ofByte?_value, hm])
    exact Simulates.tracks_of (c := watched.call s.node target direction) hsim hhosting
      (fun hr _ => hhosting hr) hnoted
  · intro m hm direction mode
    have hstart : R (watched.link.resume { world := n }) (b.resume { world := n.line tap s }) :=
      ⟨h.shows number, rfl, rfl⟩
    exact Call.prepare_abreast (c := watched.call m target direction) hsim.resembles
      (fun hr _ _ => hhosting hr) hstart mode

/-- However an operation ends, the server is idle then, unless the client was left without an
answer. Whatever the server does wrong, and whenever the transfer is cancelled. -/
theorem server_released (number : Nat) (h : n.Hosts tap before s after) (idle : s.state = .idle)
    (config : Config) (valid : config.Valid) (patience : Nat) (press : Nat → Bool)
    (target : Address) (op : Operation) :
    let o := ((client tap number config valid patience).supervised press).perform s.node.value
      target op { world := n }
    (∀ e, o.1 = .error e → ¬e.Unanswered) →
      ∃ t, o.2.world.bus.devices = (before ++ t :: after).map Device.server ∧
        t.node = s.node ∧ t.state = .idle := by
  intro o hanswered
  have halike := h.perform_supervised number config valid patience press target op
  have hleaves : Leaves (fun w => w.world.server.state = .idle) Released
      (((Line.client {} config valid patience).supervised press).perform s.node.value target op
        { world := n.line tap s }) :=
    perform_releases valid patience press (w := { world := n.line tap s }) idle target op
  generalize ((Line.client {} config valid patience).supervised press).perform s.node.value target
    op { world := n.line tap s } = p at halike hleaves
  obtain ⟨result, l⟩ := p
  have hresult : o.1 = result := halike.result
  cases result with
  | ok v =>
    obtain ⟨hdevices, haddressed⟩ := halike.value v hresult
    exact ⟨l.world.server, hdevices, haddressed, hleaves⟩
  | error e =>
    obtain ⟨hdevices, haddressed⟩ := halike.failure e hresult
    exact ⟨l.world.server, hdevices, haddressed, hleaves.resolve_left (hanswered e hresult)⟩

/-- A transfer that is cancelled when the server has sent its first block. -/
theorem server_released_when_cancelled :
    let s : Server :=
      { node := ⟨5, by decide, by decide⟩
        objects := ⟨[(⟨0x2000, 0⟩, [1, 2, 3, 4, 5, 6, 7, 8])]⟩ }
    let t : Server := { node := ⟨6, by decide, by decide⟩ }
    let n : Network := { bus := { queues := [[]], devices := [.server t, .server s] } }
    let o := ((client 0 0 {} (by decide) 9).supervised (· == 8)).perform s.node.value
      ⟨0x2000, 0⟩ .uploadBlock { world := n }
    o.1 = .error (.failed .cancelled) ∧
      ∃ u, o.2.world.bus.devices = [.server t, .server u] ∧ u.node = s.node ∧ u.state = .idle := by
  intro s t n o
  have h : n.Hosts 0 [t] s [] := ⟨rfl, by decide, rfl, by decide⟩
  have hresult : o.1 = .error (.failed .cancelled) := by decide +kernel
  have hanswered : ∀ e, o.1 = .error e → ¬e.Unanswered := by
    intro e he hunanswered
    rw [hresult] at he
    cases he
    exact hunanswered
  exact ⟨hresult, server_released 0 h rfl {} (by decide) 9 (· == 8) ⟨0x2000, 0⟩ .uploadBlock
    hanswered⟩

end Network
end Canopen
