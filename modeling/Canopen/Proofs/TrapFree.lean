import Canopen.Proofs.Courses
import Canopen.Proofs.Formats
import Canopen.Proofs.GuardedTransfers

set_option autoImplicit false

namespace Canopen

open Can (Message)
open Sdo

namespace Guarded

variable {data : List UInt8} {i : Nat}

theorem expeditedRequest_eq (target : Address) (fits : data.length ≤ 4) :
    expeditedRequest target data = .ok (Request.expedited target data fits) := by
  rw [expeditedRequest, copy_eq fits, bind_ok, difference_eq fits, bind_ok,
    toByte_eq (Nat.lt_of_le_of_lt (Nat.sub_le ..) (by decide))]
  rfl

theorem segmentRequest_eq (toggle last : Bool) (fits : data.length ≤ 7) :
    segmentRequest toggle last data = .ok (Request.segment toggle last data fits) := by
  have hunused : byteDifference 7 (UInt8.ofNat data.length)
      = .ok (UInt8.ofNat (7 - data.length)) := byteDifference_ofNat_eq (by decide) fits
  rw [segmentRequest, copy_eq fits, bind_ok,
    toByte_eq (Nat.lt_of_le_of_lt fits (by decide)), bind_ok, hunused]
  rfl

theorem segmentOfBlock_eq (seqno : UInt8) (h : i < segmentCount data) :
    segmentOfBlock data i seqno (segmentCount data)
      = .ok (Client.blockSegment data i seqno) := by
  have hstart := start_le_length h
  rw [segmentOfBlock, difference_eq (by omega), bind_ok, slice_segment_eq hstart, bind_ok,
    stop_sub_start hstart, copy_eq (segmentBytes_length_le data i)]
  rfl

end Guarded

namespace Client

open Guarded
open Transfer

variable {σ α β : Type}

namespace Transfer

/-- A guarded step does in a state what the step does that is not guarded. -/
def Agrees (x : GuardedTransfer σ α) (y : Transfer σ α) (s : Session σ) : Prop :=
  x.run s = (Except.ok <$> y) s

variable {s : Session σ} {y : Transfer σ α}

theorem agrees_lift (y : Transfer σ α) (s : Session σ) : Agrees (liftM y) y s := rfl

theorem agrees_pure (a : α) (s : Session σ) : Agrees (pure a) (pure a) s := rfl

theorem agrees_ok {x : Guarded β} {b : β} {f : β → GuardedTransfer σ α} (hx : x = .ok b)
    (hf : Agrees (f b) y s) : Agrees (liftM x >>= f) y s := by
  rw [hx]
  exact hf

theorem agrees_bind {x : GuardedTransfer σ α} {f : α → GuardedTransfer σ β}
    {g : α → Transfer σ β} (hx : Agrees x y s)
    (hf : Ends y s (fun a t => Agrees (f a) (g a) t) fun _ _ => True) :
    Agrees (x >>= f) (y >>= g) s := by
  unfold Agrees Ends at *
  rw [ExceptT.run_bind]
  simp only [bind, EStateM.bind, Functor.map, EStateM.map] at *
  rw [hx]
  cases hy : y s with
  | ok a t =>
    rw [hy] at hf
    exact hf
  | error e t => rfl

theorem ends_true (y : Transfer σ α) (s : Session σ) :
    Ends y s (fun _ _ => True) fun _ _ => True := by
  unfold Ends
  split <;> trivial

theorem agrees_then {x : GuardedTransfer σ α} {f : α → GuardedTransfer σ β}
    {g : α → Transfer σ β} (hx : Agrees x y s) (hf : ∀ a t, Agrees (f a) (g a) t) :
    Agrees (x >>= f) (y >>= g) s :=
  agrees_bind hx ((ends_true y s).mono (fun a t _ => hf a t) fun _ _ h => h)

theorem agrees_keeps {I : Session σ → Prop} {x : GuardedTransfer σ α}
    {f : α → GuardedTransfer σ β} {g : α → Transfer σ β} (hx : Agrees x y s)
    (hy : Keeps I (fun _ _ => True) y) (hs : I s) (hf : ∀ a t, I t → Agrees (f a) (g a) t) :
    Agrees (x >>= f) (y >>= g) s :=
  agrees_bind hx ((hy s hs).mono (fun a t ht => hf a t ht) fun _ _ h => h)

theorem agrees_get {f : Session σ → GuardedTransfer σ β} {g : Session σ → Transfer σ β}
    (hf : Agrees (f s) (g s) s) : Agrees (get >>= f) (get >>= g) s :=
  agrees_bind (agrees_lift get s) hf

theorem agrees_look {f : Session σ → GuardedTransfer σ α} (hf : Agrees (f s) y s) :
    Agrees (get >>= f) y s := hf

theorem agrees_forM {ι : Type} {f : ι → GuardedTransfer σ Unit} {g : ι → Transfer σ Unit}
    {is : List ι} (hf : ∀ i ∈ is, ∀ t, Agrees (f i) (g i) t) (s : Session σ) :
    Agrees (is.forM f) (is.forM g) s := by
  induction is generalizing s with
  | nil => exact agrees_pure () s
  | cons i is ih =>
    obtain ⟨hi, his⟩ := List.forall_mem_cons.mp hf
    exact agrees_then (hi s) fun _ t => ih his t

end Transfer

namespace Call

variable (c : Call σ) {s : Session σ}

theorem ends_readResponse_fits (m : Message) :
    Ends (c.readResponse m) s (fun r _ => r.Fits) fun _ _ => True := by
  rw [readResponse]
  cases hr : Response.ofMessage m with
  | error e =>
    exact (ends_malformed_of_preserves c.link.preserves_true trivial e).mono (fun _ _ h => h.elim)
      fun _ _ _ => trivial
  | ok r =>
    cases r with
    | abort target code => trivial
    | _ => exact Response.fits_ofMessage hr

theorem ends_exchange_fits (request : Request) :
    Ends (c.exchange request) s (fun r _ => r.Fits) fun _ _ => True := by
  rw [exchange, ends_bind]
  refine (ends_true _ s).mono (fun _ t _ => ?_) fun _ _ h => h
  rw [await, ends_bind, ends_get]
  exact ends_awaitRounds_of_next (W := fun _ _ => True) (L := fun _ _ => True)
    (M := fun _ _ => True) (K := fun _ _ => True) (fun _ _ => trivial)
    (fun _ s _ => (ends_true _ s).mono (fun received _ _ => by cases received <;> trivial)
      fun _ _ h => h)
    (fun m s _ => c.ends_readResponse_fits m) (fun _ _ s _ => ends_true _ s) 1 _ trivial

theorem agrees_exchange (request : Request) {f : Response → GuardedTransfer σ β}
    {g : Response → Transfer σ β} (hf : ∀ r t, r.Fits → Agrees (f r) (g r) t) :
    Agrees (liftM (c.exchange request) >>= f) (c.exchange request >>= g) s :=
  agrees_bind (agrees_lift _ s) ((c.ends_exchange_fits request).mono (fun r t => hf r t)
    fun _ _ h => h)

theorem agrees_abandon (code : AbortCode) (e : Error) (s : Session σ) :
    Agrees (c.abandon code e : GuardedTransfer σ α) (c.abandon code e) s := by
  simp only [Agrees, ExceptT.run, abandon, bind, EStateM.bind, Functor.map, EStateM.map]
  cases c.abort code s <;> rfl

theorem agrees_unexpected (r : Response) (s : Session σ) :
    Agrees (c.unexpected r : GuardedTransfer σ α) (c.unexpected r) s :=
  agrees_then (agrees_lift (c.note _ _) s) fun _ => c.agrees_abandon _ _

theorem agrees_downloadExpedited {data : List UInt8} (fits : data.length ≤ 4) :
    Agrees (c.guardedDownloadExpedited data) (c.downloadExpedited data fits) s := by
  refine agrees_ok (expeditedRequest_eq c.target fits) (c.agrees_exchange _ fun r t _ => ?_)
  cases r with
  | confirmDownload target => exact agrees_lift (modify _) t
  | _ => exact c.agrees_unexpected _ t

theorem agrees_downloadSegments (data : List UInt8) (i count : Nat)
    (h : i + count = segmentCount data) (s : Session σ) :
    Agrees (c.guardedDownloadSegments data (segmentCount data) i count)
      (c.downloadSegments data i count) s := by
  induction count generalizing i s with
  | zero => rfl
  | succ count ih =>
    have hlast : (i == segmentCount data - 1) = (count == 0) := by
      rw [Bool.eq_iff_iff, beq_iff_eq, beq_iff_eq]
      omega
    refine agrees_get (agrees_ok (difference_eq (segmentCount_pos data))
      (agrees_ok (slice_segment_eq (start_le_length (by omega)))
        (agrees_ok (segmentRequest_eq s.toggle _ (segmentBytes_length_le data i)) ?_)))
    rw [hlast]
    have hrest : ∀ t, Agrees
        (do
          modify fun s => { s with transferred := s.transferred + (segmentBytes data i).length }
          c.guardedDownloadSegments data (segmentCount data) (i + 1) count)
        (do
          modify fun s => { s with transferred := s.transferred + (segmentBytes data i).length }
          c.downloadSegments data (i + 1) count) t := fun t =>
      agrees_then (agrees_lift (modify _) t) fun _ => ih (i + 1) (by omega)
    refine c.agrees_exchange _ fun r t _ => ?_
    cases r with
    | confirmDownloadSegment toggle =>
      exact agrees_then (agrees_lift (c.checkToggle toggle) t) fun _ => hrest
    | _ => exact agrees_then (c.agrees_unexpected _ t) fun _ => hrest

theorem agrees_downloadSegmented {data : List UInt8} (h : data.length < sizeLimit) :
    Agrees (c.guardedDownloadSegmented data) (c.downloadSegmented data) s := by
  refine agrees_then (agrees_lift (modify _) s) fun _ t =>
    agrees_ok (toWord_eq h) (c.agrees_exchange _ fun r u _ => ?_)
  cases r with
  | confirmDownload target =>
    exact agrees_then (c.agrees_downloadSegments data 0 _ (Nat.zero_add _) u) fun _ v =>
      agrees_lift c.checkSize v
  | _ => exact c.agrees_unexpected _ u

theorem agrees_uploadSegments (n : Nat) (s : Session σ) :
    Agrees (c.guardedUploadSegments n) (c.uploadSegments n) s := by
  induction n generalizing s with
  | zero => rfl
  | succ n ih =>
    refine agrees_get (c.agrees_exchange _ fun r t hr => ?_)
    cases r with
    | uploadSegment toggle unused last d =>
      refine agrees_then (agrees_lift (c.checkToggle toggle) t) fun _ u =>
        agrees_ok (difference_eq hr) (agrees_ok (slice_zero_eq (by simp)) ?_)
      refine agrees_then (agrees_lift (store _) u) fun _ v => ?_
      cases last with
      | true => exact agrees_pure () v
      | false => exact ih v
    | _ => exact c.agrees_unexpected _ t

theorem agrees_continueUpload {r : Response} (hr : r.Fits) :
    Agrees (c.guardedContinueUpload r) (c.continueUpload r) s := by
  cases r with
  | confirmUpload unused expedited sized target d =>
    cases expedited with
    | true =>
      refine agrees_then (agrees_lift (modify _) s) fun _ t => ?_
      cases sized with
      | true =>
        refine agrees_ok (difference_eq (Nat.le_succ_of_le hr)) ?_
        refine agrees_ok (slice_zero_eq (by simp)) ?_
        exact agrees_then (agrees_lift (store _) t) fun _ u => agrees_get (agrees_pure _ _)
      | false =>
        refine agrees_ok rfl (agrees_ok (slice_zero_eq (by simp)) ?_)
        exact agrees_then (agrees_lift (store _) t) fun _ u => agrees_get (agrees_pure _ _)
    | false =>
      refine agrees_then (agrees_lift (modify _) s) fun _ t => ?_
      refine agrees_then (c.agrees_uploadSegments _ t) fun _ u => ?_
      refine agrees_then (agrees_lift c.checkSize u) fun _ v => agrees_get (agrees_pure _ _)
  | _ => exact c.agrees_unexpected _ s

theorem agrees_upload : Agrees c.guardedUpload c.upload s :=
  c.agrees_exchange _ fun _ _ hr => c.agrees_continueUpload hr

theorem agrees_sendSegments {data : List UInt8} {start : Nat} {first length : UInt8}
    (hfirst : 1 ≤ first.toNat) (hle : first.toNat ≤ length.toNat) (h127 : length.toNat ≤ 127)
    (hblock : start + length.toNat ≤ segmentCount data) :
    Agrees (c.guardedSendSegments data start first length (segmentCount data))
      ((List.range' first.toNat (length.toNat + 1 - first.toNat)).forM
        (c.sendBlockSegment data start)) s := by
  refine agrees_ok (assert_eq (by omega)) (agrees_ok (assert_eq ⟨hfirst, hle, h127⟩) ?_)
  refine agrees_forM (fun n hn t => ?_) s
  rw [List.mem_range'_1] at hn
  have hbyte : n < 256 := by omega
  have hseqno : (UInt8.ofNat n).toNat = n := UInt8.toNat_ofNat_of_lt' hbyte
  refine agrees_ok (toByte_eq hbyte) (agrees_ok (difference_eq (by omega)) ?_)
  rw [hseqno]
  exact agrees_ok (segmentOfBlock_eq _ (by omega)) (agrees_lift (c.sendSegment _) t)

theorem agrees_downloadBlockFrom {data : List UInt8} {start : Nat} {first length : UInt8}
    (hfirst : 1 ≤ first.toNat) (hle : first.toNat ≤ length.toNat) (h127 : length.toNat ≤ 127)
    (hblock : start + length.toNat ≤ segmentCount data) (n : Nat) (s : Session σ) :
    Agrees (c.guardedDownloadBlockFrom data start length (segmentCount data) first n)
      (c.downloadBlockFrom data start length.toNat first.toNat n) s := by
  induction n generalizing first s with
  | zero => rfl
  | succ n ih =>
    have hlast : UInt8.ofNat length.toNat = length := UInt8.ofNat_toNat
    refine agrees_then (c.agrees_sendSegments hfirst hle h127 hblock) fun _ t => ?_
    refine agrees_ok (difference_eq (by omega)) (agrees_ok (segmentOfBlock_eq _ (by omega)) ?_)
    rw [sendBlockSegment, hlast]
    refine agrees_then (agrees_lift (c.await _) t) fun r u => ?_
    cases r with
    | confirmBlock seqno next =>
      show Agrees (if length < seqno then _ else if seqno = length then _ else _)
        (if length.toNat < seqno.toNat then _ else if seqno.toNat = length.toNat then _ else _) u
      by_cases hbeyond : length.toNat < seqno.toNat
      · rw [if_pos (UInt8.lt_iff_toNat_lt.mpr hbeyond), if_pos hbeyond]
        exact c.agrees_abandon _ _ u
      · rw [if_neg (mt UInt8.lt_iff_toNat_lt.mp hbeyond), if_neg hbeyond]
        by_cases hall : seqno = length
        · rw [if_pos hall, if_pos (congrArg UInt8.toNat hall)]
          exact agrees_lift (c.checkBlockSize next) u
        · have hmore : seqno.toNat ≠ length.toNat := mt UInt8.toNat_inj.mp hall
          have hsum : (seqno + 1).toNat = seqno.toNat + 1 := toNat_succ (by omega)
          rw [if_neg hall, if_neg hmore, ← hsum]
          exact agrees_then (agrees_lift (c.note _ _) u) fun _ v =>
            agrees_ok (byteSum_one_eq (by omega)) (ih (by omega) (by omega) v)
    | _ => exact c.agrees_unexpected _ u

theorem agrees_downloadBlocks {data : List UInt8} {blocks start : Nat}
    (h : segmentCount data ≤ start + blocks) (size : BlockSize) (s : Session σ) :
    Agrees (c.guardedDownloadBlocks data (segmentCount data) blocks start size)
      (c.downloadBlocks data start size) s := by
  -- Each block takes a segment at least, so there are blocks left as long as there are segments.
  induction blocks generalizing start size s with
  | zero =>
    rw [downloadBlocks, if_neg (by omega)]
    rw [guardedDownloadBlocks, assert_eq (by omega)]
    exact agrees_pure () s
  | succ blocks ih =>
    rw [downloadBlocks, guardedDownloadBlocks]
    by_cases hmore : start < segmentCount data
    · rw [if_pos hmore, if_pos hmore]
      have hpos := size.pos
      have hle := size.le
      generalize hlength : min size.value.toNat (segmentCount data - start) = length
      have h127 : length ≤ 127 := by omega
      have hlt : length < 256 := by omega
      have hbyte : (UInt8.ofNat length).toNat = length := UInt8.toNat_ofNat_of_lt' hlt
      have htext : toString (UInt8.ofNat length) = toString length := congrArg toString hbyte
      refine agrees_ok (difference_eq (by omega)) ?_
      rw [hlength]
      refine agrees_ok (toByte_eq hlt) ?_
      rw [hbyte, htext]
      refine agrees_then (agrees_lift (c.note _ _) s) fun _ t => ?_
      have hone : (1 : UInt8).toNat ≤ (UInt8.ofNat length).toNat := by
        show 1 ≤ _
        omega
      have hblock : Agrees
          (c.guardedDownloadBlockFrom data start (UInt8.ofNat length) (segmentCount data) 1
            c.patience)
          (c.downloadBlockFrom data start (UInt8.ofNat length).toNat 1 c.patience) t :=
        c.agrees_downloadBlockFrom (by decide) hone (by omega) (by omega) c.patience t
      rw [hbyte] at hblock
      refine agrees_then hblock fun next u => ?_
      exact agrees_then (agrees_lift (modify _) u) fun _ v => ih (by omega) next v
    · rw [if_neg hmore, if_neg hmore]
      exact agrees_pure () s

theorem agrees_downloadBlock {data : List UInt8} (h : data.length < sizeLimit) :
    Agrees (c.guardedDownloadBlock data) (c.downloadBlock data) s := by
  refine agrees_then (agrees_lift (modify _) s) fun _ t =>
    agrees_ok (toWord_eq h) (c.agrees_exchange _ fun r u _ => ?_)
  cases r with
  | confirmBlockDownload serverCrc target blockSize =>
    refine agrees_then (agrees_lift (c.checkBlockSize blockSize) u) fun size v => ?_
    refine agrees_then (c.agrees_downloadBlocks (by omega) size v) fun _ w => ?_
    have hunused := unused_le data
    refine agrees_ok (difference_eq (segmentCount_spec data).1)
      (agrees_ok (toByte_eq (by omega)) (agrees_ok (assert_eq ?_) ?_))
    · show UInt8.toNat _ ≤ 7
      rw [toNat_unused]
      exact hunused
    · refine c.agrees_exchange _ fun r x _ => ?_
      cases r with
      | confirmBlockDownloadEnd => exact agrees_lift c.checkSize x
      | _ => exact c.agrees_unexpected _ x
  | _ => exact c.agrees_unexpected _ u

/-- The last number of a block that has come in order fits the block. -/
def Fits (s : Session σ) : Prop := s.seqno.toNat ≤ c.config.blockSize.toNat

theorem keeps_fits {y : Transfer σ α}
    (hy : ∀ d, Keeps (fun s => s.tally = d) (fun _ _ => True) y) :
    Keeps c.Fits (fun _ _ => True) y := by
  intro s hs
  refine (hy s.tally s rfl).mono (fun _ t ht => ?_) fun _ _ h => h
  have hseqno : t.seqno = s.seqno := congrArg Tally.seqno ht
  rw [Fits, hseqno]
  exact hs

theorem ends_readSegment_fits (m : Message) (hs : c.Fits s) :
    Ends (c.readSegment m) s
      (fun segment t => c.Fits t ∧ segment.seqno.toNat ≤ c.config.blockSize.toNat)
      fun _ _ => True := by
  rw [readSegment]
  split
  · exact (ends_malformed_of_preserves c.link.preserves_true trivial _).mono (fun _ _ h => h.elim)
      fun _ _ _ => trivial
  · split
    · exact (ends_abandon_of_preserves c.link.preserves_true trivial _ _).mono
        (fun _ _ h => h.elim) fun _ _ _ => trivial
    · rename_i hin
      exact ⟨hs, Nat.le_of_not_lt fun h => hin (.inr h)⟩

theorem keeps_takeSegment_fits {segment : BlockSegment}
    (h : segment.seqno.toNat ≤ c.config.blockSize.toNat) :
    Keeps c.Fits (fun _ _ => True) (c.takeSegment segment) := by
  intro s hs
  rw [takeSegment, ends_bind, ends_get]
  dsimp only
  split
  · exact h
  · exact hs

theorem keeps_acknowledge_fits : Keeps c.Fits (fun _ _ => True) c.acknowledge := by
  refine keeps_get fun s => keeps_bind (fun _ ht => ht) fun _ =>
    keeps_bind (c.keeps_fits fun _ => keeps_sendMessage_tally _) fun _ => ?_
  dsimp only
  split
  · exact keeps_bind (keeps_modify fun _ _ => Nat.zero_le _) fun _ => keeps_pure _
  · exact keeps_pure _

theorem agrees_takeSegment (segment : BlockSegment) (hs : s.seqno.toNat ≤ 127) :
    Agrees (c.guardedTakeSegment segment) (c.takeSegment segment) s := by
  have hsum : (s.seqno + 1).toNat = s.seqno.toNat + 1 := toNat_succ (by omega)
  have htext : toString (s.seqno + 1) = toString (s.seqno.toNat + 1) := congrArg toString hsum
  refine agrees_get (agrees_ok (byteSum_one_eq (by omega)) ?_)
  by_cases hnext : segment.seqno = s.seqno + 1
  · have hnext' : segment.seqno.toNat = s.seqno.toNat + 1 := by rw [hnext, hsum]
    rw [if_pos hnext]
    dsimp only
    rw [if_pos hnext']
    refine agrees_then (agrees_lift c.restartDeadline s) fun _ t => ?_
    refine agrees_then (agrees_lift (store _) t) fun _ u => ?_
    exact agrees_then (agrees_lift (modify _) u) fun _ v => agrees_pure true v
  · have hnext' : segment.seqno.toNat ≠ s.seqno.toNat + 1 := by
      rw [← hsum]
      exact mt UInt8.toNat_inj.mp hnext
    rw [if_neg hnext, htext]
    dsimp only
    rw [if_neg hnext']
    exact agrees_then (agrees_lift (c.note _ _) s) fun _ t => agrees_pure false t

theorem agrees_receiveBlocks (hb : c.config.blockSize.toNat ≤ 127) (request : Request)
    (attempts : UInt32) (n : Nat) (s : Session σ) (hs : c.Fits s) :
    Agrees (c.guardedReceiveBlocks request attempts n) (c.receiveBlocks request attempts n) s := by
  induction n generalizing request attempts s with
  | zero => rfl
  | succ n ih =>
    refine agrees_look (agrees_ok (assert_eq ⟨hs, hb⟩) ?_)
    refine agrees_keeps (agrees_lift c.nextMessage s)
      (c.keeps_fits fun _ => keeps_nextMessage_tally) hs fun received t ht => ?_
    cases received with
    | none =>
      refine agrees_keeps (agrees_lift (c.takeRetry attempts) t)
        (c.keeps_fits fun _ => keeps_takeRetry_tally _) ht fun _ u hu => agrees_get ?_
      exact agrees_keeps (agrees_lift (c.send _) u)
        (c.keeps_fits fun _ => keeps_sendMessage_tally _) hu fun _ v hv => ih _ _ v hv
    | some m =>
      dsimp only
      split
      · exact agrees_keeps (agrees_lift (c.readResponse m) t)
          (c.keeps_fits fun _ => keeps_readResponse_tally m) ht fun _ u hu => ih _ _ u hu
      · refine agrees_bind (agrees_lift (c.readSegment m) t)
          ((c.ends_readSegment_fits m ht).mono (fun segment u hu => ?_) fun _ _ h => h)
        refine agrees_keeps (c.agrees_takeSegment segment (Nat.le_trans hu.1 hb))
          (c.keeps_takeSegment_fits hu.2) hu.1 fun inOrder v hv => ?_
        split
        · exact agrees_pure () v
        · split
          · exact agrees_keeps (agrees_lift c.acknowledge v) c.keeps_acknowledge_fits hv
              fun _ w hw => ih _ _ w hw
          · exact ih _ _ v hv

theorem agrees_uploadBlocks (hb : c.config.blockSize.toNat ≤ 127) (serverCrc : Bool) :
    Agrees (c.guardedUploadBlocks serverCrc) (c.uploadBlocks serverCrc) s := by
  refine agrees_then (agrees_lift (c.send _) s) fun _ t => ?_
  refine agrees_bind (agrees_lift (modify _) t) ?_
  refine agrees_then (c.agrees_receiveBlocks hb _ _ _ _ (Nat.zero_le _)) fun _ u => ?_
  refine agrees_get (c.agrees_exchange _ fun r v hr => ?_)
  cases r with
  | endBlockUpload unused expected =>
    refine agrees_ok (assert_eq hr) (agrees_then (agrees_lift (trim _) v) fun _ w => ?_)
    have hrest : ∀ w, Agrees
        (do
          c.checkSize
          c.send .confirmBlockUploadEnd
          return (← get).buffer : GuardedTransfer σ (List UInt8))
        (do
          c.checkSize
          c.send .confirmBlockUploadEnd
          return (← get).buffer) w := fun w =>
      agrees_then (agrees_lift c.checkSize w) fun _ x =>
        agrees_then (agrees_lift (c.send _) x) fun _ y => agrees_get (agrees_pure _ y)
    refine agrees_get ?_
    dsimp only
    split
    · exact agrees_then (c.agrees_abandon _ _ w) fun _ => hrest
    · exact hrest w
  | _ => exact c.agrees_unexpected _ v

theorem agrees_uploadBlock (hb : c.config.blockSize.toNat ≤ 127) :
    Agrees c.guardedUploadBlock c.uploadBlock s := by
  refine agrees_ok (toByte_eq (Nat.lt_succ_of_le (Nat.min_le_right ..)))
    (c.agrees_exchange _ fun r t hr => ?_)
  cases r with
  | confirmBlockUpload serverCrc sized target size =>
    dsimp only
    split
    · exact agrees_then (agrees_lift (modify _) t) fun _ u => c.agrees_uploadBlocks hb serverCrc
    · exact c.agrees_uploadBlocks hb serverCrc
  | confirmUpload unused expedited sized target d =>
    exact agrees_then (agrees_lift (c.note _ _) t) fun _ u => c.agrees_continueUpload hr
  | _ => exact c.agrees_unexpected _ t

theorem guardedRun_eq (mode : Mode) {x : GuardedTransfer σ α} {y : Transfer σ α}
    (h : ∀ s, Agrees x y s) (w : σ) : c.guardedRun mode x w = .ok (c.run mode y w) := by
  rw [guardedRun, run]
  cases c.prepare mode (c.session mode (c.link.resume w)) with
  | error e s => rfl
  | ok u s =>
    have hwork : x.run s = EStateM.map Except.ok y s := h s
    dsimp only
    rw [hwork, EStateM.map]
    cases y s <;> rfl

end Call

variable (client : Client σ) (node : UInt8) (target : Address) (w : σ)

theorem Config.Valid.blockSize_le {config : Config} (h : config.Valid) :
    config.blockSize.toNat ≤ 127 := by
  unfold Config.Valid Config.fault? at h
  split at h
  · cases h
  · rename_i hin
    exact Nat.le_of_not_lt fun hlt => hin (.inr hlt)

theorem guardedTransfer_eq (direction : Direction) (mode : Mode) {x : Call σ → GuardedTransfer σ α}
    {y : Call σ → Transfer σ α}
    (h : ∀ c : Call σ, c.config.blockSize.toNat ≤ 127 → ∀ s, Agrees (x c) (y c) s) :
    client.guardedTransfer node target direction mode x w
      = .ok (client.transfer node target direction mode y w) := by
  rw [guardedTransfer, transfer]
  cases NodeId.ofByte? node with
  | none => rfl
  | some node => exact Call.guardedRun_eq _ mode (h _ client.valid.blockSize_le) w

theorem guardedUploadSegmented_eq : client.guardedUploadSegmented node target w
    = .ok (client.uploadSegmented node target w) :=
  client.guardedTransfer_eq node target w _ _ fun c _ _ => c.agrees_upload

theorem guardedUploadBlock_eq : client.guardedUploadBlock node target w
    = .ok (client.uploadBlock node target w) :=
  client.guardedTransfer_eq node target w _ _ fun c hb _ => c.agrees_uploadBlock hb

theorem guardedUpload_eq : client.guardedUpload node target w
    = .ok (client.upload node target w) := by
  rw [guardedUpload, upload]
  cases client.config.uploadMode with
  | block => exact client.guardedUploadBlock_eq node target w
  | _ => exact client.guardedUploadSegmented_eq node target w

theorem guardedUploadNumber_eq : client.guardedUploadNumber node target w
    = .ok (client.uploadNumber node target w) := by
  rw [guardedUploadNumber, guardedUploadSegmented_eq, uploadNumber, bind_ok]
  obtain ⟨outcome, v⟩ := client.uploadSegmented node target w
  cases outcome with
  | error e => rfl
  | ok data =>
    dsimp only
    split
    · rename_i hfits
      rw [copy_eq hfits]
      rfl
    · rfl

theorem guardedDownloadExpedited_eq (data : List UInt8) :
    client.guardedDownloadExpedited node target data w
      = .ok (client.downloadExpedited node target data w) := by
  rw [guardedDownloadExpedited, downloadExpedited]
  split
  · exact client.guardedTransfer_eq node target w _ _ fun c _ _ => c.agrees_downloadExpedited _
  · rfl

theorem guardedDownloadSegmented_eq (data : List UInt8) :
    client.guardedDownloadSegmented node target data w
      = .ok (client.downloadSegmented node target data w) := by
  rw [guardedDownloadSegmented, downloadSegmented]
  split
  · rename_i hsize
    exact client.guardedTransfer_eq node target w _ _ fun c _ _ => c.agrees_downloadSegmented hsize
  · rfl

theorem guardedDownloadBlock_eq (data : List UInt8) :
    client.guardedDownloadBlock node target data w
      = .ok (client.downloadBlock node target data w) := by
  rw [guardedDownloadBlock, downloadBlock]
  split
  · rename_i hsize
    exact client.guardedTransfer_eq node target w _ _ fun c _ _ => c.agrees_downloadBlock hsize
  · rfl

theorem guardedDownload_eq (data : List UInt8) :
    client.guardedDownload node target data w = .ok (client.download node target data w) := by
  rw [guardedDownload, download]
  cases client.config.downloadMode data.length with
  | expedited => exact client.guardedDownloadExpedited_eq node target w data
  | segmented => exact client.guardedDownloadSegmented_eq node target w data
  | block => exact client.guardedDownloadBlock_eq node target w data

theorem guardedDownloadNumber_eq (value : UInt32) (size : Nat) :
    client.guardedDownloadNumber node target value size w
      = .ok (client.downloadNumber node target value size w) := by
  rw [guardedDownloadNumber, downloadNumber]
  split
  · rename_i hsize
    rw [slice_zero_eq (by simpa using hsize.2)]
    exact client.guardedDownloadExpedited_eq node target w _
  · rfl

/-- Whatever an operation is asked for and whatever the other side sends, no operation runs into a
trap, and the guards make no difference. -/
theorem perform_trap_free (op : Operation) :
    client.guardedPerform node target op w = .ok (client.perform node target op w) := by
  have hmap : ∀ {α : Type} {x : Guarded (Outcome σ α)} {o : Outcome σ α} {f : α → Value},
      x = .ok o → (Outcome.map f ·) <$> x = .ok (Outcome.map f o) := by
    rintro α x o f rfl
    rfl
  cases op with
  | upload => exact hmap (client.guardedUpload_eq node target w)
  | uploadSegmented => exact hmap (client.guardedUploadSegmented_eq node target w)
  | uploadBlock => exact hmap (client.guardedUploadBlock_eq node target w)
  | uploadNumber => exact hmap (client.guardedUploadNumber_eq node target w)
  | download data => exact hmap (client.guardedDownload_eq node target w data)
  | downloadExpedited data => exact hmap (client.guardedDownloadExpedited_eq node target w data)
  | downloadSegmented data => exact hmap (client.guardedDownloadSegmented_eq node target w data)
  | downloadBlock data => exact hmap (client.guardedDownloadBlock_eq node target w data)
  | downloadNumber value size =>
    exact hmap (client.guardedDownloadNumber_eq node target w value size)

end Client

end Canopen
