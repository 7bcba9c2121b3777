import Canopen.Proofs.BlockDownload
import Canopen.Proofs.Prompt

set_option autoImplicit false

namespace Canopen.Client.Call.Prompt

open Sdo
open Transfer

variable {σ : Type} {c : Call σ} {room : Nat} {V : σ → Server → List Can.Message → Prop}
variable {srv : Server} {state : Server.State} {s : Session σ} {data : List UInt8}
variable (h : c.Prompt room V) (hc : c.Faces srv)
include h hc

theorem ends_downloadExpedited (hs : c.Sees V s srv state []) (hst : ∀ t, state ≠ .downloadBlock t)
    (fits : data.length ≤ 4) (h0 : 1 ≤ data.length) :
    Ends (c.downloadExpedited data fits) s
      (fun _ t => c.Sees V t (srv.store c.target data) .idle []) fun _ _ => False := by
  have hregular := Request.regular_expedited c.target fits h0
  have hanswer : srv.Responds state ((Request.expedited c.target data fits).message c.node)
      [(Response.confirmDownload c.target).message c.node] (srv.store c.target data) .idle := by
    refine hc.responds hst hregular fun k => ?_
    rw [Server.proceed_expedited hc.faults fits, hc.node]
  rw [downloadExpedited, ends_bind]
  exact h.ends_exchange hs hanswer (.of_plain trivial) fun w d hw => hw.of_eq rfl rfl

theorem ends_downloadSegment {i count : Nat} {buffer : List UInt8}
    (hs : c.Sees V s srv (.downloadSegmented c.target s.toggle i (some data.length) buffer) [])
    (hl : (count == 0) = true → data.length = (buffer ++ segmentBytes data i).length)
    {Q : Unit → Session σ → Prop} {E : Stop → Session σ → Prop}
    (goes : ∀ w d,
      let t : Session σ :=
        { s with
          world := w, deadline := d, toggle := !s.toggle
          transferred := s.transferred + (segmentBytes data i).length }
      (if count == 0 then
        c.Sees V t (srv.store c.target (buffer ++ segmentBytes data i)) .idle []
      else
        c.Sees V t srv (.downloadSegmented c.target t.toggle (i + 1) (some data.length)
          (buffer ++ segmentBytes data i)) []) →
      Ends (c.downloadSegments data (i + 1) count) t Q E) :
    Ends (c.downloadSegments data i (count + 1)) s Q E := by
  have hfits := segmentBytes_length_le data i
  have hregular := Request.regular_segment s.toggle (count == 0) hfits
  have hproceed : ∀ k, (srv.during
      (.downloadSegmented c.target s.toggle i (some data.length) buffer) k).proceed
      (.segment s.toggle (count == 0) (segmentBytes data i) hfits) = _ :=
    fun k => Server.proceed_segment hc.faults hfits hl
  rw [← hc.node] at hproceed
  rw [downloadSegments, ends_bind, ends_get, ends_bind]
  cases hlast : count == 0 with
  | true =>
    rw [hlast] at hproceed hregular
    refine h.ends_exchange hs (hc.responds (by simp) hregular hproceed) (.of_plain trivial)
      fun w d hw => ?_
    simp only [ends_bind, checkToggle, ends_get, if_true, ends_modify]
    refine goes w d ?_
    rw [if_pos hlast]
    exact hw.of_eq rfl rfl
  | false =>
    rw [hlast] at hproceed hregular
    refine h.ends_exchange hs (hc.responds (by simp) hregular hproceed) (.of_plain trivial)
      fun w d hw => ?_
    simp only [ends_bind, checkToggle, ends_get, if_true, ends_modify]
    refine goes w d ?_
    rw [if_neg (by simp [hlast])]
    exact hw.of_eq rfl rfl

theorem ends_downloadSegments {i count : Nat} (hi : i + (count + 1) = segmentCount data)
    (hs : c.Sees V s srv (.downloadSegmented c.target s.toggle i (some data.length)
      (data.take (i * segmentSize))) [])
    (hl : s.transferred = (data.take (i * segmentSize)).length) :
    Ends (c.downloadSegments data i (count + 1)) s
      (fun _ t => c.Sees V t (srv.store c.target data) .idle [] ∧ t.announced = s.announced ∧
        t.transferred = data.length)
      fun _ _ => False := by
  induction count generalizing i s with
  | zero =>
    have hall : data.take (i * segmentSize) ++ segmentBytes data i = data := by
      rw [take_append_segmentBytes, hi, take_segmentCount]
    refine h.ends_downloadSegment hc hs (fun _ => by rw [hall]) fun w d hw => ?_
    rw [hall] at hw
    refine ⟨hw, rfl, ?_⟩
    show s.transferred + _ = _
    rw [hl, length_take_add_length_segmentBytes, hi, take_segmentCount]
  | succ count ih =>
    refine h.ends_downloadSegment hc hs (fun h0 => absurd h0 (by simp)) fun w d hw => ?_
    rw [take_append_segmentBytes] at hw
    refine ih (by omega) hw ?_
    show s.transferred + _ = _
    rw [hl, length_take_add_length_segmentBytes]

theorem ends_downloadSegmented (hs : c.Sees V s srv state []) (hst : ∀ t, state ≠ .downloadBlock t)
    (hd : data.length < sizeLimit) (ht : s.toggle = false) (hl : s.transferred = 0) :
    Ends (c.downloadSegmented data) s
      (fun _ t => c.Sees V t (srv.store c.target data) .idle []) fun _ _ => False := by
  have hsize : (UInt32.ofNat data.length).toNat = data.length := UInt32.toNat_ofNat_of_lt hd
  have hregular := Request.regular_announce c.target (UInt32.ofNat data.length)
  have hanswer : srv.Responds state
      ((Request.announce c.target (some (UInt32.ofNat data.length))).message c.node)
      [(Response.confirmDownload c.target).message c.node] srv
      (.downloadSegmented c.target false 0 (some data.length) []) := by
    refine hc.responds hst hregular fun k => ?_
    rw [Server.proceed_announce, hsize, hc.node]
  obtain ⟨count, hcount⟩ : ∃ count, segmentCount data = count + 1 :=
    Nat.exists_eq_add_of_le' (segmentCount_pos data)
  rw [downloadSegmented, ends_bind, ends_modify, ends_bind]
  refine h.ends_exchange (s := { s with announced := some data.length }) (hs.of_eq rfl rfl) hanswer
    (.of_plain trivial) fun w d hw => ?_
  dsimp only
  rw [ends_bind, hcount]
  refine (h.ends_downloadSegments hc (by omega) ?_ (by simp [hl])).mono ?_ fun _ _ he => he
  · rw [Nat.zero_mul, List.take_zero]
    show c.Sees V _ srv (.downloadSegmented c.target s.toggle 0 (some data.length) []) []
    rw [ht]
    exact hw
  · intro _ t hq
    obtain ⟨hw', ha, hlen⟩ := hq
    rw [ends_checkSize (.inr (.inr (by rw [ha, hlen])))]
    exact hw'

section
variable {crc : Bool} {start length j : Nat}

theorem ends_sendBlockSegments (hb : srv.blockSize.toNat ≤ 127)
    (hl : length = min srv.blockSize.toNat (segmentCount data - start)) {n : Nat}
    (hj : j + n < length)
    (hs : c.Sees V s srv (.downloadBlock (.upTo c.target crc data start j)) [])
    {Q : Unit → Session σ → Prop} {E : Stop → Session σ → Prop}
    (goes : ∀ w d, c.Sees V { s with world := w, deadline := d } srv
        (.downloadBlock (.upTo c.target crc data start (j + n))) [] →
      Q () { s with world := w, deadline := d }) :
    Ends ((List.range' (j + 1) n).forM (c.sendBlockSegment data start)) s Q E := by
  induction n generalizing j s with
  | zero => exact goes s.world s.deadline hs
  | succ n ih =>
    have hanswer : srv.Responds (.downloadBlock (.upTo c.target crc data start j))
        ((blockSegment data (start + (j + 1) - 1) (UInt8.ofNat (j + 1))).message .client c.node) []
        srv (.downloadBlock (.upTo c.target crc data start (j + 1))) := by
      intro k
      refine ⟨[], ?_⟩
      rw [hc.node, Server.handle_inner_segment hc.faults hb hl (by omega)
        (by omega) (by omega), if_pos rfl]
    have hsum : j + (n + 1) = j + 1 + n := by omega
    rw [List.range'_succ, List.forM_eq_forM, List.forM_cons, ends_bind]
    refine h.ends_sendMessage hs (BlockSegment.message_client_id _ c.node) hanswer (Nat.zero_le _)
      fun w d hw => ?_
    rw [List.take_nil] at hw
    rw [hsum] at goes
    exact ih (by omega) hw goes

theorem ends_downloadBlockFrom {size : BlockSize} (hb : srv.blockSize = size.value)
    (hl : length = min size.value.toNat (segmentCount data - start)) (hlength : 0 < length)
    (hs : c.Sees V s srv (.downloadBlock (.upTo c.target crc data start 0)) [])
    {Q : BlockSize → Session σ → Prop} {E : Stop → Session σ → Prop}
    (goes : ∀ w d, c.Sees V { s with world := w, deadline := d } srv
        (.behindBlock c.target crc data start length) [] →
      Q size { s with world := w, deadline := d }) :
    Ends (c.downloadBlockFrom data start length 1 c.patience) s Q E := by
  have hle := size.le
  have hb' : srv.blockSize.toNat = size.value.toNat := congrArg UInt8.toNat hb
  have hpatient := h.patient
  have hroomy := h.roomy
  have hseqno : (UInt8.ofNat length).toNat = length :=
    UInt8.toNat_ofNat_of_lt (show _ < 256 by omega)
  obtain ⟨n, hn⟩ : ∃ n, c.patience = n + 1 := Nat.exists_eq_add_of_le' (by omega)
  obtain ⟨j, rfl⟩ : ∃ j, length = j + 1 := Nat.exists_eq_add_of_le' hlength
  have hanswer : srv.Responds (.downloadBlock (.upTo c.target crc data start j))
      ((blockSegment data (start + (j + 1) - 1) (UInt8.ofNat (j + 1))).message .client c.node)
      [(Response.confirmBlock (UInt8.ofNat (j + 1)) srv.blockSize).message c.node] srv
      (.behindBlock c.target crc data start (j + 1)) := by
    intro k
    refine ⟨[], ?_⟩
    rw [hc.node, Server.handle_last_segment hc.faults (by omega) (by omega)
      (by omega)]
    simp only [if_true]
  rw [hn, downloadBlockFrom, Traffic.forM_behind (j := 0) hlength]
  simp only [ends_bind]
  refine h.ends_sendBlockSegments hc (by omega) (by omega)
    (show 0 + (j + 1 - 1 - 0) < j + 1 by omega) hs fun w d hw => ?_
  refine h.ends_sendMessage (by simpa using hw) (BlockSegment.message_client_id _ c.node) hanswer
    (by simp) fun w' d' hw' => ?_
  rw [List.take_of_length_le (by simp; omega)] at hw'
  refine h.ends_await hw' (.of_plain trivial) fun w'' hw'' => ?_
  simp only [hseqno, Nat.lt_irrefl, if_false, if_true, hb, ends_checkBlockSize]
  exact goes w'' d' hw''

theorem ends_downloadBlocks {size : BlockSize} (hb : srv.blockSize = size.value)
    (hlt : start < segmentCount data)
    (hs : c.Sees V s srv (.downloadBlock (.upTo c.target crc data start 0)) []) :
    Ends (c.downloadBlocks data start size) s
      (fun _ t => (∃ i j, i + j = segmentCount data ∧
          c.Sees V t srv (.endDownloadBlock (.upTo c.target crc data i j)) []) ∧
        t.announced = s.announced ∧ t.transferred = data.length)
      fun _ _ => False := by
  -- On the number of segments left.
  induction hk : segmentCount data - start using Nat.strongRecOn generalizing s start with
  | ind k ih =>
    let length := min size.value.toNat (segmentCount data - start)
    have hpos := size.pos
    have hlength : 0 < length := by omega
    refine ends_downloadBlocks_next hlt rfl fun _ => h.ends_note hs fun w hw => ?_
    refine h.ends_downloadBlockFrom hc hb rfl hlength hw fun w' d' hw' => ?_
    by_cases hend : start + length = segmentCount data
    · have htransferred : min ((start + length) * segmentSize) data.length = data.length := by
        rw [hend, min_segmentCount]
      rw [Server.State.behindBlock, if_pos hend] at hw'
      rw [ends_downloadBlocks_behind (Nat.le_of_eq hend.symm)]
      exact ⟨⟨start, length, hend, hw'.of_eq rfl rfl⟩, rfl, htransferred⟩
    · rw [Server.State.behindBlock, if_neg hend] at hw'
      exact ih (segmentCount data - (start + length)) (by omega) (by omega) (hw'.of_eq rfl rfl) rfl

omit h in
theorem responds_initiateBlockDownload (hst : ∀ t, state ≠ .downloadBlock t) (size : UInt32) :
    srv.Responds state
      ((Request.initiateBlockDownload c.config.useCrc true c.target size).message c.node)
      [(Response.confirmBlockDownload srv.crc c.target srv.blockSize).message c.node] srv
      (.downloadBlock
        { target := c.target, size := some size.toNat, crc := c.config.useCrc && srv.crc
          seqno := 0, buffer := [] }) := by
  have hregular : (Request.initiateBlockDownload c.config.useCrc true c.target size).Regular :=
    .of_plain trivial
  refine hc.responds hst hregular fun k => ?_
  rw [Server.proceed_initiateBlockDownload, hc.node]

theorem ends_downloadBlock {size : BlockSize} (hb : srv.blockSize = size.value)
    (hs : c.Sees V s srv state []) (hst : ∀ t, state ≠ .downloadBlock t)
    (hd : data.length < sizeLimit) :
    Ends (c.downloadBlock data) s
      (fun _ t => c.Sees V t (srv.store c.target data) .idle []) fun _ _ => False := by
  have hsize : (UInt32.ofNat data.length).toNat = data.length := UInt32.toNat_ofNat_of_lt hd
  let unused := segmentCount data * segmentSize - data.length
  let checksum := if srv.crc && c.config.useCrc then Canopen.crc data else 0
  have hstart := responds_initiateBlockDownload hc hst (UInt32.ofNat data.length)
  rw [hsize] at hstart
  rw [downloadBlock, ends_bind, ends_modify, ends_bind]
  refine h.ends_exchange (s := { s with announced := some data.length }) (hs.of_eq rfl rfl) hstart
    (.of_plain trivial) fun w d hw => ?_
  simp only [hb, ends_bind, ends_checkBlockSize]
  refine (h.ends_downloadBlocks hc hb (segmentCount_pos data) hw).mono ?_ fun _ _ he => he
  intro _ t hq
  obtain ⟨⟨i, j, hij, hw'⟩, hann, hlen⟩ := hq
  have hend : srv.Responds
      (.endDownloadBlock (.upTo c.target (c.config.useCrc && srv.crc) data i j))
      ((Request.endBlockDownload (UInt8.ofNat unused) checksum).message c.node)
      [Response.confirmBlockDownloadEnd.message c.node] (srv.store c.target data) .idle := by
    refine hc.responds (by simp) (Traffic.regular_endBlockDownload data checksum) fun k => ?_
    rw [hc.node]
    exact Server.proceed_endBlockDownload_upTo hij c.config.useCrc
  refine h.ends_exchange hw' hend (.of_plain trivial) fun w'' d'' hw'' => ?_
  rw [ends_checkSize (.inr (.inr (by rw [hann, hlen])))]
  exact hw''

theorem ends_downloadBlock_invalid (hb : BlockSize.ofByte? srv.blockSize = none)
    (hs : c.Sees V s srv state []) (hst : ∀ t, state ≠ .downloadBlock t) :
    Ends (c.downloadBlock data) s (fun _ _ => False)
      (fun e t => e = .failed (.invalidBlockSize srv.blockSize) ∧
        ∃ last, c.Sees V t { srv with lastAbort := last } .idle []) := by
  have hstart := responds_initiateBlockDownload hc hst (UInt32.ofNat data.length)
  rw [downloadBlock, ends_bind, ends_modify, ends_bind]
  refine h.ends_exchange (s := { s with announced := some data.length }) (hs.of_eq rfl rfl) hstart
    (.of_plain trivial) fun w d hw => ?_
  simp only [checkBlockSize, hb, ends_bind]
  exact h.ends_abandon hc hw fun w' d' hw' => ⟨rfl, _, hw'⟩

end

end Canopen.Client.Call.Prompt
