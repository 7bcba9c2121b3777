import Canopen.Client
import Canopen.Proofs.Exchange
import Canopen.Proofs.Traffic

set_option autoImplicit false

namespace Canopen.Client.Call

open Can (Message)
open Sdo
open Transfer

variable {lost : Nat → Bool} {c : Call Line} {s : Session Line}
variable {srv : Server} {state : Server.State} {switch : Bool}

theorem ends_downloadExpedited (h : c.Setting lost srv switch) (hs : s.world.Rests srv state)
    (hst : ∀ t, state ≠ .downloadBlock t) {data : List UInt8} (fits : data.length ≤ 4)
    (h0 : 1 ≤ data.length) :
    Ends (c.downloadExpedited data fits) s
      (fun _ t => s.Reached lost (srv.store c.target data) .idle
        (Traffic.expeditedDownload c.node c.target data fits) t)
      (s.TimedOut lost srv.objects) := by
  rw [downloadExpedited]
  simp only [ends_bind]
  refine ends_exchange h hs hst (Request.regular_expedited c.target fits h0)
    (fun k => Server.proceed_expedited h.faults fits) (.of_plain trivial) ?_
    fun e t he => he
  intro w n d ht
  exact ht

theorem ends_downloadSegment (h : c.Setting lost srv switch) {data buffer : List UInt8}
    {i count : Nat} (hs : s.world.Rests srv
      (.downloadSegmented c.target s.toggle i (some data.length) buffer))
    (hl : (count == 0) = true → data.length = (buffer ++ segmentBytes data i).length)
    {Q : Unit → Session Line → Prop} {E : Stop → Session Line → Prop}
    (goes : ∀ w n d,
      s.Reached lost
        (if count == 0 then srv.store c.target (buffer ++ segmentBytes data i) else srv)
        (if count == 0 then .idle else
          .downloadSegmented c.target (!s.toggle) (i + 1) (some data.length)
            (buffer ++ segmentBytes data i))
        [(Request.segment s.toggle (count == 0) (segmentBytes data i)
          (segmentBytes_length_le data i)).message c.node]
        { s with world := w, retries := n, deadline := d } →
      Ends (c.downloadSegments data (i + 1) count)
        { s with
          world := w, retries := n, deadline := d, toggle := !s.toggle
          transferred := s.transferred + (segmentBytes data i).length } Q E)
    (expired : ∀ e t, s.TimedOut lost srv.objects e t → E e t) :
    Ends (c.downloadSegments data i (count + 1)) s Q E := by
  have hfits := segmentBytes_length_le data i
  have hanswer : ∀ k, (srv.during
        (.downloadSegmented c.target s.toggle i (some data.length) buffer) k).proceed
        (.segment s.toggle (count == 0) (segmentBytes data i) hfits) =
      { frames := [(Response.confirmDownloadSegment s.toggle).message srv.node]
        device := (if count == 0 then srv.store c.target (buffer ++ segmentBytes data i)
          else srv).during
            (if count == 0 then .idle else .downloadSegmented c.target (!s.toggle) (i + 1)
              (some data.length) (buffer ++ segmentBytes data i)) k } := by
    intro k
    rw [Server.proceed_segment h.faults hfits hl]
    cases count == 0 <;> rfl
  rw [downloadSegments]
  simp only [ends_bind, ends_get]
  refine ends_exchange h hs (by simp) (Request.regular_segment s.toggle _ hfits)
    hanswer (.of_plain trivial) (fun w n d hr => ?_) expired
  simp only [ends_bind, checkToggle, ends_get, if_true, ends_modify]
  exact goes w n d hr

theorem ends_downloadSegments (h : c.Setting lost srv switch) {data : List UInt8} {i count : Nat}
    (hc : i + (count + 1) = segmentCount data) (ht : s.toggle = decide (i % 2 = 1))
    (hs : s.world.Rests srv (.downloadSegmented c.target s.toggle i (some data.length)
      (data.take (i * segmentSize))))
    (hl : s.transferred = (data.take (i * segmentSize)).length) :
    Ends (c.downloadSegments data i (count + 1)) s
      (fun _ t => s.Reached lost (srv.store c.target data) .idle
        (Traffic.downloadSegments c.node data i (count + 1)) t ∧
        t.announced = s.announced ∧ t.transferred = data.length)
      (s.TimedOut lost srv.objects) := by
  -- On the number of segments left.
  induction count generalizing i s with
  | zero =>
    have hall : data.take (i * segmentSize) ++ segmentBytes data i = data := by
      rw [take_append_segmentBytes, hc, take_segmentCount]
    refine ends_downloadSegment h hs (fun _ => by rw [hall]) (fun w n d hr => ?_)
      fun e t he => he
    have hlast : decide (i + 1 = segmentCount data) = true := decide_eq_true hc
    rw [hall] at hr
    refine ⟨?_, rfl, ?_⟩
    · rw [Traffic.downloadSegments_succ, hlast, ← ht]
      exact hr
    · show s.transferred + _ = _
      rw [hl, length_take_add_length_segmentBytes, hc, take_segmentCount]
  | succ count ih =>
    refine ends_downloadSegment h hs (fun h0 => absurd h0 (by simp)) (fun w n d hr => ?_)
      fun e t he => he
    rw [take_append_segmentBytes] at hr
    have hlast : decide (i + 1 = segmentCount data) = false := decide_eq_false (by omega)
    have ho : (!s.toggle) = decide ((i + 1) % 2 = 1) := by
      rw [ht, odd_succ]
    have htl : s.transferred + (segmentBytes data i).length
        = (data.take ((i + 1) * segmentSize)).length := by
      rw [hl, length_take_add_length_segmentBytes]
    refine Ends.after (ih (by omega) ho hr.2 htl) hr.1 ?_
    intro _ t hq
    obtain ⟨hr', ha, hlen⟩ := hq
    rw [Traffic.downloadSegments_succ, hlast, ← ht]
    exact ⟨hr'.trans hr.1, ha, hlen⟩

theorem ends_downloadSegmented (h : c.Setting lost srv switch) (hs : s.world.Rests srv state)
    (hst : ∀ t, state ≠ .downloadBlock t) {data : List UInt8} (hd : data.length < sizeLimit)
    (ht : s.toggle = false) (hl : s.transferred = 0) :
    Ends (c.downloadSegmented data) s
      (fun _ t => s.Reached lost (srv.store c.target data) .idle
        (Traffic.segmentedDownload c.node c.target data) t)
      (s.TimedOut lost srv.objects) := by
  have hsize : (UInt32.ofNat data.length).toNat = data.length := UInt32.toNat_ofNat_of_lt hd
  obtain ⟨count, hcount⟩ : ∃ count, segmentCount data = count + 1 :=
    Nat.exists_eq_add_of_le' (segmentCount_pos data)
  rw [downloadSegmented]
  simp only [ends_bind, ends_modify]
  refine ends_exchange h (s := { s with announced := some data.length }) hs hst
    (Request.regular_announce c.target _) (fun k => Server.proceed_announce)
    (.of_plain trivial) (fun w n d hr => ?_) fun e t he => he
  rw [hsize] at hr
  simp only [ends_bind, hcount]
  have hstart : w.Rests srv (.downloadSegmented c.target s.toggle 0 (some data.length)
      (data.take (0 * segmentSize))) := by
    rw [ht, Nat.zero_mul, List.take_zero]
    exact hr.2
  refine Ends.after (ends_downloadSegments h (by omega) ht hstart (by simp [hl])) hr.1 ?_
  intro _ t hq
  obtain ⟨hr', ha, hlen⟩ := hq
  have hann : t.announced = some t.transferred := by
    rw [ha, hlen]
  rw [ends_checkSize (.inr (.inr hann)), Traffic.segmentedDownload, hcount]
  exact hr'.trans hr.1

end Canopen.Client.Call
