import Canopen.Proofs.Downloads
import Canopen.Proofs.Lossy

set_option autoImplicit false

namespace Canopen

open Sdo

namespace Server

/-- One object has this value, and the others are as they were. -/
def Stored (s : Server) (a : Address) (object : List UInt8) (t : Server) : Prop :=
  t.objects.get? a = some object ∧ ∀ b, b ≠ a → t.objects.get? b = s.objects.get? b

theorem stored_store (s : Server) (a : Address) (object : List UInt8) (state : State) (k : Nat) :
    s.Stored a object ((s.store a object).during state k) :=
  ⟨s.objects.get?_set_self a object, fun _ hb => s.objects.get?_set_of_ne hb object⟩

/-- The same server, with no matter what objects and what transfers under way. -/
structure Like (s t : Server) : Prop where
  node : t.node = s.node
  faults : t.faults = s.faults

theorem Like.during {s t : Server} (h : s.Like t) (state : State) (k : Nat) :
    s.Like (t.during state k) := ⟨h.node, h.faults⟩

theorem like_during (s : Server) (state : State) (k : Nat) : s.Like (s.during state k) :=
  ⟨rfl, rfl⟩

theorem handle_regular {s : Server} {switch : Bool} (hf : s.faults = { switchProtocol := switch })
    (hs : ∀ t, s.state ≠ .downloadBlock t) {r : Request} (hr : r.Regular) :
    s.handle (r.message s.node) = (s.during s.state (s.received + 1)).proceed r :=
  show (s.during s.state s.received).handle (r.message s.node) = _ from handle_request hf hs hr

theorem handle_segment_again {s : Server} {switch : Bool} {a : Address} {toggle last : Bool}
    {bytes : List UInt8} {fits : bytes.length ≤ 7} (hf : s.faults = { switchProtocol := switch })
    (hstate : s.state = .idle ∨ ∃ i size buffer,
      s.state = .downloadSegmented a (!toggle) i size buffer)
    (hr : (Request.segment toggle last bytes fits).Regular) :
    ∃ a code rs, s.handle ((Request.segment toggle last bytes fits).message s.node) =
      { frames := [(Response.abort a code).message s.node], effects := rs
        device := s.during .idle (s.received + 1) } := by
  have hnot : ∀ t, s.state ≠ .downloadBlock t := by
    rcases hstate with hidle | ⟨i, size, buffer, hother⟩
    · simp [hidle]
    · simp [hother]
  rw [handle_regular hf hnot hr]
  rcases hstate with hidle | ⟨i, size, buffer, hother⟩
  · rw [hidle]
    exact ⟨_, _, _, rfl⟩
  · have hne : toggle ≠ !toggle := by cases toggle <;> decide
    have hproceed : (s.during (.downloadSegmented a (!toggle) i size buffer)
        (s.received + 1)).proceed (.segment toggle last bytes fits)
        = (s.during .idle (s.received + 1)).refuse a .toggleNotAlternated := if_neg hne
    rw [hother, hproceed]
    exact ⟨_, _, _, rfl⟩

end Server

namespace Client.Call

open Transfer

variable {x : Losses} {c : Call Line} {s : Session Line} {srv : Server}

theorem ends_downloadExpedited_lossy (h : c.Exposed x srv) (hs : s.world.Rests srv .idle)
    {data : List UInt8} (fits : data.length ≤ 4) (h0 : 1 ≤ data.length) :
    Ends (c.downloadExpedited data fits) s
      (fun _ t => srv.Stored c.target data t.world.server) fun _ _ => True := by
  obtain ⟨hi, k, hk⟩ := hs
  rw [downloadExpedited, exchange]
  simp only [ends_bind]
  refine ends_ask_lossy h.link
    (P := fun _ s => srv.Like s ∧ s.state = .idle ∧
      ∀ b, b ≠ c.target → s.objects.get? b = srv.objects.get? b)
    (G := fun q _ s => q = .confirmDownload c.target ∧ srv.Stored c.target data s) hi ?_ ?_ ?_
  · rw [hk]
    exact ⟨srv.like_during _ _, rfl, fun _ _ => rfl⟩
  · rintro n s ⟨hlike, hstate, hothers⟩
    have hfaults : s.faults = { switchProtocol := false } := hlike.faults.trans h.faults
    have hnode : c.node = s.node := h.node.trans hlike.node.symm
    have hhandle : s.handle ((Request.expedited c.target data fits).message c.node) =
        { frames := [(Response.confirmDownload c.target).message s.node]
          device := (s.store c.target data).during .idle (s.received + 1) } := by
      rw [hnode, Server.handle_regular hfaults (by simp [hstate])
        (Request.regular_expedited c.target fits h0), Server.proceed_expedited hfaults fits]
    have hstored := s.stored_store c.target data .idle (s.received + 1)
    refine ⟨fun _ => ⟨hlike, hstate, hothers⟩, fun _ => .inr ?_⟩
    rw [hhandle, ← hnode]
    have hothers' : ∀ b, b ≠ c.target →
        ((s.store c.target data).during .idle (s.received + 1)).objects.get? b
          = srv.objects.get? b := fun b hb => (hstored.2 b hb).trans (hothers b hb)
    exact ⟨_, rfl, fun _ => ⟨⟨hlike.node, hlike.faults⟩, rfl, hothers'⟩,
      fun _ => .inr ⟨.of_plain trivial, rfl, hstored.1, hothers'⟩⟩
  · rintro q w n d - ⟨rfl, hstored⟩
    exact hstored

/-- A segment that was answered already is refused when it comes again, and so is all behind it. -/
theorem ends_downloadSegment_lossy (h : c.Exposed x srv) {data buffer : List UInt8} {i count : Nat}
    (hs : s.world.Rests srv
      (.downloadSegmented c.target s.toggle i (some data.length) buffer))
    (hl : (count == 0) = true → data.length = (buffer ++ segmentBytes data i).length)
    {Q : Unit → Session Line → Prop}
    (goes : ∀ w n d,
      w.Rests (if count == 0 then srv.store c.target (buffer ++ segmentBytes data i) else srv)
        (if count == 0 then .idle else
          .downloadSegmented c.target (!s.toggle) (i + 1) (some data.length)
            (buffer ++ segmentBytes data i)) →
      Ends (c.downloadSegments data (i + 1) count)
        { s with
          world := w, retries := n, deadline := d, toggle := !s.toggle
          transferred := s.transferred + (segmentBytes data i).length } Q fun _ _ => True) :
    Ends (c.downloadSegments data i (count + 1)) s Q fun _ _ => True := by
  have hfits := segmentBytes_length_le data i
  have hregular := Request.regular_segment s.toggle (count == 0) hfits
  obtain ⟨hi, k, hk⟩ := hs
  rw [downloadSegments]
  simp only [ends_bind, ends_get, exchange]
  refine ends_ask_lossy h.link
    (P := fun _ t => (∃ k, t = srv.during
        (.downloadSegmented c.target s.toggle i (some data.length) buffer) k) ∨
      srv.Like t ∧ (t.state = .idle ∨ ∃ i size buffer,
        t.state = .downloadSegmented c.target (!s.toggle) i size buffer))
    (G := fun q _ t => q = .confirmDownloadSegment s.toggle ∧ ∃ k, t =
      (if count == 0 then srv.store c.target (buffer ++ segmentBytes data i) else srv).during
        (if count == 0 then .idle else .downloadSegmented c.target (!s.toggle) (i + 1)
          (some data.length) (buffer ++ segmentBytes data i)) k) hi (.inl ⟨k, hk⟩) ?_ ?_
  · -- The server awaits the segment still, or has taken it and turns it down when it comes again.
    intro n t ht
    refine ⟨fun _ => ht, fun _ => .inr ?_⟩
    rcases ht with ⟨k, rfl⟩ | ⟨hlike, hstate⟩
    · rw [h.node, Server.handle_request h.faults (by simp) hregular,
        Server.proceed_segment h.faults hfits hl]
      refine ⟨_, rfl, fun _ => .inr ?_, fun _ => .inr ⟨.of_plain trivial, rfl, k + 1, ?_⟩⟩
      · cases count == 0 with
        | true => exact ⟨⟨rfl, rfl⟩, .inl rfl⟩
        | false => exact ⟨⟨rfl, rfl⟩, .inr ⟨_, _, _, rfl⟩⟩
      · cases count == 0 <;> rfl
    · have hfaults : t.faults = { switchProtocol := false } := hlike.faults.trans h.faults
      rw [h.node.trans hlike.node.symm]
      obtain ⟨a, code, rs, hhandle⟩ := Server.handle_segment_again hfaults hstate hregular
      rw [hhandle]
      exact ⟨_, rfl, fun _ => .inr ⟨hlike.during _ _, .inl rfl⟩, fun _ => .inl ⟨a, code, rfl⟩⟩
  · rintro q w n d hi ⟨rfl, k, hk⟩
    simp only [ends_bind, checkToggle, ends_get, if_true, ends_modify]
    exact goes w n d ⟨hi, k, hk⟩

theorem ends_downloadSegments_lossy (h : c.Exposed x srv) {data : List UInt8} {i count : Nat}
    (hc : i + (count + 1) = segmentCount data)
    (hs : s.world.Rests srv (.downloadSegmented c.target s.toggle i (some data.length)
      (data.take (i * segmentSize)))) :
    Ends (c.downloadSegments data i (count + 1)) s
      (fun _ t => srv.Stored c.target data t.world.server) fun _ _ => True := by
  induction count generalizing i s with
  | zero =>
    have hall : data.take (i * segmentSize) ++ segmentBytes data i = data := by
      rw [take_append_segmentBytes, hc, take_segmentCount]
    refine ends_downloadSegment_lossy h hs (fun _ => by rw [hall]) fun w n d hr => ?_
    obtain ⟨-, k, hk⟩ := hr
    rw [hall] at hk
    show srv.Stored c.target data w.server
    rw [hk]
    exact srv.stored_store c.target data _ _
  | succ count ih =>
    refine ends_downloadSegment_lossy h hs (fun h0 => absurd h0 (by simp)) fun w n d hr => ?_
    rw [take_append_segmentBytes] at hr
    exact ih (by omega) hr

theorem ends_downloadSegmented_lossy (h : c.Exposed x srv) (hs : s.world.Rests srv .idle)
    {data : List UInt8} (hd : data.length < sizeLimit) (ht : s.toggle = false) :
    Ends (c.downloadSegmented data) s
      (fun _ t => srv.Stored c.target data t.world.server) fun _ _ => True := by
  have hsize : (UInt32.ofNat data.length).toNat = data.length := UInt32.toNat_ofNat_of_lt hd
  obtain ⟨count, hcount⟩ : ∃ count, segmentCount data = count + 1 :=
    Nat.exists_eq_add_of_le' (segmentCount_pos data)
  rw [downloadSegmented]
  simp only [ends_bind, ends_modify]
  refine ends_exchange_lossy h (s := { s with announced := some data.length })
    (fun st => st = .idle ∨ st = .downloadSegmented c.target false 0 (some data.length) [])
    (fun q st => q = .confirmDownload c.target ∧
      st = .downloadSegmented c.target false 0 (some data.length) []) hs (.inl rfl) ?_ ?_
  · intro st hst
    have hnot : ∀ t, st ≠ .downloadBlock t := by rcases hst with rfl | rfl <;> simp
    have hreacts := Server.responds_of_proceed h.faults hnot
      (Request.regular_announce c.target (UInt32.ofNat data.length))
      fun k => Server.proceed_announce
    rw [hsize] at hreacts
    exact ⟨_, _, hreacts, .inr rfl, .inr ⟨.of_plain trivial, rfl, rfl⟩⟩
  · rintro q st w n d ⟨rfl, rfl⟩ hw
    simp only [ends_bind, hcount]
    have hstart : w.Rests srv (.downloadSegmented c.target s.toggle 0 (some data.length)
        (data.take (0 * segmentSize))) := by
      rw [ht, Nat.zero_mul, List.take_zero]
      exact hw
    refine (ends_downloadSegments_lossy h (by omega) hstart).mono (fun _ t hstored => ?_)
      fun _ _ he => he
    exact ends_checkSize_lossy h.link fun _ => hstored

end Client.Call
end Canopen
