import Canopen.Proofs.Lossy
import Canopen.Proofs.Uploads

set_option autoImplicit false

namespace Canopen

open Sdo

namespace Server

variable {s : Server} {switch : Bool} {a : Address} {object : List UInt8} {i : Nat}

theorem refuses_uploadSegment (hf : s.faults = { switchProtocol := switch }) {toggle : Bool} :
    s.Refuses (.uploadSegmented a (!toggle) i object)
      ((Request.uploadSegment toggle).message s.node) := by
  have hne : toggle ≠ !toggle := by cases toggle <;> decide
  have hproceed : ∀ k, (s.during (.uploadSegmented a (!toggle) i object) k).proceed
      (.uploadSegment toggle) = (s.during .idle k).refuse a .toggleNotAlternated := by
    intro k
    show (s.during .idle k).uploadSegment a (!toggle) i object toggle = _
    simp only [during, uploadSegment, if_neg hne]
  exact refuses_of_proceed hf (by simp) (.of_plain trivial)
    fun k => ⟨[], hproceed k⟩

theorem refuses_uploadSegment_idle (hf : s.faults = { switchProtocol := switch }) {toggle : Bool} :
    s.Refuses .idle ((Request.uploadSegment toggle).message s.node) :=
  refuses_of_proceed hf (by simp) (.of_plain trivial) fun _ => ⟨_, rfl⟩

end Server

namespace Client.Call

open Transfer

variable {x : Losses} {c : Call Line} {s : Session Line} {srv : Server}
variable {a : Address} {object : List UInt8}

theorem ends_uploadSegments_lossy (h : c.Exposed x srv) {i n : Nat} (hi : i < segmentCount object)
    (hs : s.world.Rests srv (.uploadSegmented a s.toggle i object))
    (hb : s.buffer = object.take (i * segmentSize)) (hl : s.transferred = s.buffer.length) :
    Ends (c.uploadSegments n) s (fun _ t => t.buffer = object) fun _ _ => True := by
  induction n generalizing i s with
  | zero => trivial
  | succ n ih =>
    -- Where the server is when it has answered.
    let next : Server.State := if object.length ≤ (i + 1) * segmentSize then .idle
      else .uploadSegmented a (!s.toggle) (i + 1) object
    have hfits := segmentBytes_length_le object i
    have hregular : (Request.uploadSegment s.toggle).Regular := .of_plain trivial
    rw [uploadSegments]
    simp only [ends_bind, ends_get]
    refine ends_exchange_lossy h
      (fun st => st = .uploadSegmented a s.toggle i object ∨
        st = .uploadSegmented a (!s.toggle) (i + 1) object ∨ st = .idle)
      (fun q st => q = Response.segment s.toggle (object.length ≤ (i + 1) * segmentSize)
        (segmentBytes object i) hfits ∧ st = next) hs (.inl rfl) ?_ ?_
    · intro st hq
      rcases hq with rfl | rfl | rfl
      · refine ⟨_, next, Server.responds_of_proceed h.faults (by simp) hregular
          fun k => Server.proceed_uploadSegment h.faults, ?_,
          .inr ⟨Response.regular_segment _ _ hfits, rfl, rfl⟩⟩
        simp only [next]
        split
        · exact .inr (.inr rfl)
        · exact .inr (.inl rfl)
      · obtain ⟨a, code, hreacts⟩ : srv.Refuses (.uploadSegmented a (!s.toggle) (i + 1) object)
            ((Request.uploadSegment s.toggle).message srv.node) :=
          Server.refuses_uploadSegment h.faults
        exact ⟨_, _, hreacts, .inr (.inr rfl), .inl ⟨a, code, rfl⟩⟩
      · obtain ⟨a, code, hreacts⟩ := Server.refuses_uploadSegment_idle h.faults
        exact ⟨_, _, hreacts, .inr (.inr rfl), .inl ⟨a, code, rfl⟩⟩
    · intro q st w r d hq hw
      obtain ⟨rfl, rfl⟩ := hq
      refine ends_storeSegment (s := { s with world := w, retries := r, deadline := d }) hi hb hl
        (fun _ _ => rfl) fun hlt hnle => ?_
      simp only [next, if_neg hnle] at hw
      exact ih hlt hw rfl rfl

theorem ends_upload_lossy (h : c.Exposed x srv) (hs : s.world.Rests srv .idle)
    (hfresh : s.Fresh) (hobject : srv.objects.get? c.target = some object) :
    Ends c.upload s (fun v _ => v = object) fun _ _ => True := by
  have hregular : (Request.initiateUpload c.target).Regular := .of_plain trivial
  rw [upload]
  simp only [ends_bind]
  by_cases hsmall : 1 ≤ object.length ∧ object.length ≤ 4
  · refine ends_exchange_lossy h (· = .idle)
      (fun q _ => q = Response.expedited c.target object hsmall.2) hs rfl ?_ ?_
    · intro st h
      subst h
      have hproceed : ∀ k, (srv.during .idle k).proceed (.initiateUpload c.target) = _ := fun k =>
        (Server.proceed_initiateUpload hobject).trans (Server.startUpload_small h.faults hsmall)
      have hreacts := Server.responds_of_proceed h.faults (by simp) hregular hproceed
      exact ⟨_, .idle, hreacts, rfl,
        .inr ⟨Response.regular_expedited c.target hsmall.2 hsmall.1, rfl⟩⟩
    · intro q st w r d h _
      subst h
      refine ends_continueUpload_expedited hsmall.2 ?_ rfl
      exact hfresh.buffer
  · refine ends_exchange_lossy h
      (fun st => st = .idle ∨ st = .uploadSegmented c.target false 0 object)
      (fun q st => q = Response.announce c.target (some (UInt32.ofNat object.length)) ∧
        st = .uploadSegmented c.target false 0 object) hs (.inl rfl) ?_ ?_
    · intro st hst
      have hnot : ∀ t, st ≠ .downloadBlock t := by rcases hst with rfl | rfl <;> simp
      have hreacts := Server.responds_of_proceed h.faults hnot hregular
        fun k => (Server.proceed_initiateUpload hobject).trans
          (Server.startUpload_large h.faults hsmall)
      exact ⟨_, _, hreacts, .inr rfl, .inr ⟨Response.regular_announce c.target _, rfl, rfl⟩⟩
    · intro q st w r d hq hw
      obtain ⟨rfl, rfl⟩ := hq
      rw [← hfresh.toggle] at hw
      refine ends_continueUpload_announced
        (Ends.mono (ends_uploadSegments_lossy h (segmentCount_pos object) hw ?_ ?_)
          (fun _ t hbuffer => ends_checkSize_lossy h.link fun _ => hbuffer) fun _ _ h => h)
      · rw [Nat.zero_mul, List.take_zero]
        exact hfresh.buffer
      · rw [hfresh.buffer]
        exact hfresh.transferred

theorem ends_upload_missing_lossy (h : c.Exposed x srv) (hs : s.world.Rests srv .idle)
    (hmissing : srv.objects.get? c.target = none) :
    Ends c.upload s (fun _ _ => False) fun _ _ => True := by
  have hregular : (Request.initiateUpload c.target).Regular := .of_plain trivial
  rw [upload]
  simp only [ends_bind]
  exact ends_exchange_refused_lossy h hregular hs
    fun _ => Server.proceed_initiateUpload_missing hmissing

end Client.Call
end Canopen
