import Canopen.Proofs.Downloads

set_option autoImplicit false

namespace Canopen.Client

/-- A session that has received nothing yet. -/
structure Session.Fresh (s : Session Line) : Prop where
  toggle : s.toggle = false
  buffer : s.buffer = []
  transferred : s.transferred = 0

namespace Call

open Can (Message)
open Sdo
open Transfer

section
variable {σ : Type} {c : Call σ} {s : Session σ} {a : Address} {object : List UInt8}

theorem ends_continueUpload_expedited (fits : object.length ≤ 4) (hb : s.buffer = [])
    {Q : List UInt8 → Session σ → Prop} {E : Stop → Session σ → Prop}
    (h : Q object { s with
      mode := .expedited, buffer := object, transferred := s.transferred + object.length }) :
    Ends (c.continueUpload
      (.confirmUpload (UInt8.ofNat (4 - object.length)) true true a (padTo 4 object))) s Q E := by
  have hdata : (padTo 4 object).toList.take (4 - (UInt8.ofNat (4 - object.length)).toNat)
      = object := take_used fits (by decide)
  simp only [continueUpload, ends_bind, ends_modify, store, if_true, hdata, ends_get, ends_pure,
    hb, List.nil_append]
  exact h

theorem ends_continueUpload_announced {size : UInt32} {Q : List UInt8 → Session σ → Prop}
    {E : Stop → Session σ → Prop}
    (h : Ends (c.uploadSegments c.patience)
      { s with mode := .segmented, announced := some size.toNat }
      (fun _ t => Ends c.checkSize t (fun _ u => Q u.buffer u) E) E) :
    Ends (c.continueUpload (.announce a (some size))) s Q E := by
  simp only [Response.announce, continueUpload, ends_bind, ends_modify, ends_get, ends_pure,
    Option.isSome_some, if_true, Option.getD_some, wordOf_bytesOfWord]
  exact h

/-- A segment that the client asked for is stored, and the next one asked for behind all but the
last. The server tells its last segment by the length of the object, the client by the frame. -/
theorem ends_storeSegment {i n : Nat} (hi : i < segmentCount object)
    (hb : s.buffer = object.take (i * segmentSize)) (hl : s.transferred = s.buffer.length)
    {Q : Unit → Session σ → Prop} {E : Stop → Session σ → Prop}
    (done : i + 1 = segmentCount object → object.length ≤ (i + 1) * segmentSize →
      Q () { s with toggle := !s.toggle, buffer := object, transferred := object.length })
    (more : i + 1 < segmentCount object → ¬object.length ≤ (i + 1) * segmentSize →
      Ends (c.uploadSegments n)
        { s with
          toggle := !s.toggle
          buffer := object.take ((i + 1) * segmentSize)
          transferred := (object.take ((i + 1) * segmentSize)).length } Q E) :
    Ends (do
        c.checkToggle s.toggle
        store ((padTo 7 (segmentBytes object i)).toList.take
          (7 - (UInt8.ofNat (7 - (segmentBytes object i).length)).toNat))
        if decide (object.length ≤ (i + 1) * segmentSize) then return
        else c.uploadSegments n) s Q E := by
  have hlast := length_le_iff_last object hi
  have hbuffer : s.buffer ++ segmentBytes object i = object.take ((i + 1) * segmentSize) := by
    rw [hb, take_append_segmentBytes]
  have hcount : s.transferred + (segmentBytes object i).length
      = (object.take ((i + 1) * segmentSize)).length := by
    rw [hl, hb, length_take_add_length_segmentBytes]
  simp only [ends_bind, checkToggle, ends_get, if_true, ends_modify, store,
    take_used_segmentBytes]
  rw [hbuffer, hcount]
  by_cases hend : i + 1 = segmentCount object
  · have hle := hlast.mpr hend
    rw [if_pos (decide_eq_true hle), ends_pure, List.take_of_length_le hle]
    exact done hend hle
  · have hnle : ¬object.length ≤ (i + 1) * segmentSize := fun hle => hend (hlast.mp hle)
    rw [if_neg (by simpa using hnle)]
    exact more (by omega) hnle

end

variable {lost : Nat → Bool} {c : Call Line} {s : Session Line}
variable {srv : Server} {state : Server.State} {switch : Bool} {object : List UInt8}

theorem ends_uploadSegments (h : c.Setting lost srv switch) {i n : Nat} {a : Address}
    (hi : i < segmentCount object) (hn : segmentCount object - i ≤ n)
    (ht : s.toggle = decide (i % 2 = 1))
    (hs : s.world.Rests srv (.uploadSegmented a s.toggle i object))
    (hb : s.buffer = object.take (i * segmentSize)) (hl : s.transferred = s.buffer.length) :
    Ends (c.uploadSegments n) s
      (fun _ t => s.Reached lost srv .idle
        (Traffic.uploadSegments c.node i (segmentCount object - i)) t ∧
        t.announced = s.announced ∧ t.buffer = object ∧ t.transferred = object.length)
      (s.TimedOut lost srv.objects) := by
  -- On the rounds left, of which there is one for each segment at least.
  induction n generalizing i s with
  | zero => omega
  | succ n ih =>
    have hfits := segmentBytes_length_le object i
    have hcount : segmentCount object - i = segmentCount object - (i + 1) + 1 := by omega
    rw [uploadSegments]
    simp only [ends_bind, ends_get]
    refine ends_exchange h hs (by simp) (.of_plain trivial)
      (fun k => Server.proceed_uploadSegment h.faults) (Response.regular_segment _ _ hfits)
      (fun w r d hr => ?_) fun e t he => he
    rw [hcount, Traffic.uploadSegments_succ, ← ht]
    refine ends_storeSegment (s := { s with world := w, retries := r, deadline := d }) hi hb hl
      (fun hend hle => ?_) fun hlt hnle => ?_
    · rw [if_pos hle] at hr
      rw [hend, Nat.sub_self]
      exact ⟨hr, rfl, rfl, rfl⟩
    · rw [if_neg hnle] at hr
      have ht' : (!s.toggle) = decide ((i + 1) % 2 = 1) := by
        rw [ht, odd_succ]
      refine Ends.after (ih hlt (by omega) ht' hr.2 rfl rfl) hr.1 ?_
      intro _ t hq
      obtain ⟨hr', ha, hobject, hlen⟩ := hq
      exact ⟨hr'.trans hr.1, ha, hobject, hlen⟩

theorem ends_exchange_upload (h : c.Setting lost srv switch) (hs : s.world.Rests srv state)
    (hst : ∀ t, state ≠ .downloadBlock t) (hfresh : s.Fresh) (hd : object.length < sizeLimit)
    (hp : segmentCount object ≤ c.patience) {r : Request}
    (ha : ∀ k, (srv.during state k).proceed r = (srv.during .idle k).startUpload c.target object)
    (hr : r.Regular)
    {Q : Response → Session Line → Prop} {E : Stop → Session Line → Prop}
    (goes : ∀ n e sized a d t,
      Ends (c.continueUpload (.confirmUpload n e sized a d)) t
        (fun v u => v = object ∧ s.Reached lost srv .idle
          (r.message c.node :: Traffic.normalUpload c.node object) u)
        (s.TimedOut lost srv.objects) →
      Q (.confirmUpload n e sized a d) t)
    (expired : ∀ e t, s.TimedOut lost srv.objects e t → E e t) :
    Ends (c.exchange r) s Q E := by
  by_cases hsmall : 1 ≤ object.length ∧ object.length ≤ 4
  · refine ends_exchange h hs hst hr
      (fun k => (ha k).trans (Server.startUpload_small h.faults hsmall))
      (Response.regular_expedited c.target hsmall.2 hsmall.1) (fun w n d ht => ?_) expired
    refine goes _ _ _ _ _ _ ?_
    refine ends_continueUpload_expedited hsmall.2 ?_ ?_
    · exact hfresh.buffer
    · rw [Traffic.normalUpload, if_pos hsmall]
      exact ⟨rfl, ht⟩
  · have hsize : (UInt32.ofNat object.length).toNat = object.length :=
      UInt32.toNat_ofNat_of_lt hd
    refine ends_exchange h hs hst hr
      (fun k => (ha k).trans (Server.startUpload_large h.faults hsmall))
      (Response.regular_announce c.target _) (fun w n d ht => ?_) expired
    refine goes _ _ _ _ _ _ (ends_continueUpload_announced ?_)
    rw [hsize]
    refine Ends.after (ends_uploadSegments h (a := c.target) (segmentCount_pos object) hp
      hfresh.toggle ?_ ?_ ?_) ht.1 ?_
    · rw [hfresh.toggle]
      exact ht.2
    · rw [Nat.zero_mul, List.take_zero]
      exact hfresh.buffer
    · rw [hfresh.buffer]
      exact hfresh.transferred
    · intro _ t hq
      obtain ⟨ht', ha, hobject, hlen⟩ := hq
      rw [ends_checkSize (.inr (.inr (by rw [ha, hlen]))), Traffic.normalUpload, if_neg hsmall]
      exact ⟨hobject, ht'.trans ht.1⟩

theorem ends_upload (h : c.Setting lost srv switch) (hs : s.world.Rests srv state)
    (hst : ∀ t, state ≠ .downloadBlock t) (hfresh : s.Fresh) (hd : object.length < sizeLimit)
    (hp : segmentCount object ≤ c.patience) (hobject : srv.objects.get? c.target = some object) :
    Ends c.upload s
      (fun v t => v = object ∧ s.Reached lost srv .idle
        ((Request.initiateUpload c.target).message c.node
          :: Traffic.normalUpload c.node object) t)
      (s.TimedOut lost srv.objects) := by
  rw [upload]
  simp only [ends_bind]
  exact ends_exchange_upload h hs hst hfresh hd hp
    (fun k => Server.proceed_initiateUpload hobject) (.of_plain trivial)
    (fun n e sized a d t ht => ht) fun e t he => he

theorem ends_exchange_missing (h : c.Setting lost srv switch) (hs : s.world.Rests srv state)
    (hst : ∀ t, state ≠ .downloadBlock t) {r : Request} (hr : r.Regular)
    (ha : ∀ k, (srv.during state k).proceed r
      = (srv.during .idle k).refuse c.target .noSuchObject)
    {Q : Response → Session Line → Prop} :
    Ends (c.exchange r) s Q
      (fun e t => e = .failed (.serverAbort c.target (.known .noSuchObject)) ∧
          t.world.server.objects = srv.objects ∨ s.TimedOut lost srv.objects e t) := by
  refine ends_exchange_refused h hs hst hr ha (fun t ht => .inl ⟨rfl, ?_⟩) fun e t he => .inr he
  obtain ⟨-, -, k, hk⟩ := ht
  rw [hk]
  rfl

theorem ends_upload_missing (h : c.Setting lost srv switch) (hs : s.world.Rests srv state)
    (hst : ∀ t, state ≠ .downloadBlock t) (hmissing : srv.objects.get? c.target = none) :
    Ends c.upload s (fun _ _ => False)
      (fun e t => e = .failed (.serverAbort c.target (.known .noSuchObject)) ∧
          t.world.server.objects = srv.objects ∨ s.TimedOut lost srv.objects e t) := by
  have hregular : (Request.initiateUpload c.target).Regular := .of_plain trivial
  rw [upload]
  simp only [ends_bind]
  exact ends_exchange_missing h hs hst hregular
    fun k => Server.proceed_initiateUpload_missing hmissing

end Call
end Canopen.Client
