import Canopen.Proofs.PromptDownloads
import Canopen.Proofs.Uploads

set_option autoImplicit false

namespace Canopen.Client

open Sdo

def announcedSize (object : List UInt8) : Nat := (UInt32.ofNat object.length).toNat

/-- A size of zero says nothing. -/
def Misstated (object : List UInt8) : Prop :=
  announcedSize object ≠ 0 ∧ announcedSize object ≠ object.length

instance (object : List UInt8) : Decidable (Misstated object) :=
  inferInstanceAs (Decidable (_ ∧ _))

theorem not_misstated {object : List UInt8} (h : object.length < sizeLimit) :
    ¬Misstated object :=
  fun hm => hm.2 (UInt32.toNat_ofNat_of_lt h)

namespace Call

open Transfer

variable {σ : Type} {c : Call σ} {room : Nat} {V : σ → Server → List Can.Message → Prop}
variable {srv : Server} {state : Server.State} {s : Session σ} {object : List UInt8}

def Mismatched (c : Call σ) (V : σ → Server → List Can.Message → Prop) (srv : Server)
    (object : List UInt8) (e : Stop) (t : Session σ) : Prop :=
  Misstated object ∧ e = .failed (.sizeMismatch (announcedSize object) object.length) ∧
    ∃ last, c.Sees V t { srv with lastAbort := last } .idle []

def Fetched (c : Call σ) (V : σ → Server → List Can.Message → Prop) (srv : Server)
    (object v : List UInt8) (t : Session σ) : Prop :=
  ¬Misstated object ∧ v = object ∧ c.Sees V t srv .idle []

namespace Prompt

variable (h : c.Prompt room V) (hc : c.Faces srv)
include h hc

theorem ends_checkSize_announced (hs : c.Sees V s srv state [])
    (ha : s.announced = some (announcedSize object)) (hl : s.transferred = object.length)
    {Q : Unit → Session σ → Prop} {E : Stop → Session σ → Prop} (goes : ¬Misstated object → Q () s)
    (fails : ∀ e t, c.Mismatched V srv object e t → E e t) :
    Ends c.checkSize s Q E := by
  rw [checkSize, ends_bind, ends_get, ha]
  by_cases hm : Misstated object
  · obtain ⟨n, hn⟩ := Nat.exists_eq_add_of_le' (Nat.one_le_iff_ne_zero.mpr hm.1)
    have hne : n + 1 ≠ s.transferred := by
      rw [hl, ← hn]
      exact hm.2
    rw [hn]
    show Ends (if n + 1 ≠ s.transferred then _ else _) s Q E
    rw [if_pos hne]
    refine h.ends_abandon hc hs fun w d hw => fails _ _ ⟨hm, ?_, _, hw⟩
    rw [hn, hl]
  · have hq := goes hm
    generalize hn : announcedSize object = n
    cases n with
    | zero => exact hq
    | succ n =>
      have heq : n + 1 = s.transferred := by
        rw [hl, ← hn]
        exact Decidable.not_not.mp fun hne => hm ⟨by omega, hne⟩
      show Ends (if n + 1 ≠ s.transferred then _ else _) s Q E
      rw [if_neg (not_not_intro heq)]
      exact hq

theorem ends_uploadSegments {i n : Nat} (hi : i < segmentCount object)
    (hn : segmentCount object - i ≤ n)
    (hs : c.Sees V s srv (.uploadSegmented c.target s.toggle i object) [])
    (hb : s.buffer = object.take (i * segmentSize)) (hl : s.transferred = s.buffer.length) :
    Ends (c.uploadSegments n) s
      (fun _ t => c.Sees V t srv .idle [] ∧ t.announced = s.announced ∧ t.buffer = object ∧
        t.transferred = object.length)
      fun _ _ => False := by
  induction n generalizing i s with
  | zero => omega
  | succ n ih =>
    have hfits := segmentBytes_length_le object i
    have hanswer : srv.Responds (.uploadSegmented c.target s.toggle i object)
        ((Request.uploadSegment s.toggle).message c.node)
        [(Response.segment s.toggle (object.length ≤ (i + 1) * segmentSize)
          (segmentBytes object i) hfits).message c.node] srv
        (if object.length ≤ (i + 1) * segmentSize then .idle
          else .uploadSegmented c.target (!s.toggle) (i + 1) object) := by
      have hregular : (Request.uploadSegment s.toggle).Regular := .of_plain trivial
      refine hc.responds (by simp) hregular fun k => ?_
      rw [Server.proceed_uploadSegment hc.faults, hc.node]
    rw [uploadSegments, ends_bind, ends_get, ends_bind]
    refine h.ends_exchange hs hanswer (Response.regular_segment _ _ hfits) fun w d hw => ?_
    refine ends_storeSegment (s := { s with world := w, deadline := d }) hi hb hl
      (fun _ hle => ?_) fun hlt hnle => ?_
    · rw [if_pos hle] at hw
      exact ⟨hw.of_eq rfl rfl, rfl, rfl, rfl⟩
    · rw [if_neg hnle] at hw
      exact ih hlt (by omega) (hw.of_eq rfl rfl) rfl rfl

theorem ends_upload (hs : c.Sees V s srv state []) (hst : ∀ t, state ≠ .downloadBlock t)
    (ht : s.toggle = false) (hb : s.buffer = []) (hl : s.transferred = 0)
    (hp : segmentCount object ≤ c.patience) (hobject : srv.objects.get? c.target = some object) :
    Ends c.upload s (c.Fetched V srv object) (c.Mismatched V srv object) := by
  have hregular : (Request.initiateUpload c.target).Regular := .of_plain trivial
  rw [upload, ends_bind]
  by_cases hsmall : 1 ≤ object.length ∧ object.length ≤ 4
  · have hanswer : srv.Responds state ((Request.initiateUpload c.target).message c.node)
        [(Response.expedited c.target object hsmall.2).message c.node] srv .idle := by
      refine hc.responds hst hregular fun k => ?_
      rw [Server.proceed_initiateUpload hobject,
        Server.startUpload_small hc.faults hsmall, hc.node]
    refine h.ends_exchange hs hanswer (Response.regular_expedited c.target hsmall.2 hsmall.1)
      fun w d hw => ?_
    refine ends_continueUpload_expedited hsmall.2 ?_ ?_
    · exact hb
    · exact ⟨not_misstated (Nat.lt_of_le_of_lt hsmall.2 (by decide)), rfl, hw.of_eq rfl rfl⟩
  · have hanswer : srv.Responds state ((Request.initiateUpload c.target).message c.node)
        [(Response.announce c.target (some (UInt32.ofNat object.length))).message c.node] srv
        (.uploadSegmented c.target false 0 object) := by
      refine hc.responds hst hregular fun k => ?_
      rw [Server.proceed_initiateUpload hobject,
        Server.startUpload_large hc.faults hsmall, hc.node]
    refine h.ends_exchange hs hanswer (Response.regular_announce c.target _) fun w d hw => ?_
    refine ends_continueUpload_announced ?_
    refine (h.ends_uploadSegments hc (segmentCount_pos object) hp ?_ ?_ ?_).mono ?_
      fun _ _ he => he.elim
    · show c.Sees V _ srv (.uploadSegmented c.target s.toggle 0 object) []
      rw [ht]
      exact hw.of_eq rfl rfl
    · rw [Nat.zero_mul, List.take_zero]
      exact hb
    · show s.transferred = s.buffer.length
      rw [hb, hl]
      rfl
    · intro _ t hq
      obtain ⟨hw', ha, hbuffer, hlen⟩ := hq
      exact h.ends_checkSize_announced hc hw' ha hlen (fun hm => ⟨hm, hbuffer, hw'⟩)
        fun e u he => he

theorem ends_exchange_missing (hs : c.Sees V s srv state []) (hst : ∀ t, state ≠ .downloadBlock t)
    {r : Request} (hr : r.Regular)
    (ha : ∀ k, (srv.during state k).proceed r
      = (srv.during .idle k).refuse c.target .noSuchObject)
    {Q : Response → Session σ → Prop} :
    Ends (c.exchange r) s Q
      fun e t => e = .failed (.serverAbort c.target (.known .noSuchObject)) ∧
        c.Sees V t srv .idle [] := by
  have hanswer : srv.Responds state (r.message c.node)
      [(Response.abortWith c.target .noSuchObject).message c.node] srv .idle := by
    refine hc.responds hst hr fun k => ?_
    rw [ha, hc.node]
    rfl
  exact h.ends_exchange_refused hs hanswer fun w d hw => ⟨rfl, hw⟩

end Prompt
end Call
end Canopen.Client
