import Canopen.Client.Block
import Canopen.Proofs.Framing

set_option autoImplicit false

namespace Canopen.Client

namespace Transfer
variable {σ α β : Type}

/-- How a step ends when it starts in a state: with a value and a state that fit `Q`, or with a
failure and a state that fit `E`. -/
def Ends (x : Transfer σ α) (s : Session σ) (Q : α → Session σ → Prop)
    (E : Stop → Session σ → Prop) : Prop :=
  match x s with
  | .ok a s => Q a s
  | .error e s => E e s

variable {s : Session σ} {Q : α → Session σ → Prop} {E : Stop → Session σ → Prop}

@[simp] theorem ends_pure {a : α} : Ends (pure a) s Q E ↔ Q a s := Iff.rfl

@[simp] theorem ends_fail {e : Error} : Ends (fail e : Transfer σ α) s Q E ↔ E (.failed e) s :=
  Iff.rfl

@[simp] theorem ends_get {Q : Session σ → Session σ → Prop} : Ends get s Q E ↔ Q s s := Iff.rfl

@[simp] theorem ends_modify {Q : Unit → Session σ → Prop} {f : Session σ → Session σ} :
    Ends (modify f) s Q E ↔ Q () (f s) := Iff.rfl

@[simp] theorem ends_act {f : σ → α × σ} :
    Ends (act f) s Q E ↔ Q (f s.world).1 { s with world := (f s.world).2 } := Iff.rfl

@[simp] theorem ends_bind {x : Transfer σ α} {f : α → Transfer σ β} {Q : β → Session σ → Prop} :
    Ends (x >>= f) s Q E ↔ Ends x s (fun a s => Ends (f a) s Q E) E := by
  simp only [Ends, bind, EStateM.bind]
  cases x s <;> rfl

@[simp] theorem ends_map {x : Transfer σ α} {f : α → β} {Q : β → Session σ → Prop} :
    Ends (f <$> x) s Q E ↔ Ends x s (fun a s => Q (f a) s) E := by
  simp only [Ends, Functor.map, EStateM.map]
  cases x s <;> rfl

theorem Ends.mono {x : Transfer σ α} {Q' : α → Session σ → Prop} {E' : Stop → Session σ → Prop}
    (h : Ends x s Q E) (hq : ∀ a t, Q a t → Q' a t) (he : ∀ e t, E e t → E' e t) :
    Ends x s Q' E' := by
  unfold Ends at *
  split at h
  · exact hq _ _ h
  · exact he _ _ h

theorem Ends.and {x : Transfer σ α} {Q' : α → Session σ → Prop} {E' : Stop → Session σ → Prop}
    (h : Ends x s Q E) (h' : Ends x s Q' E') :
    Ends x s (fun a t => Q a t ∧ Q' a t) fun e t => E e t ∧ E' e t := by
  unfold Ends at *
  cases hx : x s with
  | ok a t =>
    rw [hx] at h h'
    exact ⟨h, h'⟩
  | error e t =>
    rw [hx] at h h'
    exact ⟨h, h'⟩

/-- How a step ends says all of it. -/
theorem eq_iff_ends {x : Transfer σ α} {r : EStateM.Result Stop (Session σ) α} :
    x s = r ↔ Ends x s (fun a t => r = .ok a t) fun e t => r = .error e t := by
  unfold Ends
  cases x s <;> exact eq_comm

end Transfer

open Transfer

theorem Call.ends_checkSize {σ : Type} {c : Call σ} {s : Session σ}
    (hs : s.announced = none ∨ s.announced = some 0 ∨ s.announced = some s.transferred)
    {Q : Unit → Session σ → Prop} {E : Stop → Session σ → Prop} :
    Ends c.checkSize s Q E ↔ Q () s := by
  rw [checkSize, ends_bind, ends_get]
  rcases hs with hs | hs | hs
  · rw [hs]
    rfl
  · rw [hs]
    rfl
  · rw [hs]
    cases s.transferred with
    | zero => rfl
    | succ n => simp

theorem Call.ends_checkBlockSize {σ : Type} {c : Call σ} {s : Session σ} (size : BlockSize)
    {Q : BlockSize → Session σ → Prop} {E : Stop → Session σ → Prop} :
    Ends (c.checkBlockSize size.value) s Q E ↔ Q size s := by
  have hsize : BlockSize.ofByte? size.value = some size := dif_pos ⟨size.pos, size.le⟩
  rw [checkBlockSize, hsize]
  exact ends_pure

/-- The checksum that is given where both sides want one passes the check. -/
theorem Call.checksum_stands (serverCrc useCrc : Bool) (checksum : UInt16) :
    (serverCrc && useCrc && checksum != if useCrc && serverCrc then checksum else 0) = false := by
  cases serverCrc <;> cases useCrc <;> simp

namespace Call

open Sdo (Request Response segmentCount segmentSize)

theorem ends_readResponse {σ : Type} {c : Call σ} {s : Session σ} {m : Can.Message} {r : Response}
    (h : Response.ofMessage m = .ok r) (ha : r.kind ≠ .abort)
    {Q : Response → Session σ → Prop} {E : Stop → Session σ → Prop} :
    Ends (c.readResponse m) s Q E ↔ Q r s := by
  rw [readResponse, h]
  cases r with
  | abort target code => exact absurd rfl ha
  | _ => rfl

variable {σ : Type} {c : Call σ} {s : Session σ} {data : List UInt8} {start length : Nat}
variable {size : BlockSize} {Q : Unit → Session σ → Prop} {E : Stop → Session σ → Prop}

theorem ends_acknowledge_of_send {Q : Request → Session σ → Prop}
    (h : ∀ text, Ends (c.note .debug text) s
      (fun _ t => Ends (c.send (c.acknowledgement s.seqno)) t
        (fun _ u => Q (c.acknowledgement s.seqno)
          { u with seqno := if s.seqno = c.config.blockSize then 0 else u.seqno }) E) E) :
    Ends c.acknowledge s Q E := by
  rw [acknowledge, ends_bind, ends_get, ends_bind]
  refine (h _).mono (fun _ t ht => ?_) fun _ _ he => he
  rw [ends_bind]
  refine ht.mono (fun _ u hu => ?_) fun _ _ he => he
  split
  · rename_i hall
    rw [if_pos hall] at hu
    exact hu
  · rename_i hpart
    rw [if_neg hpart] at hu
    exact hu

theorem ends_downloadBlocks_next (hlt : start < segmentCount data)
    (hl : min size.value.toNat (segmentCount data - start) = length)
    (h : ∀ text, Ends (c.note .debug text) s
      (fun _ t => Ends (c.downloadBlockFrom data start length 1 c.patience) t
        (fun next u => Ends (c.downloadBlocks data (start + length) next)
          { u with transferred := min ((start + length) * segmentSize) data.length } Q E) E) E) :
    Ends (c.downloadBlocks data start size) s Q E := by
  rw [downloadBlocks, if_pos hlt, hl]
  simp only [ends_bind, ends_modify]
  exact h _

theorem ends_downloadBlocks_behind (h : segmentCount data ≤ start) :
    Ends (c.downloadBlocks data start size) s Q E ↔ Q () s := by
  rw [downloadBlocks, if_neg (Nat.not_lt.mpr h)]
  exact ends_pure

end Call
end Canopen.Client
