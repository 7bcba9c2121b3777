import Canopen.Proofs.Orders
import Canopen.Proofs.Simulation
import Canopen.Proofs.Upholding

set_option autoImplicit false

namespace Canopen

open Can (Message)
open Client
open Sdo

namespace Server

/-- What a server is made with, but for its objects and its faults. -/
def settings (s : Server) : NodeId × UInt8 × Bool := (s.node, s.blockSize, s.crc)

variable (s : Server)

theorem settings_initiateDownload (unused : UInt8) (expedited sized : Bool) (a : Address)
    (data : Vector UInt8 4) :
    (s.initiateDownload unused expedited sized a data).device.settings = s.settings := by
  unfold initiateDownload
  split <;> rfl

theorem settings_startUpload (a : Address) (data : List UInt8) :
    (s.startUpload a data).device.settings = s.settings := by
  unfold startUpload
  split <;> rfl

theorem settings_initiateUpload (a : Address) :
    (s.initiateUpload a).device.settings = s.settings := by
  unfold initiateUpload
  split
  · exact s.settings_startUpload a _
  · rfl

theorem settings_downloadSegment (a : Address) (expected : Bool) (segment : Nat)
    (size : Option Nat) (buffer : List UInt8) (toggle : Bool) (unused : UInt8) (last : Bool)
    (data : Vector UInt8 7) :
    (s.downloadSegment a expected segment size buffer toggle unused last data).device.settings
      = s.settings := by
  unfold downloadSegment
  split
  · dsimp only
    split
    · split <;> rfl
    · rfl
  · rfl

theorem settings_uploadSegment (a : Address) (expected : Bool) (segment : Nat) (data : List UInt8)
    (toggle : Bool) :
    (s.uploadSegment a expected segment data toggle).device.settings = s.settings := by
  unfold uploadSegment
  split
  · dsimp only
    split <;> rfl
  · rfl

theorem settings_blockSegment (t : BlockDownload) (segment : BlockSegment) :
    (s.blockSegment t segment).device.settings = s.settings := by
  unfold blockSegment
  split
  · rfl
  · dsimp only
    split
    · rfl
    · split <;> rfl

theorem settings_endBlockDownload (t : BlockDownload) (unused : UInt8) (checksum : UInt16) :
    (s.endBlockDownload t unused checksum).device.settings = s.settings := by
  unfold endBlockDownload
  dsimp only
  split
  · rfl
  · split <;> rfl

theorem settings_initiateBlockUpload (crc : Bool) (a : Address) (blockSize threshold : UInt8) :
    (s.initiateBlockUpload crc a blockSize threshold).device.settings = s.settings := by
  unfold initiateBlockUpload
  split
  · rfl
  · split
    · exact s.settings_startUpload a _
    · split <;> rfl

theorem settings_confirmBlock (t : BlockUpload) (seqno blockSize : UInt8) :
    (s.confirmBlock t seqno blockSize).device.settings = s.settings := by
  unfold confirmBlock
  split
  · rfl
  · split
    · rfl
    · split
      · rfl
      · dsimp only
        split <;> rfl

theorem settings_proceed (r : Request) : (s.proceed r).device.settings = s.settings := by
  unfold proceed
  dsimp only
  split
  · exact settings_initiateDownload _ _ _ _ _ _
  · exact settings_initiateUpload _ _
  · rfl
  · exact settings_initiateBlockUpload _ _ _ _ _
  · exact settings_downloadSegment _ _ _ _ _ _ _ _ _ _
  · exact settings_uploadSegment _ _ _ _ _ _
  · exact settings_endBlockDownload _ _ _ _
  · rfl
  · rfl
  · exact settings_confirmBlock _ _ _ _
  · rfl
  · rfl

theorem settings_readRequest (m : Message) : (s.readRequest m).device.settings = s.settings := by
  unfold readRequest request
  split
  · split
    · rfl
    · split
      · rfl
      · exact s.settings_proceed _
  · rfl

theorem settings_read (m : Message) : (s.read m).device.settings = s.settings := by
  unfold read
  split
  · split
    · exact s.settings_readRequest m
    · unfold readSegment
      split
      · exact s.settings_blockSegment _ _
      · rfl
  · exact s.settings_readRequest m

theorem settings_handle (m : Message) : (s.handle m).device.settings = s.settings := by
  unfold handle
  split
  · dsimp only
    split
    · rfl
    · split
      · rfl
      · exact settings_read _ m
  · rfl

end Server

namespace Client

variable {σ : Type} {P : σ → Prop}

/-- Nothing that a client does over a link makes a difference to `P`. -/
structure Link.Maintains (a : Link σ) (P : σ → Prop) : Prop extends a.Preserves P where
  receive : ∀ {w}, P w → P (a.receive w).2
  sleep : ∀ {w}, P w → ∀ t, P (a.sleep t w)
  resume : ∀ {w}, P w → P (a.resume w)

theorem Link.Maintains.lockstep_abandon {c : Call σ} (h : c.link.Maintains P) {α : Type}
    (code : AbortCode) (e : Error) :
    Lockstep (OfWorlds fun w l => w = l ∧ P w) (fun _ w _ => P w) (c.abandon code e : Transfer σ α)
      (c.abandon code e) := by
  intro s l hr
  obtain ⟨rfl, hw⟩ := hr
  have hended : Transfer.Ends (c.abandon code e : Transfer σ α) s (fun _ _ => False)
      fun stop t => stop = .failed e ∧ P t.world :=
    Call.ends_abandon_of_preserves h.toPreserves hw code e
  have hsame : s.inWorld s.world = s := rfl
  rw [hsame]
  unfold Transfer.Ends at hended
  generalize (c.abandon code e : Transfer σ α) s = r at hended
  cases r with
  | ok a t => exact hended.elim
  | error stop t => exact .error hended.2

theorem Link.Maintains.mirrors {c : Call σ} (h : c.link.Maintains P) :
    c.Mirrors c.link (fun w l => w = l ∧ P w) fun _ => P where
  receive := by
    intro w l hr
    obtain ⟨rfl, hw⟩ := hr
    exact ⟨rfl, rfl, h.receive hw⟩
  note := by
    intro w l hr r
    obtain ⟨rfl, hw⟩ := hr
    exact ⟨rfl, h.note hw r⟩
  now := fun hr => congrArg c.link.now hr.1
  sleep := by
    intro w l hr t
    obtain ⟨rfl, hw⟩ := hr
    exact ⟨rfl, h.sleep hw t⟩
  cancelled := fun hr => congrArg c.link.cancelled hr.1
  send := by
    intro w l hr m _ _
    obtain ⟨rfl, hw⟩ := hr
    exact ⟨rfl, rfl, h.send hw m⟩
  stop := fun hr _ _ => hr.2
  abandon := fun code e _ => h.lockstep_abandon code e
  noted := fun hw r => h.note hw r

theorem perform_maintains {client : Client σ} (h : client.link.Maintains P) {w : σ} (hw : P w)
    (node : UInt8) (target : Address) (op : Operation) :
    P (client.perform node target op w).2 := by
  have hmirrors : ∀ n : NodeId, n.value = node → ∀ direction,
      (client.call n target direction).Mirrors client.link (fun w l => w = l ∧ P w) fun _ => P :=
    fun n _ direction => Link.Maintains.mirrors (c := client.call n target direction) h
  have hparallel := perform_parallel hmirrors (fun _ _ => hw) ⟨rfl, h.resume hw⟩
    (fun hr _ _ => hr.2) op
  cases hresult : (client.perform node target op w).1 with
  | ok v => exact (hparallel.value v hresult).2
  | error e => exact hparallel.failure e hresult

end Client

namespace Network

/-- A network in working order with one server, of these settings. -/
def Houses (taps : Nat) (settings : NodeId × UInt8 × Bool) (n : Network) : Prop :=
  n.bus.connected = true ∧ n.bus.queues.length = taps ∧ n.cancelled = [] ∧
    ∃ s : Server, n.bus.devices = [.server s] ∧ s.settings = settings

variable {taps : Nat} {settings : NodeId × UInt8 × Bool} {n : Network}

theorem Houses.note (h : n.Houses taps settings) (r : Record) : (n.note r).Houses taps settings := h

theorem Houses.foldl_note (h : n.Houses taps settings) (rs : List Record) :
    ((rs.map Effect.report).foldl takeEffect n).Houses taps settings := by
  induction rs generalizing n with
  | nil => exact h
  | cons r rs ih => exact ih (h.note r)

theorem Houses.send (h : n.Houses taps settings) (tap : Nat) (m : Message) :
    (n.send tap m).2.Houses taps settings := by
  obtain ⟨hconnected, htaps, hcalm, s, hdevices, hsettings⟩ := h
  let bus : Bus Device := (s.handle m).frames.foldl (Bus.deliver none)
    { n.bus.deliver (some tap) m with devices := [.server (s.handle m).device] }
  have hreact : Bus.react respond m [.server s] =
      { frames := (s.handle m).frames
        effects := (s.handle m).effects.map Effect.report
        device := [.server (s.handle m).device] } := by
    simp [Bus.react, respond, Reaction.map]
  have hbus : n.bus.send respond tap m
      = (.ok ((s.handle m).effects.map Effect.report), bus) := by
    have hsame : (n.bus.deliver (some tap) m).devices = [.server s] := hdevices
    rw [Bus.send, if_pos hconnected]
    dsimp only
    rw [hsame, hreact]
  have hhouses : ({ n with bus } : Network).Houses taps settings := by
    have hdelivered : bus = _ := Bus.foldl_deliver _ _
    refine ⟨?_, ?_, hcalm, (s.handle m).device, ?_, (s.settings_handle m).trans hsettings⟩
    · rw [hdelivered]
      exact hconnected
    · rw [hdelivered]
      simp [Bus.deliver, htaps]
    · rw [hdelivered]
  rw [Network.send, hbus]
  exact hhouses.foldl_note _

theorem Houses.receive (h : n.Houses taps settings) (tap : Nat) :
    (n.receive tap).2.Houses taps settings := by
  obtain ⟨hconnected, htaps, hcalm, hserver⟩ := h
  rw [Network.receive, Bus.receive, if_pos hconnected]
  cases n.bus.queues[tap]? with
  | none => exact ⟨hconnected, htaps, hcalm, hserver⟩
  | some queue =>
    cases queue with
    | nil => exact ⟨hconnected, htaps, hcalm, hserver⟩
    | cons m queue => exact ⟨hconnected, List.length_set.trans htaps, hcalm, hserver⟩

theorem maintains (tap client : Nat) : (link tap client).Maintains (Houses taps settings) where
  note h r := h.note r
  send h m := h.send tap m
  receive h := h.receive tap
  sleep h _ := h
  resume h := by
    obtain ⟨hconnected, htaps, hcalm, hserver⟩ := h
    refine ⟨hconnected, htaps, ?_, hserver⟩
    show (_ : List Nat).filter _ = []
    rw [hcalm]
    rfl

theorem maintains_beneath (tap client : Nat) :
    (Fanout.beneath (link tap client)).Maintains fun f => f.world.Houses taps settings where
  note h r := h.note r
  send h m := h.send tap m
  receive h := h.receive tap
  sleep h _ := h
  resume h := (maintains tap client).resume h

end Network

end Canopen
