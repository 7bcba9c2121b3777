import Canopen.Proofs.BlockStreams
import Canopen.Proofs.Formats
import Canopen.Proofs.GuardedServer
import Canopen.Proofs.Storing

set_option autoImplicit false

namespace Canopen

open Can (Message)
open Guarded

namespace Sdo

theorem Response.exists_ofMessage_message (r : Response) (node : NodeId) :
    ∃ read, ofMessage (r.message node) = .ok read := by
  have hhead : (Frame.ofResponse node r).payload.get 0 = r.toBytes.get 0 :=
    Frame.build_payload_head .server node r.transferType r.toBytes
  have hknown : unknown (r.toBytes.get 0) = false := by
    cases h : unknown (r.toBytes.get 0) with
    | false => rfl
    | true =>
      have hread := r.trimmed.ofPayload_toBytes r.fits_trimmed
      rw [r.toBytes_trimmed, ofPayload_unknown h] at hread
      cases hread
  obtain ⟨read, hread, -⟩ := ofPayload_known (hhead ▸ hknown)
  refine ⟨read, ?_⟩
  unfold ofMessage message Frame.ofResponse
  rw [Frame.decode_encode_build r.ofCommand?_head]
  exact hread

end Sdo

open Sdo

namespace Server

/-- There is room for each of the objects. -/
def Dictionary.Within (d : Dictionary) (room : Nat) : Prop := ∀ e ∈ d.entries, e.2.length ≤ room

def Dictionary.longest (d : Dictionary) : Nat := (d.entries.map (·.2.length)).foldr max 0

/-- Blocks of a download come as whole segments. -/
structure BlockDownload.Sound (t : BlockDownload) (room : Nat) : Prop where
  seqno : t.seqno.toNat ≤ 127
  whole : segmentSize ∣ t.buffer.length
  fits : t.buffer.length ≤ room

structure BlockUpload.Sound (t : BlockUpload) (room : Nat) : Prop where
  pos : 1 ≤ t.blockSize.toNat
  le : t.blockSize.toNat ≤ 127
  start : t.start < segmentCount t.data
  fits : t.data.length ≤ room

def State.Sound (room : Nat) : State → Prop
  | idle | endUploadBlock => True
  | downloadSegmented _ _ segment _ buffer => segment ≤ room ∧ buffer.length ≤ room
  | uploadSegmented _ _ segment data =>
    segment * segmentSize ≤ data.length ∧ data.length ≤ room
  | downloadBlock t | endDownloadBlock t => t.Sound room
  | uploadBlockInitiated t | uploadBlock t => t.Sound room

/-- What a server remembers is within bounds, and there is room for it. -/
structure Sound (s : Server) (room : Nat) : Prop where
  received : s.received ≤ room
  objects : s.objects.Within room
  state : s.state.Sound room

/-- Nothing, one response, or segments of the block under way. -/
inductive Answer.Form (a : Answer) : Prop
  | silence (silent : a.frames = [])
  | response {m : Message} {r : Response} (one : a.frames = [m])
    (reads : Response.ofMessage m = .ok r)
  | block {t : BlockUpload} {segments : List BlockSegment} (state : a.device.state = .uploadBlock t)
    (reads : a.frames.map BlockSegment.ofMessage = segments.map .ok)
    (count : segments.length ≤ 127)
    (increasing : (segments.map (·.seqno.toNat)).Pairwise (· < ·))
    (numbered : ∀ g ∈ segments, 1 ≤ g.seqno.toNat ∧ g.seqno.toNat ≤ 127)
    (last : ∀ g ∈ segments, g.last = true ↔ t.start + g.seqno.toNat = segmentCount t.data)

/-- All frames are on the channel of the node for responses, and have eight bytes. -/
structure Answer.WellFormed (a : Answer) (node : NodeId) : Prop where
  frames : ∀ m ∈ a.frames, m.id = .std (0x580 + node.value.toUInt16) ∧ m.dlc = 8
  form : a.Form

theorem Dictionary.within_longest (d : Dictionary) : d.Within d.longest := by
  obtain ⟨entries⟩ := d
  intro e he
  unfold longest
  dsimp only at *
  induction entries with
  | nil => cases he
  | cons e' rest ih =>
    rcases List.mem_cons.mp he with rfl | he
    · exact Nat.le_max_left ..
    · exact Nat.le_trans (ih he) (Nat.le_max_right ..)

theorem Dictionary.Within.get? {d : Dictionary} {room : Nat} (h : d.Within room) {a : Address}
    {object : List UInt8} (hobject : d.get? a = some object) : object.length ≤ room := by
  obtain ⟨before, rest, hentries, -⟩ := List.lookup_eq_some_iff.mp hobject
  exact h (a, object) (by rw [hentries]; exact List.mem_append_right _ List.mem_cons_self)

theorem Dictionary.Within.set {d : Dictionary} {room : Nat} (h : d.Within room) (a : Address)
    {object : List UInt8} (hobject : object.length ≤ room) : (d.set a object).Within room := by
  intro e he
  rcases List.mem_cons.mp he with rfl | he
  · exact hobject
  · exact h e (List.mem_filter.mp he).1

section
variable {room more : Nat}

theorem Dictionary.Within.mono {d : Dictionary} (h : d.Within room) (hle : room ≤ more) :
    d.Within more := fun e he => Nat.le_trans (h e he) hle

theorem BlockDownload.Sound.mono {t : BlockDownload} (h : t.Sound room) (hle : room ≤ more) :
    t.Sound more := ⟨h.seqno, h.whole, Nat.le_trans h.fits hle⟩

theorem BlockUpload.Sound.mono {t : BlockUpload} (h : t.Sound room) (hle : room ≤ more) :
    t.Sound more := ⟨h.pos, h.le, h.start, Nat.le_trans h.fits hle⟩

theorem State.Sound.mono {state : State} (h : state.Sound room) (hle : room ≤ more) :
    state.Sound more := by
  cases state with
  | idle | endUploadBlock => trivial
  | downloadSegmented => exact ⟨Nat.le_trans h.1 hle, Nat.le_trans h.2 hle⟩
  | uploadSegmented => exact ⟨h.1, Nat.le_trans h.2 hle⟩
  | downloadBlock t | endDownloadBlock t => exact BlockDownload.Sound.mono h hle
  | uploadBlockInitiated t | uploadBlock t => exact BlockUpload.Sound.mono h hle

theorem Sound.mono {s : Server} (h : s.Sound room) (hle : room ≤ more) : s.Sound more :=
  ⟨Nat.le_trans h.received hle, h.objects.mono hle, h.state.mono hle⟩

theorem Sound.withState {s : Server} (h : s.Sound room) (state : State)
    (hstate : state.Sound room) : ({ s with state } : Server).Sound room :=
  ⟨h.received, h.objects, hstate⟩

theorem Sound.withObject {s : Server} (h : s.Sound room) (a : Address) {object : List UInt8}
    (hobject : object.length ≤ room) :
    ({ s with objects := s.objects.set a object } : Server).Sound room :=
  ⟨h.received, h.objects.set a hobject, h.state⟩

end

/-- The guards make no difference to an answer, which can be read and leaves the server sound. -/
structure Robust (room : Nat) (node : NodeId) (x : Guarded Answer) (a : Answer) : Prop where
  untrapped : x = .ok a
  sound : a.device.Sound room
  wellFormed : a.WellFormed node

section
variable {limit room : Nat} {s : Server}

theorem Robust.of_ok {α : Type} {node : NodeId} {x : Guarded α} {b : α} {f : α → Guarded Answer}
    {a : Answer} (hx : x = .ok b) (h : Robust room node (f b) a) :
    Robust room node (x >>= f) a := by
  rw [hx]
  exact h

theorem Answer.wellFormed_silent {a : Answer} {node : NodeId} (h : a.frames = []) :
    a.WellFormed node where
  frames := by
    rw [h]
    exact fun _ hm => nomatch hm
  form := .silence h

theorem robust_silent {a : Answer} {node : NodeId} (hs : a.device.Sound room)
    (silent : a.frames = []) : Robust room node (.ok a) a :=
  ⟨rfl, hs, Answer.wellFormed_silent silent⟩

theorem robust_answer (hs : s.Sound room) (r : Response) :
    Robust room s.node (s.guardedAnswer r) (s.answer r) := by
  refine ⟨?_, hs, ?_, ?_⟩
  · rw [guardedAnswer, r.guardedMessage_eq]
    rfl
  · intro m hm
    rw [List.mem_singleton.mp hm]
    exact ⟨r.message_id s.node, rfl⟩
  · obtain ⟨read, hread⟩ := r.exists_ofMessage_message s.node
    exact .response rfl hread

theorem robust_refuse (hs : s.Sound room) (target : Address) (code : AbortCode) :
    Robust room s.node (s.guardedRefuse target code) (s.refuse target code) :=
  robust_answer (hs.withState .idle trivial) _

theorem robust_initiateDownload (hs : s.Sound room) (hroom : 4 ≤ room) {unused : UInt8}
    (hunused : unused.toNat ≤ 3) (expedited sized : Bool) (target : Address)
    (data : Vector UInt8 4) :
    Robust room s.node (s.guardedInitiateDownload unused expedited sized target data)
      (s.initiateDownload unused expedited sized target data) := by
  cases expedited with
  | true =>
    have hobject : ∀ n, (data.toList.take n).length ≤ room := fun n =>
      Nat.le_trans (List.length_take_le' ..) (Nat.le_trans (Nat.le_of_eq data.length_toList) hroom)
    cases sized with
    | true =>
      refine .of_ok (difference_eq (Nat.le_succ_of_le hunused)) ?_
      exact .of_ok (slice_zero_eq (by simp)) (robust_answer (hs.withObject target (hobject _)) _)
    | false =>
      refine .of_ok (b := 4) rfl ?_
      exact .of_ok (slice_zero_eq (by simp)) (robust_answer (hs.withObject target (hobject _)) _)
  | false =>
    exact robust_answer (hs.withState (.downloadSegmented ..) ⟨Nat.zero_le _, Nat.zero_le _⟩) _

theorem guardedAnnouncement_eq {data : List UInt8} (h : data.length < limit) :
    s.guardedAnnouncement limit data = .ok (s.announcement data) := by
  rw [guardedAnnouncement, below_eq h]
  rfl

theorem robust_startUpload (hs : s.Sound room) (hlimit : room < limit) (target : Address)
    {data : List UInt8} (hdata : data.length ≤ room) :
    Robust room s.node (s.guardedStartUpload limit target data) (s.startUpload target data) := by
  unfold guardedStartUpload startUpload
  split
  · rename_i h
    exact .of_ok (Response.guardedExpedited_eq target h.1.2) (robust_answer hs _)
  · have hstart : 0 * segmentSize ≤ data.length := by omega
    refine .of_ok (guardedAnnouncement_eq (by omega)) ?_
    exact robust_answer (hs.withState (.uploadSegmented ..) ⟨hstart, hdata⟩) _

theorem robust_initiateUpload (hs : s.Sound room) (hlimit : room < limit) (target : Address) :
    Robust room s.node (s.guardedInitiateUpload limit target) (s.initiateUpload target) := by
  unfold guardedInitiateUpload initiateUpload
  cases hobject : s.objects.get? target with
  | none => exact robust_refuse hs _ _
  | some data => exact robust_startUpload hs hlimit target (hs.objects.get? hobject)

theorem robust_downloadSegment (hs : s.Sound (room + 7)) (hlimit : room + 7 < limit)
    (target : Address) (expected : Bool) {segment : Nat} (size : Option Nat) {buffer : List UInt8}
    (hstate : segment ≤ room ∧ buffer.length ≤ room) (toggle : Bool) {unused : UInt8}
    (hunused : unused.toNat ≤ 7) (last : Bool) (data : Vector UInt8 7) :
    Robust (room + 7) s.node
      (s.guardedDownloadSegment limit target expected segment size buffer toggle unused last data)
      (s.downloadSegment target expected segment size buffer toggle unused last data) := by
  obtain ⟨hsegment, hbuffer⟩ := hstate
  have hlength : (buffer ++ data.toList.take (7 - unused.toNat)).length ≤ room + 7 := by
    rw [List.length_append, List.length_take]
    omega
  unfold guardedDownloadSegment downloadSegment
  split
  · refine .of_ok (difference_eq hunused) (.of_ok (slice_zero_eq (by simp)) ?_)
    dsimp only
    split
    · split
      · exact robust_answer (hs.withObject target hlength) _
      · exact robust_refuse hs _ _
    · refine .of_ok (sum_eq (by omega)) ?_
      exact robust_answer (hs.withState (.downloadSegmented ..) ⟨by omega, hlength⟩) _
  · exact robust_refuse hs _ _

theorem robust_uploadSegment (hs : s.Sound (room + 7)) (hlimit : room + 7 < limit)
    (target : Address) (expected : Bool) {segment : Nat} {data : List UInt8}
    (hstate : segment * segmentSize ≤ data.length ∧ data.length ≤ room) (toggle : Bool) :
    Robust (room + 7) s.node (s.guardedUploadSegment limit target expected segment data toggle)
      (s.uploadSegment target expected segment data toggle) := by
  obtain ⟨hstart, hdata⟩ := hstate
  have hseven : segmentSize = 7 := rfl
  have hle : segment ≤ segment * segmentSize := Nat.le_mul_of_pos_right _ (by decide)
  have hnext : (segment + 1) * segmentSize = segment * segmentSize + segmentSize := Nat.succ_mul ..
  have hlast : decide (min (segment * segmentSize + segmentSize) data.length = data.length)
      = decide (data.length ≤ (segment + 1) * segmentSize) := by
    rw [decide_eq_decide]
    omega
  unfold guardedUploadSegment uploadSegment
  split
  · refine .of_ok (product_eq (by omega)) (.of_ok (sum_eq (by omega)) ?_)
    refine .of_ok (slice_segment_eq hstart) ?_
    refine .of_ok (Response.guardedSegment_eq _ _ (segmentBytes_length_le data segment)) ?_
    rw [hlast]
    dsimp only
    split
    · exact robust_answer hs _
    · rename_i hmore
      replace hmore : (segment + 1) * segmentSize ≤ data.length := by
        rw [decide_eq_true_iff] at hmore
        omega
      refine .of_ok (sum_eq (by omega)) (.of_ok (assert_eq (by omega)) ?_)
      exact robust_answer
        (hs.withState (.uploadSegmented ..) ⟨hmore, Nat.le_add_right_of_le hdata⟩) _
  · exact robust_refuse hs _ _

theorem robust_initiateBlockDownload (hs : s.Sound room) (crc sized : Bool) (target : Address)
    (size : UInt32) :
    Robust room s.node (s.guardedInitiateBlockDownload crc sized target size)
      (s.initiateBlockDownload crc sized target size) :=
  robust_answer (hs.withState (.downloadBlock _) ⟨Nat.zero_le _, Nat.dvd_zero _, Nat.zero_le _⟩) _

theorem robust_blockSegment (hs : s.Sound (room + 7)) {t : BlockDownload} (ht : t.Sound room)
    {segment : BlockSegment} (hsegment : segment.Fits) :
    Robust (room + 7) s.node (s.guardedBlockSegment t segment) (s.blockSegment t segment) := by
  have hsum : (t.seqno + 1).toNat = t.seqno.toNat + 1 :=
    toNat_succ (Nat.lt_of_le_of_lt ht.seqno (by decide))
  have horder : decide (segment.seqno = t.seqno + 1)
      = decide (segment.seqno.toNat = t.seqno.toNat + 1) := by
    rw [decide_eq_decide, ← hsum]
    exact UInt8.toNat_inj.symm
  unfold guardedBlockSegment blockSegment
  split
  · exact robust_silent ⟨hs.received, hs.objects, hs.state⟩ rfl
  · refine .of_ok (byteSum_one_eq (Nat.lt_of_le_of_lt ht.seqno (by decide))) ?_
    rw [horder]
    dsimp only
    generalize ht' : (if decide (segment.seqno.toNat = t.seqno.toNat + 1) = true then _ else t) = t'
    have hsound : t'.Sound (room + 7) := by
      rw [← ht']
      split
      · have hlength : (t.buffer ++ segment.data.toList).length = t.buffer.length + 7 := by
          rw [List.length_append, Vector.length_toList]
        refine ⟨hsegment, ?_, ?_⟩
        · dsimp only
          rw [hlength]
          exact Nat.dvd_add ht.whole (Nat.dvd_refl 7)
        · dsimp only
          rw [hlength]
          exact Nat.add_le_add_right ht.fits 7
      · exact ht.mono (Nat.le_add_right ..)
    split
    · exact robust_silent (hs.withState (.downloadBlock t') hsound) rfl
    · split
      · exact robust_answer (hs.withState (.endDownloadBlock t') hsound) _
      · refine robust_answer (hs.withState (.downloadBlock _) ?_) _
        split
        · exact ⟨Nat.zero_le _, hsound.whole, hsound.fits⟩
        · exact hsound

theorem robust_endBlockDownload (hs : s.Sound room) {t : BlockDownload} (ht : t.Sound room)
    (unused : UInt8) (checksum : UInt16) :
    Robust room s.node (s.guardedEndBlockDownload t unused checksum)
      (s.endBlockDownload t unused checksum) := by
  have hobject : (t.buffer.take (t.buffer.length - unused.toNat)).length ≤ room :=
    Nat.le_trans (List.length_take_le' ..) ht.fits
  unfold guardedEndBlockDownload endBlockDownload
  dsimp only
  split
  · exact robust_refuse hs _ _
  · split
    · exact robust_answer (hs.withObject t.target hobject) _
    · exact robust_refuse hs _ _

theorem blockSize_bounds {blockSize : UInt8} (h : ¬(blockSize = 0 ∨ 127 < blockSize)) :
    1 ≤ blockSize.toNat ∧ blockSize.toNat ≤ 127 := by
  refine ⟨Nat.pos_of_ne_zero fun h0 => h (.inl (UInt8.toNat_inj.mp h0)), ?_⟩
  exact Nat.le_of_not_lt fun hlt => h (.inr hlt)

theorem robust_initiateBlockUpload (hs : s.Sound room) (hlimit : room < limit) (crc : Bool)
    (target : Address) (blockSize threshold : UInt8) :
    Robust room s.node (s.guardedInitiateBlockUpload limit crc target blockSize threshold)
      (s.initiateBlockUpload crc target blockSize threshold) := by
  unfold guardedInitiateBlockUpload initiateBlockUpload
  cases hobject : s.objects.get? target with
  | none => exact robust_refuse hs _ _
  | some data =>
    have hdata := hs.objects.get? hobject
    dsimp only
    split
    · exact robust_startUpload hs hlimit target hdata
    · split
      · exact robust_refuse hs _ _
      · rename_i hsize
        obtain ⟨hpos, hle⟩ := blockSize_bounds hsize
        refine .of_ok (guardedAnnouncement_eq (by omega)) ?_
        exact robust_answer
          (hs.withState (.uploadBlockInitiated _) ⟨hpos, hle, segmentCount_pos data, hdata⟩) _

theorem BlockUpload.length_le (t : BlockUpload) :
    t.length ≤ t.blockSize.toNat ∧ t.length ≤ segmentCount t.data - t.start :=
  ⟨Nat.min_le_left .., Nat.min_le_right ..⟩

theorem BlockUpload.guardedLength_eq {t : BlockUpload} (ht : t.Sound room) :
    t.guardedLength = .ok (UInt8.ofNat t.length) := by
  have hle := ht.le
  have hlength := t.length_le
  rw [guardedLength, difference_eq (Nat.le_of_lt ht.start), bind_ok]
  exact toByte_eq (Nat.lt_of_le_of_lt hlength.1 (Nat.lt_of_le_of_lt hle (by decide)))

def invertByte (fault : Option Nat) (start : Nat) (bytes : List UInt8) : List UInt8 :=
  match fault with
  | some offset =>
    if start ≤ offset then bytes.modify (offset - start) (· ^^^ 0xFF) else bytes
  | none => bytes

theorem length_invertByte (fault : Option Nat) (start : Nat) (bytes : List UInt8) :
    (invertByte fault start bytes).length = bytes.length := by
  unfold invertByte
  split
  · split
    · exact List.length_modify ..
    · rfl
  · rfl

theorem guardedInvert_eq (fault : Option Nat) {start stop : Nat} {bytes : List UInt8}
    (h : bytes.length = stop - start) :
    guardedInvert fault start stop bytes = .ok (invertByte fault start bytes) := by
  cases fault with
  | none => rfl
  | some offset =>
    unfold guardedInvert invertByte
    dsimp only
    by_cases hstart : start ≤ offset
    · rw [if_pos hstart]
      by_cases hstop : offset < stop
      · rw [if_pos ⟨hstart, hstop⟩, difference_eq hstart, bind_ok, invert_eq (by omega)]
      · rw [if_neg fun h => hstop h.2, List.modify_eq_self (by omega)]
        rfl
    · rw [if_neg hstart, if_neg fun h => hstart h.1]
      rfl

theorem guardedBlockUploadSegment_eq (hlimit : room + 7 < limit) {t : BlockUpload}
    (ht : t.Sound room) {n : Nat} (hpos : 1 ≤ n) (hle : n ≤ t.length) :
    s.guardedBlockUploadSegment limit t n = .ok (s.blockUploadSegment t n) := by
  have hseven : segmentSize = 7 := rfl
  have hfits := ht.fits
  have hsize := ht.le
  have hlength := t.length_le
  have hcount := segmentCount_le t.data
  unfold blockUploadSegment
  dsimp only
  generalize hi : t.start + n - 1 = i
  have hstart : i * segmentSize ≤ t.data.length := start_le_length (by omega)
  rw [guardedBlockUploadSegment, sum_eq (by omega), bind_ok, difference_eq (by omega), bind_ok, hi]
  split
  · rfl
  · have hstop := stop_sub_start hstart
    generalize hbytes : invertByte s.faults.invertUploadByte (i * segmentSize)
      (segmentBytes t.data i) = bytes
    have hlen : bytes.length = (segmentBytes t.data i).length := by
      rw [← hbytes, length_invertByte]
    rw [product_eq (by omega), bind_ok, sum_eq (by omega), bind_ok]
    dsimp only
    rw [slice_segment_eq hstart, bind_ok, guardedInvert_eq _ hstop.symm, bind_ok,
      difference_eq (by omega), bind_ok, hstop, hbytes, ← hlen,
      copy_eq (hlen ▸ segmentBytes_length_le t.data i), bind_ok, sum_eq (by omega), bind_ok,
      toByte_eq (by omega), bind_ok, BlockSegment.guardedMessage_eq]
    subst hbytes
    rfl

theorem exists_segments_of_filterMap (t : BlockUpload) (ns : List Nat)
    (hns : ∀ n ∈ ns, 1 ≤ n ∧ n ≤ 127) :
    ∃ segments : List BlockSegment,
      (ns.filterMap (s.blockUploadSegment t)).map BlockSegment.ofMessage = segments.map .ok ∧
        (segments.map (·.seqno.toNat)).Sublist ns ∧
        ∀ g ∈ segments, g.last = true ↔ t.start + g.seqno.toNat = segmentCount t.data := by
  induction ns with
  | nil => exact ⟨[], rfl, .slnil, fun _ hg => nomatch hg⟩
  | cons n rest ih =>
    obtain ⟨hn, hrest⟩ := List.forall_mem_cons.mp hns
    obtain ⟨segments, hreads, hsub, hlast⟩ := ih hrest
    rw [List.filterMap_cons]
    cases hm : s.blockUploadSegment t n with
    | none => exact ⟨segments, hreads, hsub.cons n, hlast⟩
    | some m =>
      obtain ⟨segment, rfl, hseqno, hends⟩ := exists_of_blockUploadSegment hm
      have htoNat : segment.seqno.toNat = n := by
        rw [hseqno]
        exact UInt8.toNat_ofNat_of_lt' (Nat.lt_of_le_of_lt hn.2 (by decide))
      have hread : BlockSegment.ofMessage (segment.message .server s.node) = .ok segment :=
        BlockSegment.ofMessage_message .server s.node (by omega)
      refine ⟨segment :: segments, ?_, ?_, List.forall_mem_cons.mpr ⟨?_, hlast⟩⟩
      · rw [List.map_cons, List.map_cons, hread, hreads]
      · rw [List.map_cons, htoNat]
        exact hsub.cons_cons n
      · rw [hends, htoNat]
        omega

theorem filterMapM_eq {α β : Type} {f : α → Guarded (Option β)} {g : α → Option β} {l : List α}
    (h : ∀ a ∈ l, f a = .ok (g a)) : l.filterMapM f = .ok (l.filterMap g) := by
  induction l with
  | nil => rfl
  | cons a rest ih =>
    obtain ⟨ha, hrest⟩ := List.forall_mem_cons.mp h
    rw [List.filterMapM_cons, ha, ih hrest, List.filterMap_cons]
    cases g a <;> rfl

theorem robust_sendBlock (hs : s.Sound (room + 7)) (hlimit : room + 7 < limit) {t : BlockUpload}
    (ht : t.Sound room) (first : UInt8) (hpos : 1 ≤ first.toNat) :
    Robust (room + 7) s.node (s.guardedSendBlock limit t first) (s.sendBlock t first.toNat) := by
  have hle := Nat.le_trans t.length_le.1 ht.le
  have hlength : (UInt8.ofNat t.length).toNat = t.length :=
    UInt8.toNat_ofNat_of_lt' (Nat.lt_of_le_of_lt hle (by decide))
  have hns : ∀ n ∈ List.range' first.toNat (t.length + 1 - first.toNat), 1 ≤ n ∧ n ≤ t.length := by
    intro n hn
    rw [List.mem_range'_1] at hn
    omega
  obtain ⟨segments, hreads, hsub, hlast⟩ := exists_segments_of_filterMap (s := s) t
    (List.range' first.toNat (t.length + 1 - first.toNat))
    fun n hn => ⟨(hns n hn).1, Nat.le_trans (hns n hn).2 hle⟩
  have hstate : State.Sound (room + 7) (.uploadBlock t) := ht.mono (Nat.le_add_right ..)
  refine ⟨?_, ⟨hs.received, hs.objects, hstate⟩, ?_, .block rfl hreads ?_ ?_ ?_ hlast⟩
  · rw [guardedSendBlock, BlockUpload.guardedLength_eq ht, bind_ok, hlength]
    dsimp only
    rw [filterMapM_eq fun n hn => guardedBlockUploadSegment_eq hlimit ht (hns n hn).1 (hns n hn).2]
    rfl
  · intro m hm
    obtain ⟨n, -, hn⟩ := List.mem_filterMap.mp hm
    obtain ⟨segment, rfl, -, -⟩ := exists_of_blockUploadSegment hn
    exact ⟨segment.message_server_id s.node, rfl⟩
  · have hcount := hsub.length_le
    rw [List.length_map, List.length_range'] at hcount
    omega
  · exact (List.pairwise_lt_range' ..).sublist hsub
  · intro g hg
    have hn := hns _ (hsub.subset (List.mem_map_of_mem hg))
    exact ⟨hn.1, Nat.le_trans hn.2 hle⟩

theorem robust_confirmBlock (hs : s.Sound (room + 7)) (hlimit : room + 7 < limit) {t : BlockUpload}
    (ht : t.Sound room) (seqno blockSize : UInt8) :
    Robust (room + 7) s.node (s.guardedConfirmBlock limit t seqno blockSize)
      (s.confirmBlock t seqno blockSize) := by
  have hlength := t.length_le
  have hle := Nat.le_trans hlength.1 ht.le
  have htoNat : (UInt8.ofNat t.length).toNat = t.length :=
    UInt8.toNat_ofNat_of_lt' (Nat.lt_of_le_of_lt hle (by decide))
  have hcount := segmentCount_le t.data
  have hfits := ht.fits
  have hstart := ht.start
  refine .of_ok (BlockUpload.guardedLength_eq ht) ?_
  unfold confirmBlock
  simp only [UInt8.lt_iff_toNat_lt, htoNat]
  split
  · exact robust_refuse hs _ _
  · split
    · have hsum : (seqno + 1).toNat = seqno.toNat + 1 := toNat_succ (by omega)
      rw [← hsum]
      exact .of_ok (byteSum_one_eq (by omega)) (robust_sendBlock hs hlimit ht _ (by omega))
    · split
      · exact robust_refuse hs _ _
      · rename_i hsize
        obtain ⟨hpos, hsize⟩ := blockSize_bounds hsize
        refine .of_ok (sum_eq (by omega)) ?_
        split
        · rename_i hmore
          have hnext : BlockUpload.Sound { t with start := t.start + t.length, blockSize } room :=
            ⟨hpos, hsize, hmore, hfits⟩
          exact robust_sendBlock hs hlimit hnext 1 (Nat.le_refl 1)
        · have hunused := unused_le t.data
          have hspec := segmentCount_spec t.data
          refine .of_ok (product_eq (by omega)) (.of_ok (difference_eq hspec.1) ?_)
          refine .of_ok (toByte_eq (by omega)) ?_
          exact robust_answer (hs.withState .endUploadBlock trivial) _

theorem robust_unexpected (hs : s.Sound room) (text : String) :
    Robust room s.node
      (do return {
        ← s.guardedRefuse ⟨0, 0⟩ .invalidCommandSpecifier with effects := [⟨.warn, text⟩] })
      { s.refuse ⟨0, 0⟩ .invalidCommandSpecifier with effects := [⟨.warn, text⟩] } := by
  obtain ⟨huntrapped, hsound, hframes, -⟩ := robust_refuse hs ⟨0, 0⟩ .invalidCommandSpecifier
  obtain ⟨read, hread⟩ := Response.exists_ofMessage_message
    (.abortWith ⟨0, 0⟩ .invalidCommandSpecifier) s.node
  exact .of_ok huntrapped ⟨rfl, hsound, hframes, .response rfl hread⟩

theorem robust_proceed (hs : s.Sound (room + 7)) (hstate : s.state.Sound room)
    (hlimit : room + 7 < limit) {r : Request} (hr : r.Fits) :
    Robust (room + 7) s.node (s.guardedProceed limit r) (s.proceed r) := by
  have hidle := hs.withState .idle trivial
  unfold guardedProceed proceed
  dsimp only
  generalize s.state = before at hstate
  cases r with
  | initiateDownload => exact robust_initiateDownload hidle (by omega) hr _ _ _ _
  | initiateUpload => exact robust_initiateUpload hidle hlimit _
  | initiateBlockDownload => exact robust_initiateBlockDownload hidle _ _ _ _
  | initiateBlockUpload => exact robust_initiateBlockUpload hidle hlimit _ _ _ _
  | downloadSegment =>
    cases before with
    | downloadSegmented => exact robust_downloadSegment hidle hlimit _ _ _ hstate _ hr _ _
    | _ => exact robust_unexpected hidle _
  | uploadSegment =>
    cases before with
    | uploadSegmented => exact robust_uploadSegment hidle hlimit _ _ hstate _
    | _ => exact robust_unexpected hidle _
  | endBlockDownload =>
    cases before with
    | endDownloadBlock t =>
      exact robust_endBlockDownload hidle (hstate.mono (Nat.le_add_right room 7)) _ _
    | _ => exact robust_unexpected hidle _
  | startBlockUpload =>
    cases before with
    | uploadBlockInitiated t | uploadBlock t =>
      exact robust_sendBlock hidle hlimit hstate 1 (Nat.le_refl 1)
    | _ => exact robust_unexpected hidle _
  | confirmBlock =>
    cases before with
    | uploadBlock t => exact robust_confirmBlock hidle hlimit hstate _ _
    | _ => exact robust_unexpected hidle _
  | confirmBlockUploadEnd =>
    cases before with
    | endUploadBlock => exact robust_silent hidle rfl
    | _ => exact robust_unexpected hidle _
  | abort => cases before <;> exact robust_unexpected hidle _

theorem robust_request (hs : s.Sound (room + 7)) (hstate : s.state.Sound room)
    (hlimit : room + 7 < limit) {r : Request} (hr : r.Fits) :
    Robust (room + 7) s.node (s.guardedRequest limit r) (s.request r) := by
  cases r with
  | abort target code => exact robust_silent ⟨hs.received, hs.objects, trivial⟩ rfl
  | _ =>
    unfold guardedRequest request
    dsimp only
    generalize initiated? _ = started
    cases s.faults.abortWith with
    | none => exact robust_proceed hs hstate hlimit hr
    | some code =>
      cases started with
      | none => exact robust_proceed hs hstate hlimit hr
      | some target => exact robust_refuse hs target code

theorem robust_readRequest (hs : s.Sound (room + 7)) (hstate : s.state.Sound room)
    (hlimit : room + 7 < limit) (m : Message) :
    Robust (room + 7) s.node (s.guardedReadRequest limit m) (s.readRequest m) := by
  refine .of_ok (Request.guardedOfMessage_eq m) ?_
  unfold readRequest
  cases hr : Request.ofMessage m with
  | error e => exact robust_silent hs rfl
  | ok r => exact robust_request hs hstate hlimit (Request.fits_ofMessage hr)

theorem robust_readSegment (hs : s.Sound (room + 7)) {t : BlockDownload} (ht : t.Sound room)
    (m : Message) :
    Robust (room + 7) s.node (s.guardedReadSegment t m) (s.readSegment t m) := by
  refine .of_ok (BlockSegment.guardedOfMessage_eq m) ?_
  unfold readSegment
  cases hsegment : BlockSegment.ofMessage m with
  | error e => exact robust_silent hs rfl
  | ok segment => exact robust_blockSegment hs ht (BlockSegment.fits_ofMessage hsegment)

theorem robust_read (hs : s.Sound (room + 7)) (hstate : s.state.Sound room)
    (hlimit : room + 7 < limit) (m : Message) :
    Robust (room + 7) s.node (s.guardedRead limit m) (s.read m) := by
  have hrequest := robust_readRequest hs hstate hlimit m
  unfold guardedRead read
  cases hbefore : s.state with
  | downloadBlock t =>
    rw [hbefore] at hstate
    dsimp only
    split
    · exact hrequest
    · exact robust_readSegment hs hstate m
  | _ => exact hrequest

theorem robust_handle (hs : s.Sound room) (hlimit : room + 7 < limit) (m : Message) :
    Robust (room + 7) s.node (s.guardedHandle limit m) (s.handle m) := by
  have hmore : s.Sound (room + 7) := hs.mono (Nat.le_add_right room 7)
  have hreceived : s.received + 1 ≤ room + 7 := by
    have hreceived := hs.received
    omega
  unfold guardedHandle handle
  split
  · refine .of_ok (sum_eq (by omega)) ?_
    dsimp only
    split
    · exact robust_silent ⟨hreceived, hmore.objects, hmore.state⟩ rfl
    · split
      · rename_i hignore
        refine .of_ok (difference_eq hignore) ?_
        exact robust_silent ⟨hreceived, hmore.objects, hmore.state⟩ rfl
      · exact robust_read (s := { s with received := s.received + 1 })
          ⟨hreceived, hmore.objects, hmore.state⟩ hs.state hlimit m
  · exact robust_silent hmore rfl

theorem Sound.after {s : Server} {room : Nat} (hs : s.Sound room) (events : List Event) :
    (s.after events).Sound (room + 7 * events.length) := by
  induction events generalizing s room with
  | nil => exact hs
  | cons e rest ih =>
    have hmeet : (s.meet e).Sound (room + 7) := by
      cases e with
      | message m => exact (robust_handle hs (Nat.lt_succ_self _) m).sound
      | settings blockSize crc faults =>
        have hmore := hs.mono (Nat.le_add_right room 7)
        exact ⟨hmore.received, hmore.objects, hmore.state⟩
    refine (ih hmeet).mono ?_
    rw [List.length_cons]
    omega

/-- A server that was made anew stands whatever has come since. What it remembers of a transfer is
within bounds; no message runs into a trap, if there is room for the objects and for seven bytes of
each message; all that it says can be read; and messages on other channels are passed over. The
limit may be that of positions in memory, or `2 ^ 32`, below which four bytes tell each size. -/
theorem stands_whatever_comes (node : NodeId) (objects : Dictionary) (blockSize : UInt8)
    (crc : Bool) (faults : Faults) (events : List Event) :
    let s : Server := { node, objects, blockSize, crc, faults }
    let t := s.after events
    let room := objects.longest + 7 * events.length
    t.Sound room ∧ ∀ m : Message,
      (∀ limit, room + 7 < limit → t.guardedHandle limit m = .ok (t.handle m)) ∧
      (t.handle m).WellFormed node ∧
      (m.id ≠ .std (0x600 + node.value.toUInt16) → t.handle m = t.quiet) := by
  intro s t room
  have hs : s.Sound objects.longest := ⟨Nat.zero_le _, objects.within_longest, trivial⟩
  have ht : t.Sound room := hs.after events
  have hnode : t.node = node := after_node events s
  refine ⟨ht, fun m => ⟨fun limit hlimit => (robust_handle ht hlimit m).untrapped, ?_, ?_⟩⟩
  · have hformed := (robust_handle ht (Nat.lt_succ_self _) m).wellFormed
    rw [hnode] at hformed
    exact hformed
  · intro hid
    refine t.handle_of_ne ?_
    rw [hnode]
    exact hid

end

end Server

end Canopen
