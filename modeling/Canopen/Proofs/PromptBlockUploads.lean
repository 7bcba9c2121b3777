import Canopen.Proofs.BlockUpload
import Canopen.Proofs.PromptUploads

/-!
Block uploads over a link on which the server answers at once, but where there is only so much
room. The end of a longer block is lost. The client asks for it when nothing more comes, which
takes one retry for each such block.
-/

set_option autoImplicit false

namespace Canopen

open Can (Message)
open Sdo

/-- How many of the blocks of a transfer are longer than there is room for. -/
def longBlocks (room blockSize segments : Nat) : Nat :=
  if room < blockSize then segments / blockSize + (if room < segments % blockSize then 1 else 0)
  else 0

theorem longBlocks_of_le {room blockSize : Nat} (h : blockSize ≤ room) (segments : Nat) :
    longBlocks room blockSize segments = 0 :=
  if_neg (Nat.not_lt.mpr h)

theorem longBlocks_last {room blockSize left : Nat} (h0 : 0 < left) (hl : left ≤ blockSize) :
    longBlocks room blockSize left = if room < left then 1 else 0 := by
  unfold longBlocks
  by_cases hr : room < blockSize
  · rw [if_pos hr]
    rcases Nat.lt_or_eq_of_le hl with hlt | rfl
    · rw [Nat.div_eq_of_lt hlt, Nat.mod_eq_of_lt hlt, Nat.zero_add]
    · rw [Nat.div_self h0, Nat.mod_self, if_neg (Nat.not_lt_zero _), if_pos hr]
  · rw [if_neg hr, if_neg (by omega)]

theorem longBlocks_more {room blockSize left : Nat} (h0 : 0 < blockSize) (hl : blockSize ≤ left) :
    longBlocks room blockSize left =
      (if room < blockSize then 1 else 0) + longBlocks room blockSize (left - blockSize) := by
  unfold longBlocks
  by_cases hr : room < blockSize
  · rw [if_pos hr, if_pos hr, if_pos hr, Nat.div_eq_sub_div h0 hl, Nat.mod_eq_sub_mod hl]
    omega
  · rw [if_neg hr, if_neg hr, if_neg hr]

namespace Server

theorem BlockUpload.length_segments (t : BlockUpload) (node : NodeId) (first count : Nat) :
    (t.segments node first count).length = count := by
  rw [segments, List.length_map, List.length_range']

theorem BlockUpload.frames_eq_segments (t : BlockUpload) (node : NodeId) {j count : Nat}
    (h : j + count = t.length) : t.frames node (j + 1) = t.segments node (j + 1) count := by
  have hcount : t.length + 1 - (j + 1) = count := by omega
  rw [frames, segments, hcount]

theorem BlockUpload.take_frames (t : BlockUpload) (node : NodeId) {count : Nat}
    (h : count ≤ t.length) : (t.frames node 1).take count = t.segments node 1 count := by
  have happend := t.segments_append_frames node (show 0 + count ≤ t.length by omega)
  rw [Nat.zero_add] at happend
  rw [← happend, List.take_left' (t.length_segments node 1 count)]

end Server

namespace Client.Call

open Transfer

variable {σ : Type} {c : Call σ} {room : Nat} {V : σ → Server → List Message → Prop}
variable {srv : Server} {s : Session σ} {object : List UInt8} {start : Nat} {crc : Bool}

def blockAt (c : Call σ) (crc : Bool) (object : List UInt8) (start : Nat) : Server.BlockUpload :=
  .blockAt c.target crc c.config.blockSize object start

theorem length_blockAt : (c.blockAt crc object start).length
    = min c.config.blockSize.toNat (segmentCount object - start) := rfl

theorem segments_blockAt (node : NodeId) (j count : Nat) :
    (c.blockAt crc object start).segments node (j + 1) (count + 1) =
      (blockSegment object (start + j) (UInt8.ofNat (j + 1))).message .server node
        :: (c.blockAt crc object start).segments node (j + 2) count :=
  Server.BlockUpload.segments_succ _ node j count

def Delivered (c : Call σ) (V : σ → Server → List Message → Prop) (srv : Server) (crc : Bool)
    (object : List UInt8) (t : Session σ) : Prop :=
  t.buffer = filled object (segmentCount object) ∧
    ∃ i, i < segmentCount object ∧ segmentCount object - i ≤ c.config.blockSize.toNat ∧
      t.seqno = UInt8.ofNat (segmentCount object - i) ∧
      c.Sees V t srv (.uploadBlock (c.blockAt crc object i)) []

/-- An upload has stopped within a block, when there were no retries left. -/
def Exhausted (c : Call σ) (V : σ → Server → List Message → Prop) (srv : Server) (e : Stop)
    (t : Session σ) : Prop :=
  e = .failed (.timeout 1) ∧ ∃ b, c.Sees V t srv (.uploadBlock b) []

namespace Prompt

variable (h : c.Prompt room V)
  (hb : 0 < c.config.blockSize.toNat ∧ c.config.blockSize.toNat ≤ 127)
include h hb

omit h in
theorem length_frames_le : ((c.blockAt crc object start).frames c.node 1).length ≤ 127 := by
  rw [Server.BlockUpload.frames_eq_segments (j := 0) _ _ (Nat.zero_add _),
    Server.BlockUpload.length_segments, length_blockAt]
  omega

theorem ends_receiveSegment {j n : Nat} (hj : j < (c.blockAt crc object start).length)
    {ms : List Message} {state : Server.State}
    (hs : c.Sees V s srv state
      ((blockSegment object (start + j) (UInt8.ofNat (j + 1))).message .server c.node :: ms))
    (hseq : s.seqno.toNat = j) {request : Request} {attempts : UInt32}
    {Q : Unit → Session σ → Prop} {E : Stop → Session σ → Prop}
    (goes : ∀ w d transferred,
      let t : Session σ :=
        { s with
          world := w, deadline := d, seqno := UInt8.ofNat (j + 1)
          buffer := s.buffer ++ (padTo 7 (segmentBytes object (start + j))).toList
          transferred }
      c.Sees V t srv state ms →
      Ends (if j + 1 = (c.blockAt crc object start).length then
          if start + (c.blockAt crc object start).length = segmentCount object then pure ()
          else do c.receiveBlocks (← c.acknowledge) 1 n
        else c.receiveBlocks request 1 n) t Q E) :
    Ends (c.receiveBlocks request attempts (n + 1)) s Q E := by
  refine ends_receiveBlocks_next object start j hb.2 hj
    (P := fun t => ∃ w, t = { s with world := w } ∧ c.Sees V t srv state ms)
    (h.ends_nextMessage_cons hs (BlockSegment.message_server_id _ c.node) fun w hw =>
      ⟨rfl, hseq, w, rfl, hw⟩) ?_
  rintro _ transferred ⟨w, rfl, hw⟩
  exact goes w (c.link.now w + c.config.timeout) transferred ⟨hw.1, Nat.le_refl _⟩

theorem ends_receiveSegments {j m n : Nat} (hm : j + (m + 1) ≤ (c.blockAt crc object start).length)
    {state : Server.State}
    (hs : c.Sees V s srv state ((c.blockAt crc object start).segments c.node (j + 1) (m + 1)))
    (hseq : s.seqno.toNat = j) (hbuffer : s.buffer = filled object (start + j)) {request : Request}
    {attempts : UInt32} {Q : Unit → Session σ → Prop} {E : Stop → Session σ → Prop}
    (goes : ∀ w d transferred,
      let t : Session σ :=
        { s with
          world := w, deadline := d, seqno := UInt8.ofNat (j + (m + 1))
          buffer := filled object (start + (j + (m + 1))), transferred }
      c.Sees V t srv state [] →
      Ends (if j + (m + 1) = (c.blockAt crc object start).length then
          if start + (c.blockAt crc object start).length = segmentCount object then pure ()
          else do c.receiveBlocks (← c.acknowledge) 1 n
        else c.receiveBlocks request 1 n) t Q E) :
    Ends (c.receiveBlocks request attempts (n + (m + 1))) s Q E := by
  have hlength : (c.blockAt crc object start).length ≤ c.config.blockSize.toNat :=
    Nat.min_le_left _ _
  have hfilled : ∀ j, filled object (start + j)
      ++ (padTo 7 (segmentBytes object (start + j))).toList = filled object (start + (j + 1)) :=
    fun j => (filled_succ object (start + j)).symm
  -- On the number of segments behind the first.
  induction m generalizing j s attempts with
  | zero =>
    rw [segments_blockAt] at hs
    refine h.ends_receiveSegment hb (show j < (c.blockAt crc object start).length by omega) hs hseq
      fun w d transferred hw => ?_
    rw [hbuffer, hfilled] at hw ⊢
    exact goes w d transferred hw
  | succ m ih =>
    have hnumber : (UInt8.ofNat (j + 1)).toNat = j + 1 :=
      UInt8.toNat_ofNat_of_lt (show _ < 256 by omega)
    have hsum : j + (m + 1 + 1) = j + 1 + (m + 1) := by omega
    have hmore : n + (m + 1 + 1) = n + (m + 1) + 1 := by omega
    rw [segments_blockAt] at hs
    rw [hmore]
    refine h.ends_receiveSegment hb (show j < (c.blockAt crc object start).length by omega) hs hseq
      fun w d transferred hw => ?_
    rw [if_neg (by omega)]
    rw [hbuffer, hfilled] at hw ⊢
    rw [hsum] at goes
    exact ih (by omega) hw hnumber rfl goes

omit hb in
theorem ends_receiveBlocks_nil {state : Server.State} (hs : c.Sees V s srv state [])
    (hseq : 0 < s.seqno) {frames : List Message}
    (ha : srv.Responds state ((c.acknowledgement s.seqno).message c.node) frames srv state)
    (hlen : frames.length ≤ 127) {request : Request} {attempts : UInt32} {n : Nat}
    {Q : Unit → Session σ → Prop} {E : Stop → Session σ → Prop}
    (goes : ∀ retries, s.retries = retries + 1 → ∀ w d,
      let t : Session σ := { s with world := w, deadline := d, retries }
      c.Sees V t srv state (frames.take room) →
      Ends (c.receiveBlocks (c.acknowledgement s.seqno) (attempts + 1) n) t Q E)
    (expired : s.retries = 0 → ∀ w, c.Sees V { s with world := w } srv state [] →
      E (.failed (.timeout attempts)) { s with world := w }) :
    Ends (c.receiveBlocks request attempts (n + 1)) s Q E := by
  rw [receiveBlocks, ends_bind]
  refine h.ends_nextMessage_nil hs fun w hw => ?_
  dsimp only
  rw [ends_bind]
  refine h.ends_takeRetry hw (fun hretries w' hw' => expired hretries w' hw')
    fun retries hretries w' hw' => ?_
  simp only [ends_bind, ends_get, if_pos hseq]
  exact h.ends_sendMessage hw' (Request.message_id _ c.node) ha hlen fun w'' d hw'' =>
    goes retries hretries w'' d hw''

variable (hc : c.Faces srv)
include hc

omit h hb in
theorem responds_part {j : Nat} (hj : j < (c.blockAt crc object start).length) (hlt : j < 256) :
    srv.Responds (.uploadBlock (c.blockAt crc object start))
      ((c.acknowledgement (UInt8.ofNat j)).message c.node)
      ((c.blockAt crc object start).frames c.node (j + 1)) srv
      (.uploadBlock (c.blockAt crc object start)) := by
  have hregular : (c.acknowledgement (UInt8.ofNat j)).Regular := .of_plain trivial
  have hnumber : (UInt8.ofNat j).toNat = j := UInt8.toNat_ofNat_of_lt hlt
  refine hc.responds (by simp) hregular fun k => ?_
  rw [acknowledgement, Server.proceed_confirmBlock,
    Server.confirmBlock_part hc.faults (by rw [hnumber]; exact hj), hnumber,
    hc.node]

/-- A block has been sent. If there is no room for all of it, a retry brings the rest. -/
theorem ends_receiveBlock {n : Nat} (hstart : start < segmentCount object)
    (hs : c.Sees V s srv (.uploadBlock (c.blockAt crc object start))
      (((c.blockAt crc object start).frames c.node 1).take room))
    (hseq : s.seqno = 0) (hbuffer : s.buffer = filled object start) {request : Request}
    {attempts : UInt32} {Q : Unit → Session σ → Prop} {E : Stop → Session σ → Prop}
    (goes : ∀ w d transferred retries,
      let t : Session σ :=
        { s with
          world := w, deadline := d, seqno := UInt8.ofNat (c.blockAt crc object start).length
          buffer := filled object (start + (c.blockAt crc object start).length)
          transferred, retries }
      s.retries = retries + (if room < (c.blockAt crc object start).length then 1 else 0) →
      c.Sees V t srv (.uploadBlock (c.blockAt crc object start)) [] →
      Ends (if start + (c.blockAt crc object start).length = segmentCount object then pure ()
        else do c.receiveBlocks (← c.acknowledge) 1 n) t Q E)
    (expired : ∀ t, s.retries < (if room < (c.blockAt crc object start).length then 1 else 0) →
      c.Sees V t srv (.uploadBlock (c.blockAt crc object start)) [] → E (.failed (.timeout 1)) t) :
    Ends (c.receiveBlocks request attempts
      (n + ((c.blockAt crc object start).length
        + if room < (c.blockAt crc object start).length then 1 else 0))) s Q E := by
  have hroomy := h.roomy
  have hlength : (c.blockAt crc object start).length ≤ c.config.blockSize.toNat :=
    Nat.min_le_left _ _
  have hpos : 0 < (c.blockAt crc object start).length := by
    rw [length_blockAt]
    omega
  have hzero : s.seqno.toNat = 0 := by
    rw [hseq]
    rfl
  -- The end of a block that is too long is lost. It comes with a second block, for one retry.
  by_cases hlong : room < (c.blockAt crc object start).length
  · obtain ⟨r, rfl⟩ : ∃ r, room = r + 1 := Nat.exists_eq_add_of_le' (by omega)
    obtain ⟨m, hm⟩ : ∃ m, (c.blockAt crc object start).length = r + 1 + (m + 1) :=
      ⟨(c.blockAt crc object start).length - (r + 1) - 1, by omega⟩
    have hrounds : n + ((c.blockAt crc object start).length + 1) = n + (m + 1) + 1 + (r + 1) := by
      omega
    have hnumber : (UInt8.ofNat (r + 1)).toNat = r + 1 :=
      UInt8.toNat_ofNat_of_lt (show _ < 256 by omega)
    have hsome : 0 < UInt8.ofNat (r + 1) := by
      rw [UInt8.lt_iff_toNat_lt, hnumber]
      exact Nat.succ_pos r
    have hanswer := responds_part hc hlong (show _ < 256 by omega)
    have hrest : ((c.blockAt crc object start).frames c.node (r + 1 + 1)).length = m + 1 := by
      rw [Server.BlockUpload.frames_eq_segments _ _ hm.symm, Server.BlockUpload.length_segments]
    rw [Server.BlockUpload.take_frames _ _ (Nat.le_of_lt hlong)] at hs
    rw [if_pos hlong, hrounds]
    simp only [if_pos hlong] at goes expired
    refine h.ends_receiveSegments hb (by omega) hs hzero hbuffer fun w d transferred hw => ?_
    simp only [Nat.zero_add] at hw ⊢
    rw [if_neg (Nat.ne_of_lt hlong)]
    refine h.ends_receiveBlocks_nil hw hsome hanswer (by omega)
      (fun retries hretries w' d' hw' => ?_) fun hretries w' hw' => expired _ ?_ hw'
    · rw [List.take_of_length_le (by omega),
        Server.BlockUpload.frames_eq_segments _ _ hm.symm] at hw'
      refine h.ends_receiveSegments hb (Nat.le_of_eq hm.symm) hw' hnumber rfl
        fun w'' d'' transferred' hw'' => ?_
      rw [if_pos hm.symm]
      rw [← hm] at hw'' ⊢
      exact goes w'' d'' transferred' retries hretries hw''
    · have hretries' : s.retries = 0 := hretries
      omega
  · obtain ⟨m, hm⟩ : ∃ m, (c.blockAt crc object start).length = m + 1 :=
      Nat.exists_eq_add_of_le' hpos
    have hall : (c.blockAt crc object start).frames c.node (0 + 1)
        = (c.blockAt crc object start).segments c.node (0 + 1) (m + 1) :=
      Server.BlockUpload.frames_eq_segments _ _ (by omega)
    rw [Nat.zero_add] at hall
    rw [hall, List.take_of_length_le (by rw [Server.BlockUpload.length_segments]; omega)] at hs
    rw [if_neg hlong, Nat.add_zero, hm]
    simp only [if_neg hlong] at goes expired
    refine h.ends_receiveSegments hb (j := 0) (by omega) hs hzero hbuffer
      fun w d transferred hw => ?_
    simp only [Nat.zero_add, ← hm] at hw ⊢
    rw [if_pos trivial]
    exact goes w d transferred s.retries rfl hw

omit h in
theorem responds_whole (hmore : c.config.blockSize.toNat < segmentCount object - start) :
    srv.Responds (.uploadBlock (c.blockAt crc object start))
      ((c.acknowledgement c.config.blockSize).message c.node)
      ((c.blockAt crc object (start + c.config.blockSize.toNat)).frames c.node 1) srv
      (.uploadBlock (c.blockAt crc object (start + c.config.blockSize.toNat))) := by
  have hregular : (c.acknowledgement c.config.blockSize).Regular := .of_plain trivial
  have hlength : (c.blockAt crc object start).length = c.config.blockSize.toNat :=
    Nat.min_eq_left (Nat.le_of_lt hmore)
  have hnext : (c.blockAt crc object start).next c.config.blockSize
      = c.blockAt crc object (start + c.config.blockSize.toNat) := by
    rw [Server.BlockUpload.next, hlength]
    rfl
  have hless : (c.blockAt crc object start).start + (c.blockAt crc object start).length
      < segmentCount (c.blockAt crc object start).data := by
    rw [hlength]
    show start + _ < segmentCount object
    omega
  refine hc.responds (by simp) hregular fun k => ?_
  rw [acknowledgement, Server.proceed_confirmBlock,
    Server.confirmBlock_whole hc.faults hlength.symm hb, if_pos hless, hnext,
    hc.node]

omit hb hc in
theorem ends_acknowledge {state state' : Server.State} (hs : c.Sees V s srv state [])
    {frames : List Message}
    (ha : srv.Responds state ((c.acknowledgement s.seqno).message c.node) frames srv state')
    (hlen : frames.length ≤ 127) {Q : Request → Session σ → Prop} {E : Stop → Session σ → Prop}
    (goes : ∀ w d,
      let t : Session σ :=
        { s with
          world := w, deadline := d
          seqno := if s.seqno = c.config.blockSize then 0 else s.seqno }
      c.Sees V t srv state' (frames.take room) → Q (c.acknowledgement s.seqno) t) :
    Ends c.acknowledge s Q E := by
  refine ends_acknowledge_of_send fun _ => h.ends_note hs fun w hw => ?_
  exact h.ends_sendMessage hw (Request.message_id _ c.node) ha hlen fun w' d hw' =>
    goes w' d (hw'.of_eq rfl rfl)

theorem ends_receiveBlocks {n : Nat} (hstart : start < segmentCount object)
    (hs : c.Sees V s srv (.uploadBlock (c.blockAt crc object start))
      (((c.blockAt crc object start).frames c.node 1).take room))
    (hseq : s.seqno = 0) (hbuffer : s.buffer = filled object start) {request : Request}
    {attempts : UInt32} (hn : segmentCount object - start + s.retries < n) :
    Ends (c.receiveBlocks request attempts n) s
      (fun _ t =>
        longBlocks room c.config.blockSize.toNat (segmentCount object - start) ≤ s.retries ∧
          c.Delivered V srv crc object t ∧ t.announced = s.announced)
      (fun e t =>
        s.retries < longBlocks room c.config.blockSize.toNat (segmentCount object - start) ∧
          c.Exhausted V srv e t) := by
  -- On the number of segments left.
  induction hk : segmentCount object - start using Nat.strongRecOn
    generalizing start s request attempts n with
  | ind k ih =>
    subst hk
    have hlength : (c.blockAt crc object start).length
        = min c.config.blockSize.toNat (segmentCount object - start) := rfl
    have hcost : (if room < (c.blockAt crc object start).length then 1 else 0) ≤ 1 := by
      split
      · exact Nat.le_refl 1
      · exact Nat.zero_le 1
    obtain ⟨left, rfl⟩ : ∃ left, n = left + ((c.blockAt crc object start).length
        + if room < (c.blockAt crc object start).length then 1 else 0) :=
      Nat.exists_eq_add_of_le' (by omega)
    by_cases hmore : c.config.blockSize.toNat < segmentCount object - start
    · have hfull : (c.blockAt crc object start).length = c.config.blockSize.toNat := by omega
      have hlong : longBlocks room c.config.blockSize.toNat (segmentCount object - start)
          = (if room < (c.blockAt crc object start).length then 1 else 0)
            + longBlocks room c.config.blockSize.toNat
              (segmentCount object - (start + c.config.blockSize.toNat)) := by
        rw [hfull, ← Nat.sub_sub]
        exact longBlocks_more hb.1 (Nat.le_of_lt hmore)
      have hsize : UInt8.ofNat (c.blockAt crc object start).length = c.config.blockSize := by
        rw [hfull, UInt8.ofNat_toNat]
      rw [hlong]
      refine h.ends_receiveBlock hb hc hstart hs hseq hbuffer
        (fun w d transferred retries hretries hw => ?_) fun t hretries ht => ⟨by omega, rfl, _, ht⟩
      rw [if_neg (by omega), ends_bind, hsize, hfull]
      rw [hsize, hfull] at hw
      rw [hfull] at hn hretries
      refine h.ends_acknowledge hw (responds_whole hb hc hmore) (length_frames_le hb)
        fun w' d' hw' => ?_
      simp only [if_true] at hw' ⊢
      refine (ih _ (by omega) (show start + c.config.blockSize.toNat < segmentCount object by omega)
        hw' rfl rfl ?_ rfl).mono ?_ ?_
      · show _ + retries < left
        omega
      · intro _ t hq
        obtain ⟨hle, hdelivered, ha⟩ := hq
        have hle' : longBlocks room c.config.blockSize.toNat
          (segmentCount object - (start + c.config.blockSize.toNat)) ≤ retries := hle
        exact ⟨by omega, hdelivered, ha⟩
      · intro e t hq
        obtain ⟨hlt, hexhausted⟩ := hq
        have hlt' : retries < longBlocks room c.config.blockSize.toNat
          (segmentCount object - (start + c.config.blockSize.toNat)) := hlt
        exact ⟨by omega, hexhausted⟩
    · have hall : (c.blockAt crc object start).length = segmentCount object - start := by omega
      have hlong : longBlocks room c.config.blockSize.toNat (segmentCount object - start)
          = if room < (c.blockAt crc object start).length then 1 else 0 := by
        rw [hall]
        exact longBlocks_last (by omega) (Nat.not_lt.mp hmore)
      refine h.ends_receiveBlock hb hc hstart hs hseq hbuffer
        (fun w d transferred retries hretries hw => ?_) fun t hretries ht => ⟨?_, rfl, _, ht⟩
      · have hend : start + (c.blockAt crc object start).length = segmentCount object := by omega
        rw [if_pos hend, ends_pure, hlong]
        refine ⟨by omega, ⟨congrArg (filled object) hend, start, hstart, by omega, ?_, hw⟩, rfl⟩
        exact congrArg UInt8.ofNat hall
      · rw [hlong]
        exact hretries

omit h in
theorem responds_last (hstart : start < segmentCount object)
    (hsmall : segmentCount object - start ≤ c.config.blockSize.toNat) :
    srv.Responds (.uploadBlock (c.blockAt crc object start))
      ((c.acknowledgement (UInt8.ofNat (segmentCount object - start))).message c.node)
      [(Response.endBlockUpload
        (UInt8.ofNat (segmentCount object * segmentSize - object.length))
        (if crc then Canopen.crc object else 0)).message c.node] srv .endUploadBlock := by
  have hregular : (c.acknowledgement (UInt8.ofNat (segmentCount object - start))).Regular :=
    .of_plain trivial
  have hlength : (c.blockAt crc object start).length = segmentCount object - start :=
    Nat.min_eq_right hsmall
  have hacked : (UInt8.ofNat (segmentCount object - start)).toNat
      = (c.blockAt crc object start).length := by
    rw [hlength]
    exact UInt8.toNat_ofNat_of_lt (show _ < 256 by omega)
  have hnomore : ¬(c.blockAt crc object start).start + (c.blockAt crc object start).length
      < segmentCount (c.blockAt crc object start).data := by
    rw [hlength]
    show ¬start + _ < segmentCount object
    omega
  refine hc.responds (by simp) hregular fun k => ?_
  rw [acknowledgement, Server.proceed_confirmBlock,
    Server.confirmBlock_whole hc.faults hacked hb, if_neg hnomore, hc.node]
  rfl

/-- What comes of the blocks of an upload, by the number of those that cost a retry. -/
theorem ends_uploadBlocks
    (hs : c.Sees V s srv
      (.uploadBlockInitiated (c.blockAt (c.config.useCrc && srv.crc) object 0)) [])
    (hbuffer : s.buffer = []) (ha : s.announced = some (announcedSize object))
    (hp : segmentCount object + s.retries < c.patience) :
    Ends (c.uploadBlocks srv.crc) s
      (fun v t => longBlocks room c.config.blockSize.toNat (segmentCount object) ≤ s.retries ∧
        c.Fetched V srv object v t)
      (fun e t =>
        s.retries < longBlocks room c.config.blockSize.toNat (segmentCount object) ∧
            c.Exhausted V srv e t ∨
          longBlocks room c.config.blockSize.toNat (segmentCount object) ≤ s.retries ∧
            c.Mismatched V srv object e t) := by
  have hstart : srv.Responds
      (.uploadBlockInitiated (c.blockAt (c.config.useCrc && srv.crc) object 0))
      (Request.startBlockUpload.message c.node)
      ((c.blockAt (c.config.useCrc && srv.crc) object 0).frames c.node 1) srv
      (.uploadBlock (c.blockAt (c.config.useCrc && srv.crc) object 0)) := by
    have hregular : Request.startBlockUpload.Regular := .of_plain trivial
    refine hc.responds (by simp) hregular fun k => ?_
    rw [Server.proceed_startBlockUpload_initiated hc.faults, hc.node]
  rw [uploadBlocks, ends_bind]
  refine h.ends_sendMessage hs (Request.message_id _ c.node) hstart (length_frames_le hb)
    fun w d hw => ?_
  rw [ends_bind, ends_modify, ends_bind]
  let u : Session σ := { s with world := w, deadline := d, seqno := 0 }
  have hu : c.Sees V u srv _ _ := hw.of_eq rfl rfl
  refine (h.ends_receiveBlocks hb hc (segmentCount_pos object) hu rfl hbuffer hp).mono ?_
    fun e t he => .inl he
  intro _ t hq
  obtain ⟨hle, ⟨hfilled, i, hi, hsmall, hseq, ht⟩, hann⟩ := hq
  -- The last acknowledgement is answered with the end of the upload.
  have hlast : srv.Responds
      (.uploadBlock (c.blockAt (c.config.useCrc && srv.crc) object i)) _ _ _ _ :=
    responds_last hb hc hi hsmall
  rw [ends_bind, ends_get, ends_bind, hseq]
  refine h.ends_exchange ht hlast (Response.regular_endBlockUpload object _) fun w' d' hw' => ?_
  simp only [ends_bind, trim, ends_modify, ends_get, trim_filled object hfilled, checksum_stands,
    Bool.false_eq_true, if_false]
  let v : Session σ :=
    { t with world := w', deadline := d', buffer := object, transferred := object.length }
  have hv : c.Sees V v srv .endUploadBlock [] := hw'.of_eq rfl rfl
  refine h.ends_checkSize_announced hc hv (hann.trans ha) rfl (fun hm => ?_)
    fun e u he => .inr ⟨hle, he⟩
  have hend : srv.Responds .endUploadBlock (Request.confirmBlockUploadEnd.message c.node) [] srv
      .idle := by
    have hregular : Request.confirmBlockUploadEnd.Regular := .of_plain trivial
    exact hc.responds (by simp) hregular fun k => rfl
  refine h.ends_sendMessage hv (Request.message_id _ c.node) hend (Nat.zero_le _)
    fun w'' d'' hw'' => ?_
  rw [List.take_nil] at hw''
  exact ⟨hle, hm, rfl, hw''⟩

theorem ends_uploadBlock {state : Server.State} (hs : c.Sees V s srv state [])
    (hst : ∀ t, state ≠ .downloadBlock t) (hbuffer : s.buffer = [])
    (hp : segmentCount object + s.retries < c.patience)
    (hobject : srv.objects.get? c.target = some object) :
    Ends c.uploadBlock s
      (fun v t => longBlocks room c.config.blockSize.toNat (segmentCount object) ≤ s.retries ∧
        c.Fetched V srv object v t)
      (fun e t =>
        s.retries < longBlocks room c.config.blockSize.toNat (segmentCount object) ∧
            c.Exhausted V srv e t ∨
          longBlocks room c.config.blockSize.toNat (segmentCount object) ≤ s.retries ∧
            c.Mismatched V srv object e t) := by
  let initiation : Request :=
    .initiateBlockUpload c.config.useCrc c.target c.config.blockSize c.threshold
  have hregular : initiation.Regular := .of_plain trivial
  have hanswer : srv.Responds state (initiation.message c.node)
      [(Response.announceBlocks srv.crc c.target (some (UInt32.ofNat object.length))).message
        c.node] srv
      (.uploadBlockInitiated (c.blockAt (c.config.useCrc && srv.crc) object 0)) := by
    refine hc.responds hst hregular fun k => ?_
    rw [Server.proceed_initiateBlockUpload hc.faults hobject hb (by simp), hc.node]
    rfl
  rw [uploadBlock, ends_bind]
  refine h.ends_exchange hs hanswer (.of_plain trivial) fun w d hw => ?_
  simp only [Response.announceBlocks, Option.isSome_some, Option.getD_some, if_true, ends_bind,
    ends_modify]
  exact h.ends_uploadBlocks hb hc (hw.of_eq rfl rfl) hbuffer rfl hp

end Prompt
end Client.Call
end Canopen
