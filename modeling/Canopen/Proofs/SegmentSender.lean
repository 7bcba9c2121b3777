import Canopen.Proofs.Answers
import Canopen.Proofs.Courses

set_option autoImplicit false

namespace Canopen.Client

open Can (Message TransportError)
open Sdo
open Transfer

variable {σ : Type}

namespace Segmenting

section
variable (node : UInt8) (target : Address) (data : List UInt8)

def announcement : Message where
  id := .std (0x600 + node.toUInt16)
  data :=
    #v[0x21, byteAt target.index.toNat 0, byteAt target.index.toNat 1, target.sub,
      byteAt data.length 0, byteAt data.length 1, byteAt data.length 2, byteAt data.length 3]
  dlc := 8
  rtr := false

/-- Carries up to seven bytes of the data from number `7 * i` on, and tells how many are missing.
The toggle bit alternates, and the last segment is marked. -/
def segmentFrame (i : Nat) : Message where
  id := .std (0x600 + node.toUInt16)
  data :=
    let bytes := (data.drop (7 * i)).take 7
    padTo 8
      (UInt8.ofNat ((if i % 2 = 1 then 0x10 else 0) + 2 * (7 - bytes.length)
          + if i + 1 = segmentCount data then 1 else 0)
        :: bytes)
  dlc := 8
  rtr := false

def frame : Nat → Message
  | 0 => announcement node target data
  | i + 1 => segmentFrame node data i

def proceed (i : Nat) : Move Nat :=
  if i = segmentCount data then .ends [] .done
  else .goes [frame node target data (i + 1)] (i + 1)

def respond : Nat → Response → Move Nat
  | 0, .confirmDownload _ => proceed node target data 0
  | i + 1, .confirmDownloadSegment t =>
    if t = decide (i % 2 = 1) then proceed node target data (i + 1) else .fails .toggleMismatch
  | _, _ => .fails .unexpectedResponse

end

/-- The answer that confirms frame `i`. -/
def Confirms : Nat → Message → Prop
  | 0, m => ∃ a, Response.ofMessage m = .ok (.confirmDownload a)
  | i + 1, m => Response.ofMessage m = .ok (.confirmDownloadSegment (decide (i % 2 = 1)))

end Segmenting

open Segmenting

/-- How a segmented download is to be done. It waits for the answer to frame `i`. -/
def segmentSender (node : UInt8) (target : Address) (data : List UInt8) : Conduct Nat where
  opening := frame node target data 0
  first := 0
  hear i := .reading (respond node target data i)
  again := frame node target data

section
variable (node : NodeId)

theorem message_announce (target : Address) {data : List UInt8} (h : data.length < sizeLimit) :
    (Request.announce target (some (UInt32.ofNat data.length))).message node
      = announcement node.value target data := by
  have hsize : (UInt32.ofNat data.length).toNat = data.length := UInt32.toNat_ofNat_of_lt' h
  generalize UInt32.ofNat data.length = size at hsize ⊢
  have hregular := Request.regular_announce target size
  have hhead : Request.command .initiateDownload
      (((0 : UInt8) &&& 3) <<< 2 ||| Command.bit false 1 ||| Command.bit true 0) = 0x21 := by
    decide
  have hbytes : (Request.announce target (some size)).toBytes
      = addressed (Request.command .initiateDownload
          (((0 : UInt8) &&& 3) <<< 2 ||| Command.bit false 1 ||| Command.bit true 0)) target
          (bytesOfWord size) := rfl
  rw [Request.message_eq node hregular.fits hregular.tidy, hbytes, hhead,
    addressed_bytesOfWord _ _ hsize, announcement]

theorem message_segment (data : List UInt8) (i : Nat) :
    (Request.segment (i % 2 = 1) (i + 1 = segmentCount data) (segmentBytes data i)
        (segmentBytes_length_le data i)).message node
      = segmentFrame node.value data i := by
  have hbytes : (data.drop (7 * i)).take 7 = segmentBytes data i := by
    rw [segmentBytes, segmentSize, Nat.mul_comm]
  have hhead : ∀ length : Nat, length ≤ 7 → ∀ toggle last : Bool,
      Request.command .downloadSegment
          (Command.bit toggle 4 ||| (UInt8.ofNat (7 - length) &&& 7) <<< 1 ||| Command.bit last 0)
        = UInt8.ofNat
          ((if toggle then 0x10 else 0) + 2 * (7 - length) + if last then 1 else 0) := by
    decide
  have hle := segmentBytes_length_le data i
  have hregular := Request.regular_segment (i % 2 = 1) (i + 1 = segmentCount data) hle
  rw [Request.message_eq node hregular.fits hregular.tidy, segmentFrame, hbytes]
  rw [Request.segment, Request.toBytes, hhead _ hle, segmented_padTo]
  simp only [decide_eq_true_eq]

theorem head_frame (target : Address) {data : List UInt8} (i : Nat) :
    (frame node.value target data i).data.get 0 ≠ 0x80 := by
  cases i with
  | zero =>
    show (0x21 : UInt8) ≠ 0x80
    decide
  | succ i =>
    rw [frame, ← message_segment]
    exact (Request.regular_segment _ _ _).message_head_ne_abort node

end

namespace Call

variable {c : Call σ} {data : List UInt8} {d : Tally}

theorem carries_downloadSegments_stands {i count : Nat}
    (hcount : i + count = segmentCount data) (htoggle : d.toggle = decide (i % 2 = 1))
    (ht : d.transferred = min (i * segmentSize) data.length) :
    let k := segmentSender c.node.value c.target data
    Carries
      (c.Stands k (Conduct.after c.node.value c.target (proceed c.node.value c.target data i)) d)
      (c.FailsAt k) (c.traced.downloadSegments data i count) fun _ s =>
        ∃ toggle, c.Stands k ⟨[], .ended .done⟩
          { d with toggle := toggle, transferred := data.length } s := by
  intro k
  -- On the number of segments left. The toggle bit follows from the number of the next one.
  induction count generalizing i d with
  | zero =>
    rw [Nat.add_zero] at hcount
    have hall : d.transferred = data.length := by
      have hlength := (segmentCount_spec data).1
      rw [hcount] at ht
      omega
    rw [proceed, if_pos hcount, ← hall]
    exact fun s hs => ⟨d.toggle, hs⟩
  | succ count ih =>
    have hmore : i ≠ segmentCount data := by omega
    have hlast : (count == 0) = decide (i + 1 = segmentCount data) := by
      rw [Bool.eq_iff_iff, beq_iff_eq, decide_eq_true_eq]
      omega
    have hrest : ∀ toggle, toggle = decide ((i + 1) % 2 = 1) →
        Carries
          (c.Stands k (Conduct.after c.node.value c.target
            (proceed c.node.value c.target data (i + 1))) { d with toggle := toggle })
          (c.FailsAt k) (do
            modify fun s => { s with transferred := s.transferred + (segmentBytes data i).length }
            c.traced.downloadSegments data (i + 1) count) fun _ s =>
              ∃ toggle, c.Stands k ⟨[], .ended .done⟩
                { d with toggle := toggle, transferred := data.length } s := by
      intro toggle htoggle
      refine carries_bind (carries_modify_stands
        (fun d => { d with transferred := d.transferred + (segmentBytes data i).length })
        (fun _ => rfl) (fun _ => rfl) fun _ => rfl) fun _ => ?_
      refine ih (d := { d with toggle := toggle, transferred := _ }) (by omega) htoggle ?_
      show d.transferred + (segmentBytes data i).length = min ((i + 1) * segmentSize) data.length
      rw [ht, length_segmentBytes, segmentSize]
      omega
    rw [proceed, if_neg hmore]
    intro s hs
    have hsame : s.toggle = decide (i % 2 = 1) := (congrArg Tally.toggle hs.tally).trans htoggle
    rw [downloadSegments, ends_bind, ends_get, hsame, hlast]
    have hmessage := message_segment c.node data i
    have hregular := Request.regular_segment (i % 2 = 1) (i + 1 = segmentCount data)
      (segmentBytes_length_le data i)
    rw [frame, ← hmessage] at hs
    refine carries_bind (carries_exchange_stands (respond c.node.value c.target data (i + 1))
      hregular (by simp [Request.segment]) hmessage.symm fun _ => rfl) (fun r => ?_) s hs
    cases r with
    | confirmDownloadSegment t =>
      rw [respond, ← htoggle]
      refine carries_bind (carries_checkToggle_stands t _) fun _ => hrest _ ?_
      rw [htoggle, odd_succ]
    | _ =>
      exact carries_bind (G := fun _ _ => False) (carries_unexpected_stands _) fun _ _ h => h.elim

theorem carries_downloadSegmented_stands (hlength : data.length < sizeLimit) :
    let k := segmentSender c.node.value c.target data
    Carries (c.Stands k k.start {}) (c.FailsAt k) (c.traced.downloadSegmented data) fun _ s =>
      ∃ d, c.Stands k ⟨[], .ended .done⟩ d s := by
  intro k
  have hopening := message_announce c.node c.target hlength
  have hstart : k.start
      = ⟨[(Request.announce c.target (some (UInt32.ofNat data.length))).message c.node],
        .waits 0⟩ := by
    rw [hopening]
    rfl
  have hregular := Request.regular_announce c.target (UInt32.ofNat data.length)
  rw [downloadSegmented, hstart]
  refine carries_bind (carries_modify_stands (fun d => { d with announced := some data.length })
    (fun _ => rfl) (fun _ => rfl) fun _ => rfl) fun _ => ?_
  refine carries_bind (carries_exchange_stands (respond c.node.value c.target data 0) hregular
    (by simp [Request.announce]) hopening.symm fun _ => rfl) fun r => ?_
  cases r with
  | confirmDownload a =>
    refine carries_bind (carries_downloadSegments_stands (Nat.zero_add _) rfl (by simp))
      fun _ => ?_
    rintro s ⟨toggle, hs⟩
    have hchecked := carries_checkSize_stands (c := c) (k := k)
      (d := { announced := some data.length, toggle, transferred := data.length }) (.ends [] .done)
    rw [Move.sized_self] at hchecked
    exact (hchecked s hs).mono (fun _ _ h => ⟨_, h⟩) fun _ _ h => h
  | _ => exact carries_unexpected_stands _

end Call

section
variable {node : UInt8} {target : Address} {data : List UInt8} {i : Nat} {m : Message}

theorem hear_of_confirms (h : Confirms i m) :
    (segmentSender node target data).hear i m = proceed node target data i := by
  show Move.reading _ m = _
  cases i with
  | zero =>
    obtain ⟨a, ha⟩ := h
    rw [Move.reading, ha]
    rfl
  | succ i =>
    rw [Move.reading, show Response.ofMessage m = _ from h]
    exact if_pos rfl

variable (node target data) in
theorem hear_of_not_confirms (h : ¬ Confirms i m) :
    ∃ e, (segmentSender node target data).hear i m = .fails e := by
  show ∃ e, Move.reading (respond node target data i) m = _
  obtain ⟨e, he⟩ | ⟨r, hr, hmove⟩ := Move.reading_cases (respond node target data i) m
  · exact ⟨e, he⟩
  · rw [hmove]
    unfold respond
    split
    · exact absurd ⟨_, hr⟩ h
    · rename_i i t
      have ht : t ≠ decide (i % 2 = 1) := by
        rintro rfl
        exact h hr
      exact ⟨_, if_neg ht⟩
    · exact ⟨_, rfl⟩

theorem confirms_of_goes {due : List Message} {i' : Nat}
    (h : (segmentSender node target data).hear i m = .goes due i') :
    Confirms i m ∧ i ≠ segmentCount data ∧ due = [frame node target data i'] ∧ i' = i + 1 := by
  by_cases hm : Confirms i m
  · rw [hear_of_confirms hm, proceed] at h
    split at h
    · cases h
    · rename_i hmore
      cases h
      exact ⟨hm, hmore, rfl, rfl⟩
  · obtain ⟨e, he⟩ := hear_of_not_confirms node target data hm
    cases he.symm.trans h

end

theorem insists_segmentSender (node : NodeId) (target : Address) (data : List UInt8) :
    (segmentSender node.value target data).Insists where
  first := rfl
  hear h := by
    obtain ⟨-, -, rfl, rfl⟩ := confirms_of_goes h
    exact ⟨Nat.succ_ne_zero _, rfl⟩
  head := head_frame node target

/-- What the answers lead to when `i` frames were confirmed and no more were asked for but one. -/
def Segmenting.Led (data : List UInt8) (heard : List Message) (i : Nat) : Move Nat → Prop
  | .goes _ i' => i' = i ∧ heard.length = i
  | .ends due v => due = [] ∧ v = .done ∧ i = segmentCount data ∧ Answered Confirms heard i
  | .fails _ => ¬ Answered Confirms heard i

theorem leads_segmentSender {node : UInt8} {target : Address} {data : List UInt8}
    {heard asked : List Message} {move : Move Nat}
    (h : (segmentSender node target data).Leads heard asked move) :
    ∃ i ≤ segmentCount data, asked = (List.range (i + 1)).map (frame node target data) ∧
      (∀ j < i, Answered Confirms heard j) ∧ Led data heard i move := by
  induction h with
  | start => exact ⟨0, Nat.zero_le _, rfl, by simp, rfl, rfl⟩
  | @hear heard asked due i m hleads ih =>
    obtain ⟨_, hle, rfl, hconfirmed, rfl, rfl⟩ := ih
    have hearlier : ∀ j < heard.length, Answered Confirms (heard ++ [m]) j :=
      fun j hj => (hconfirmed j hj).append m
    by_cases hm : Confirms heard.length m
    · have hlast := answered_append_self.mpr hm
      rw [hear_of_confirms hm, proceed]
      split
      · rename_i hall
        exact ⟨heard.length, hle, by simp [Move.due], hearlier, rfl, rfl, hall, hlast⟩
      · refine ⟨heard.length + 1, by omega, ?_, ?_, rfl, by simp⟩
        · rw [List.range_succ (n := heard.length + 1), List.map_append]
          rfl
        · intro j hj
          obtain hj | rfl := Nat.lt_succ_iff_lt_or_eq.mp hj
          · exact hearlier j hj
          · exact hlast
    · obtain ⟨e, he⟩ := hear_of_not_confirms node target data hm
      rw [he]
      exact ⟨heard.length, hle, by simp [Move.due], hearlier,
        fun h => hm (answered_append_self.mp h)⟩

/-- A segmented download sends the announcement and then the segments in turn, each when the frame
before it was answered, and is done just when each of them was confirmed. -/
theorem segmented_download_in_turn (client : Client σ) (node : NodeId) (target : Address)
    (data : List UInt8) (w : σ) (h : data.length < sizeLimit) :
    let events := (client.observe node.value target (.downloadSegmented data) w).2
    let result := (client.perform node.value target (.downloadSegmented data) w).1
    (∀ before, before <+: events → ∃ n ≤ segmentCount data + 1,
      Proceeds (frame node.value target data) Confirms node.value target
        client.config.retries.toNat before n) ∧
      (result = .ok .done ↔
        ∀ i ≤ segmentCount data, Answered Confirms (answers node.value events) i) := by
  intro events result
  have hperform : client.traced.perform node.value target (.downloadSegmented data) (w, [])
      = Outcome.map (fun _ => .done) ((client.call node target .download).traced.run .segmented
          ((client.call node target .download).traced.downloadSegmented data) (w, [])) := by
    rw [perform, downloadSegmented, if_pos h, transfer_node]
    rfl
  have hk := insists_segmentSender node target data
  have hexplains : (segmentSender node.value target data).Explains node.value target client.config
      .download events result :=
    explained_of_perform client hperform (Call.carries_downloadSegmented_stands h)
  refine ⟨fun before hbefore => ?_, ?_⟩
  · have hframes : ∀ {heard asked move},
        (segmentSender node.value target data).Leads heard asked move →
          asked = (List.range asked.length).map (frame node.value target data) ∧
            ∀ i, i + 1 < asked.length → Answered Confirms heard i := by
      intro heard asked move hleads
      obtain ⟨i, -, rfl, hconfirmed, -⟩ := leads_segmentSender hleads
      exact ⟨by simp, fun j hj => hconfirmed j (by simpa using hj)⟩
    obtain ⟨asked, move, hleads, n, hn, hproceeds⟩ :=
      perform_proceeds client hk hexplains.obeyed hframes before hbefore
    obtain ⟨i, hi, rfl, -⟩ := leads_segmentSender hleads
    exact ⟨n, Nat.le_trans hn (by simpa using hi), hproceeds⟩
  · obtain ⟨asked, move, hleads, hresult⟩ := hexplains.leads hk.pairs
    obtain ⟨i, hi, -, hconfirmed, hled⟩ := leads_segmentSender hleads
    cases move with
    | goes due i' =>
      obtain ⟨-, hlength⟩ := hled
      refine ⟨fun hok => absurd hok (hresult _), fun hall => ?_⟩
      exact absurd (hall i hi).lt (by omega)
    | ends due v =>
      obtain ⟨rfl, rfl, rfl, hlast⟩ := hled
      refine ⟨fun _ j hj => ?_, fun _ => hresult.resolve_right fun h => h.1 rfl⟩
      obtain hj | rfl := Nat.lt_or_eq_of_le hj
      · exact hconfirmed j hj
      · exact hlast
    | fails e =>
      refine ⟨fun hok => ?_, fun hall => absurd (hall i hi) hled⟩
      cases hok.symm.trans hresult

/-- The second segment is sent again, as the answer to it does not come at first. -/
theorem segmented_download_in_turn_of_script :
    let node : NodeId := ⟨5, by decide, by decide⟩
    let data : List UInt8 := [1, 2, 3, 4, 5, 6, 7, 8]
    let replies : List (List Response) :=
      [[.confirmDownload ⟨0x2000, 0⟩], [.confirmDownloadSegment false], [],
        [.confirmDownloadSegment true]]
    let client : Client (Script TransportError) :=
      { link := Script.link, config := { timeoutMs := 1 }, patience := 10 }
    let s : Script TransportError :=
      { replies := replies.map fun rs =>
          .ok (rs.map fun r => .event (.frame (r.message node)) 0 1) }
    let events := (client.observe 5 ⟨0x2000, 0⟩ (.downloadSegmented data) s).2
    let result := (client.perform 5 ⟨0x2000, 0⟩ (.downloadSegmented data) s).1
    data.length < sizeLimit ∧ result = .ok .done ∧
      sentFrames events = [announcement 5 ⟨0x2000, 0⟩ data, segmentFrame 5 data 0,
        segmentFrame 5 data 1, segmentFrame 5 data 1] ∧
      (result = .ok .done ↔
        ∀ i ≤ segmentCount data, Answered Confirms (answers node.value events) i) := by
  intro node data replies client s events result
  have hshort : data.length < sizeLimit := by decide
  refine ⟨hshort, ?_, ?_, (segmented_download_in_turn client node ⟨0x2000, 0⟩ data s hshort).2⟩
  · decide +kernel
  · decide +kernel

end Canopen.Client
