import Canopen.Proofs.Courses

/-!
A block download as the acknowledgements direct it. A block is as long as the server asked for, and
its segments are numbered from one; an acknowledgement of some of them brings the others again, and
one of all of them the next block, of the size that the server asks for anew. When an
acknowledgement stays out the last segment of the block is sent again.
-/

set_option autoImplicit false

namespace Canopen.Client

open Can (Message TransportError)
open Sdo
open Transfer

variable {σ : Type}

/-- Where a block download waits for an answer. -/
inductive Sending where
  | opening
  /-- Behind so many segments, for the acknowledgement of a block of that length. -/
  | block (checked : Bool) (start length : Nat)
  | closing (checked : Bool)

namespace Sending

section
variable (config : Config) (node : UInt8) (target : Address) (data : List UInt8)

def openingFrame : Message where
  id := .std (0x600 + node.toUInt16)
  data :=
    #v[if config.useCrc then 0xC6 else 0xC2, byteAt target.index.toNat 0,
      byteAt target.index.toNat 1, target.sub, byteAt data.length 0, byteAt data.length 1,
      byteAt data.length 2, byteAt data.length 3]
  dlc := 8
  rtr := false

/-- Carries up to seven bytes of the data, with number `seqno` in the block behind `start` segments.
The last segment of all is marked. -/
def segmentFrame (start seqno : Nat) : Message where
  id := .std (0x600 + node.toUInt16)
  data :=
    padTo 8
      (UInt8.ofNat (if start + seqno = segmentCount data then 0x80 + seqno else seqno)
        :: (data.drop (7 * (start + seqno - 1))).take 7)
  dlc := 8
  rtr := false

/-- Tells how many bytes of the last segment are no data, and the checksum if both sides want it. -/
def endFrame (checked : Bool) : Message where
  id := .std (0x600 + node.toUInt16)
  data :=
    let checksum := if checked then crc data else 0
    padTo 8
      [UInt8.ofNat (0xC1 + 4 * (7 * segmentCount data - data.length)), byteAt checksum.toNat 0,
        byteAt checksum.toNat 1]
  dlc := 8
  rtr := false

def segmentFrames (start first last : Nat) : List Message :=
  (List.range' first (last + 1 - first)).map (segmentFrame node data start)

/-- What is sent when so many segments are acknowledged: the next block, or the end. -/
def goOn (checked : Bool) (start size : Nat) : Move Sending :=
  if start < segmentCount data then
    let length := min size (segmentCount data - start)
    .goes (segmentFrames node data start 1 length) (.block checked start length)
  else .goes [endFrame node data checked] (.closing checked)

def goOnWith (checked : Bool) (start : Nat) (size : UInt8) : Move Sending :=
  if 0 < size.toNat ∧ size.toNat ≤ 127 then goOn node data checked start size.toNat
  else .fails (.invalidBlockSize size)

def respond : Sending → Response → Move Sending
  | .opening, .confirmBlockDownload serverCrc _ size =>
    goOnWith node data (serverCrc && config.useCrc) 0 size
  | .block checked start length, .confirmBlock seqno size =>
    if length < seqno.toNat then .fails (.sequence seqno)
    else if seqno.toNat = length then goOnWith node data checked (start + length) size
    else
      .goes (segmentFrames node data start (seqno.toNat + 1) length) (.block checked start length)
  | .closing _, .confirmBlockDownloadEnd => .ends [] .done
  | _, _ => .fails .unexpectedResponse

def again : Sending → Message
  | .opening => openingFrame config node target data
  | .block _ start length => segmentFrame node data start length
  | .closing checked => endFrame node data checked

end

end Sending

open Sending

def blockSender (config : Config) (node : UInt8) (target : Address) (data : List UInt8) :
    Conduct Sending where
  opening := openingFrame config node target data
  first := .opening
  hear s := .reading (respond config node data s)
  again := again config node target data

section
variable (node : NodeId)

theorem message_initiateBlockDownload (config : Config) (target : Address) {data : List UInt8}
    (h : data.length < sizeLimit) :
    (Request.initiateBlockDownload config.useCrc true target
        (UInt32.ofNat data.length)).message node
      = openingFrame config node.value target data := by
  have hsize : (UInt32.ofNat data.length).toNat = data.length := UInt32.toNat_ofNat_of_lt' h
  have hhead : ∀ useCrc : Bool,
      Request.command .blockDownload (Command.bit useCrc 2 ||| Command.bit true 1)
        = if useCrc then 0xC6 else 0xC2 := by
    decide
  generalize UInt32.ofNat data.length = size at hsize ⊢
  have hregular : (Request.initiateBlockDownload config.useCrc true target size).Regular :=
    .of_plain trivial
  rw [Request.message_eq node hregular.fits hregular.tidy, Request.toBytes, hhead,
    addressed_bytesOfWord _ _ hsize, openingFrame]

theorem message_endBlockDownload (data : List UInt8) (checked : Bool) :
    (Request.endBlockDownload (UInt8.ofNat (segmentCount data * segmentSize - data.length))
        (if checked then crc data else 0)).message node
      = endFrame node.value data checked := by
  have hregular := Traffic.regular_endBlockDownload data (if checked then crc data else 0)
  have hhead : ∀ n : Nat, n < 8 →
      Request.command .blockDownload ((UInt8.ofNat n &&& 7) <<< 2 ||| 1)
        = UInt8.ofNat (0xC1 + 4 * n) := by
    decide
  have hunused := unused_le data
  have hcomm : segmentCount data * segmentSize = 7 * segmentCount data := Nat.mul_comm _ _
  rw [Request.message_eq node hregular.fits hregular.tidy, endFrame, Request.toBytes,
    hhead _ (by omega), hcomm]

theorem message_blockSegment (data : List UInt8) (start : Nat) {seqno : Nat} (h1 : 1 ≤ seqno)
    (h : seqno ≤ 127) :
    (blockSegment data (start + seqno - 1) (UInt8.ofNat seqno)).message .client node
      = segmentFrame node.value data start seqno := by
  have hhead : ∀ n : Nat, n < 128 → ∀ last : Bool,
      Command.bit last 7 ||| (UInt8.ofNat n &&& 0x7f)
        = UInt8.ofNat (if last then 0x80 + n else n) := by
    decide
  have hlast : start + seqno - 1 + 1 = start + seqno := by omega
  have hbytes : (data.drop (7 * (start + seqno - 1))).take 7
      = segmentBytes data (start + seqno - 1) := by
    rw [segmentBytes, segmentSize, Nat.mul_comm]
  rw [BlockSegment.message_client_eq, segmentFrame, hbytes, BlockSegment.toBytes, blockSegment,
    hhead _ (by omega), hlast, segmented_padTo]
  simp only [decide_eq_true_eq]

theorem head_segmentFrame (data : List UInt8) (start : Nat) {seqno : Nat} (h1 : 1 ≤ seqno)
    (h : seqno ≤ 127) : (segmentFrame node.value data start seqno).data.get 0 ≠ 0x80 := by
  have hseqno : (UInt8.ofNat seqno).toNat = seqno :=
    UInt8.toNat_ofNat_of_lt' (Nat.lt_of_le_of_lt h (by decide))
  rw [← message_blockSegment node data start h1 h]
  exact BlockSegment.message_head_ne_abort .client node (by rw [blockSegment, hseqno]; omega)
    (by rw [blockSegment, hseqno]; omega)

end

theorem segmentFrames_behind (node : UInt8) (data : List UInt8) (start : Nat) {j length : Nat}
    (h : j < length) :
    segmentFrames node data start (j + 1) length
      = (List.range' (j + 1) (length - 1 - j)).map (segmentFrame node data start)
        ++ [segmentFrame node data start length] := by
  rw [segmentFrames, Traffic.range'_behind h, List.map_append]
  rfl

namespace Call

section
variable {c : Call σ} {data : List UInt8} {checked : Bool} {start : Nat} {d : Tally}

theorem carries_checkBlockSize_stands {k : Conduct Sending} (size : UInt8) :
    Carries
      (c.Stands k (Conduct.after c.node.value c.target
        (goOnWith c.node.value data checked start size)) d)
      (c.FailsAt k) (c.traced.checkBlockSize size) fun b =>
        c.Stands k (Conduct.after c.node.value c.target
          (goOn c.node.value data checked start b.value.toNat)) d := by
  intro s hs
  rw [goOnWith] at hs
  rw [checkBlockSize, BlockSize.ofByte?]
  by_cases hsize : 0 < size.toNat ∧ size.toNat ≤ 127
  · rw [if_pos hsize] at hs
    rw [dif_pos hsize]
    exact hs
  · rw [if_neg hsize] at hs
    rw [dif_neg hsize]
    exact carries_abandon_stands rfl s hs

theorem sendBlockSegment_eq {seqno : Nat} (h1 : 1 ≤ seqno) (h : seqno ≤ 127) :
    c.traced.sendBlockSegment data start seqno
      = c.traced.sendMessage (segmentFrame c.node.value data start seqno) :=
  congrArg c.traced.sendMessage (message_blockSegment c.node data start h1 h)

/-- A block is sent from some segment on. The last segment is asked with: it is the one that is sent
again when no acknowledgement comes. -/
theorem carries_sendSegments_stands (hd : c.direction = .download) {j length : Nat}
    (hj : j < length) (hlength : length ≤ 127) :
    let k := blockSender c.config c.node.value c.target data
    Carries
      (c.Stands k ⟨segmentFrames c.node.value data start (j + 1) length,
        .waits (.block checked start length)⟩ d)
      (c.FailsAt k) (do
        (List.range' (j + 1) (length + 1 - (j + 1))).forM (c.traced.sendBlockSegment data start)
        c.traced.await (c.traced.sendBlockSegment data start length)) fun r =>
          c.Stands k (Conduct.after c.node.value c.target
            (respond c.config c.node.value data (.block checked start length) r)) d := by
  intro k
  have hplain := plain_of_download hd
  have h1 : 1 ≤ length := Nat.one_le_of_lt hj
  have hlast : c.traced.sendBlockSegment data start length
      = c.traced.sendMessage (segmentFrame c.node.value data start length) :=
    sendBlockSegment_eq h1 hlength
  rw [Traffic.forM_behind hj, segmentFrames_behind _ _ _ hj, bind_assoc, hlast]
  refine carries_bind (carries_forM_stands (fun i hi => ?_) fun i _ => hplain _) fun _ => ?_
  · obtain ⟨hi1, hin⟩ := List.mem_range'_1.mp hi
    exact sendBlockSegment_eq (by omega) (by omega)
  · exact carries_ask_stands (respond c.config c.node.value data (.block checked start length))
      (hplain _) (head_segmentFrame c.node data start h1 hlength) rfl fun _ => rfl

theorem carries_downloadBlockFrom_stands (hd : c.direction = .download) {j length : Nat}
    (hj : j < length) (hlength : length ≤ 127) (n : Nat) :
    let k := blockSender c.config c.node.value c.target data
    Carries
      (c.Stands k ⟨segmentFrames c.node.value data start (j + 1) length,
        .waits (.block checked start length)⟩ d)
      (c.FailsAt k) (c.traced.downloadBlockFrom data start length (j + 1) n) fun next =>
        c.Stands k (Conduct.after c.node.value c.target
          (goOn c.node.value data checked (start + length) next.value.toNat)) d := by
  intro k
  induction n generalizing j with
  | zero =>
    exact fun s hs => ⟨hs.turn.inTime.failsDuly (by simp), _, hs.course, _, rfl⟩
  | succ n ih =>
    rw [downloadBlockFrom, ← bind_assoc]
    refine carries_bind (carries_sendSegments_stands hd hj hlength) fun r => ?_
    cases r with
    | confirmBlock seqno next =>
      rw [respond]
      dsimp only
      by_cases hmore : length < seqno.toNat
      · rw [if_pos hmore, if_pos hmore]
        exact carries_abandon_stands rfl
      · rw [if_neg hmore, if_neg hmore]
        by_cases hall : seqno.toNat = length
        · rw [if_pos hall, if_pos hall]
          exact carries_checkBlockSize_stands next
        · rw [if_neg hall, if_neg hall]
          exact carries_bind (carries_note_stands _ _) fun _ => ih (by omega)
    | _ => exact carries_unexpected_stands _

theorem carries_downloadBlocks_stands (hd : c.direction = .download) (size : BlockSize)
    (ht : d.transferred = min (start * segmentSize) data.length) :
    let k := blockSender c.config c.node.value c.target data
    Carries
      (c.Stands k (Conduct.after c.node.value c.target
        (goOn c.node.value data checked start size.value.toNat)) d)
      (c.FailsAt k) (c.traced.downloadBlocks data start size) fun _ =>
        c.Stands k ⟨[endFrame c.node.value data checked], .waits (.closing checked)⟩
          { d with transferred := data.length } := by
  intro k
  induction hk : segmentCount data - start using Nat.strongRecOn generalizing start size d with
  | ind left ih =>
    have hpos := size.pos
    have hsize := size.le
    rw [downloadBlocks, goOn]
    by_cases hmore : start < segmentCount data
    · rw [if_pos hmore, if_pos hmore]
      refine carries_bind (carries_note_stands _ _) fun _ => ?_
      refine carries_bind (carries_downloadBlockFrom_stands (j := 0) hd (by omega) (by omega)
        c.patience) fun next => ?_
      refine carries_bind (carries_modify_stands (fun d => { d with transferred := _ })
        (fun _ => rfl) (fun _ => rfl) fun _ => rfl) fun _ => ?_
      exact ih _ (by omega) next rfl rfl
    · rw [if_neg hmore, if_neg hmore]
      have hall : d.transferred = data.length := by
        have hcount := (segmentCount_spec data).1
        have hle : segmentCount data * segmentSize ≤ start * segmentSize :=
          Nat.mul_le_mul_right _ (Nat.le_of_not_lt hmore)
        omega
      rw [← hall]
      exact fun s hs => hs

theorem carries_downloadBlock_stands (hd : c.direction = .download)
    (hlength : data.length < sizeLimit) :
    let k := blockSender c.config c.node.value c.target data
    Carries (c.Stands k k.start {}) (c.FailsAt k) (c.traced.downloadBlock data) fun _ s =>
      ∃ d, c.Stands k ⟨[], .ended .done⟩ d s := by
  intro k
  have hopening := message_initiateBlockDownload c.node c.config c.target hlength
  have hstart : k.start = ⟨[(Request.initiateBlockDownload c.config.useCrc true c.target
      (UInt32.ofNat data.length)).message c.node], .waits .opening⟩ := by
    rw [hopening]
    rfl
  rw [downloadBlock, hstart]
  refine carries_bind (carries_modify_stands (fun d => { d with announced := some data.length })
    (fun _ => rfl) (fun _ => rfl) fun _ => rfl) fun _ => ?_
  have hregular : (Request.initiateBlockDownload c.config.useCrc true c.target
      (UInt32.ofNat data.length)).Regular := .of_plain trivial
  refine carries_bind (carries_exchange_stands (respond c.config c.node.value data .opening)
    hregular (by simp) hopening.symm fun _ => rfl) fun r => ?_
  cases r with
  | confirmBlockDownload serverCrc a size =>
    refine carries_bind (carries_checkBlockSize_stands size) fun b => ?_
    refine carries_bind (carries_downloadBlocks_stands hd b (by simp)) fun _ => ?_
    have hclosing := message_endBlockDownload c.node data (serverCrc && c.config.useCrc)
    rw [← hclosing]
    refine carries_bind (carries_exchange_stands
      (respond c.config c.node.value data (.closing (serverCrc && c.config.useCrc)))
      (Traffic.regular_endBlockDownload data _) (by simp) hclosing.symm fun _ => rfl) fun r => ?_
    cases r with
    | confirmBlockDownloadEnd =>
      rw [respond, ← Move.sized_self data.length (.ends [] .done)]
      exact (carries_checkSize_stands
        (d := { announced := some data.length, transferred := data.length }) (.ends [] .done)).mono
        (fun _ h => h) fun _ _ h => ⟨_, h⟩
    | _ => exact carries_unexpected_stands _
  | _ => exact carries_unexpected_stands _

end

end Call

/-- The frames of a block download, and what it comes to, are those that the replies of the server
call for. -/
theorem block_download_follows_replies (client : Client σ) (node : NodeId) (target : Address)
    (data : List UInt8) (w : σ) (h : data.length < sizeLimit) :
    (blockSender client.config node.value target data).Explains node.value target client.config
      .download (client.observe node.value target (.downloadBlock data) w).2
      (client.perform node.value target (.downloadBlock data) w).1 := by
  have hperform : client.traced.perform node.value target (.downloadBlock data) (w, [])
      = Outcome.map (fun _ => .done) ((client.call node target .download).traced.run .block
          ((client.call node target .download).traced.downloadBlock data) (w, [])) := by
    rw [perform, downloadBlock, if_pos h, transfer_node]
    rfl
  exact explained_of_perform client hperform (Call.carries_downloadBlock_stands rfl h)

/-- The server misses the second of two segments, and then takes it. -/
theorem block_download_follows_replies_of_script :
    let node : NodeId := ⟨5, by decide, by decide⟩
    let data : List UInt8 := [1, 2, 3, 4, 5, 6, 7, 8]
    let replies : List (List Response) :=
      [[.confirmBlockDownload true ⟨0x2000, 0⟩ 2], [], [.confirmBlock 1 2], [.confirmBlock 2 2],
        [.confirmBlockDownloadEnd]]
    let client : Client (Script TransportError) := { link := Script.link, patience := 10 }
    let s : Script TransportError :=
      { replies := replies.map fun rs =>
          .ok (rs.map fun r => .event (.frame (r.message node)) 0 1) }
    let events := (client.observe 5 ⟨0x2000, 0⟩ (.downloadBlock data) s).2
    let result := (client.perform 5 ⟨0x2000, 0⟩ (.downloadBlock data) s).1
    data.length < sizeLimit ∧ result = .ok .done ∧
      (events.filterMap fun e => match e.act with | .sent m _ => some m | _ => none)
        = [openingFrame client.config 5 ⟨0x2000, 0⟩ data, segmentFrame 5 data 0 1,
          segmentFrame 5 data 0 2, segmentFrame 5 data 0 2, endFrame 5 data true] ∧
      (blockSender client.config 5 ⟨0x2000, 0⟩ data).Explains 5 ⟨0x2000, 0⟩ client.config .download
        events result := by
  intro node data replies client s events result
  have hshort : data.length < sizeLimit := by decide
  refine ⟨hshort, ?_, ?_, block_download_follows_replies client node ⟨0x2000, 0⟩ data s hshort⟩
  · decide +kernel
  · decide +kernel

end Canopen.Client
