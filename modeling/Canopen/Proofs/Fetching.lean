import Canopen.Proofs.Courses

/-!
An upload as a client follows it, in segments that it asks for one by one or in blocks that come on
their own. In a block it counts the segments that came in order and lets all others go; what it
tells the server is that count, behind the end of a block and when the deadline has passed.
-/

set_option autoImplicit false

namespace Canopen.Client

open Can (Message TransportError)
open Sdo
open Transfer

variable {σ : Type}

/-- Where an upload waits for the server. -/
inductive Fetching where
  | opening
  /-- For the next segment of a block, of which so many came in order. All segments that were taken
  are kept. When there are none of this block, `request` is what brings it. -/
  | stream (checked : Bool) (size : Option Nat) (count : Nat) (taken : List Message)
      (request : Message)
  | closing (checked : Bool) (size : Option Nat) (count : Nat) (taken : List Message)
  | segments (toggle : Bool) (size : Option Nat) (bytes : List UInt8)

namespace Fetching

def carried (taken : List Message) : List UInt8 := taken.flatMap fun m => m.data.toList.drop 1

section
variable (config : Config) (node : UInt8) (target : Address)

def openingFrame : Message where
  id := .std (0x600 + node.toUInt16)
  data :=
    #v[if config.useCrc then 0xA4 else 0xA0, byteAt target.index.toNat 0,
      byteAt target.index.toNat 1, target.sub, config.blockSize,
      UInt8.ofNat (min config.blockThreshold.toNat 255), 0, 0]
  dlc := 8
  rtr := false

def segmentRequest (toggle : Bool) : Message where
  id := .std (0x600 + node.toUInt16)
  data := #v[if toggle then 0x70 else 0x60, 0, 0, 0, 0, 0, 0, 0]
  dlc := 8
  rtr := false

def completionFrame : Message where
  id := .std (0x600 + node.toUInt16)
  data := #v[0xA1, 0, 0, 0, 0, 0, 0, 0]
  dlc := 8
  rtr := false

/-- Behind a segment with the largest number, and behind one that is marked as the last of all, the
client tells how many of the block it has. If it has all of them a new block begins. -/
def goOn (checked : Bool) (size : Option Nat) (count : Nat) (taken : List Message)
    (request m : Message) : Move Fetching :=
  if m.data.get 0 &&& 0x7F = config.blockSize ∨ Command.flag (m.data.get 0) 7 then
    let acknowledgement := acknowledgementFrame node config.blockSize count
    .goes [acknowledgement]
      (.stream checked size (if count = config.blockSize.toNat then 0 else count) taken
        acknowledgement)
  else .goes [] (.stream checked size count taken request)

/-- A segment is taken when its number is the next one. With the last one the stream ends. -/
def advance (checked : Bool) (size : Option Nat) (count : Nat) (taken : List Message)
    (request m : Message) : Move Fetching :=
  if (m.data.get 0 &&& 0x7F).toNat = count + 1 then
    if Command.flag (m.data.get 0) 7 then
      .goes [acknowledgementFrame node config.blockSize (count + 1)]
        (.closing checked size (count + 1) (taken ++ [m]))
    else goOn config node checked size (count + 1) (taken ++ [m]) request m
  else goOn config node checked size count taken request m

def hearSegment (checked : Bool) (size : Option Nat) (count : Nat) (taken : List Message)
    (request m : Message) : Move Fetching :=
  let number := m.data.get 0 &&& 0x7F
  if m.dlc ≠ 8 then .fails (.malformed (.malformedLength m.dlc))
  else if m.data.get 0 = 0x80 then
    .fails (.serverAbort (Address.ofPayload m.data) (.ofCode (lastWord m.data)))
  else if number = 0 ∨ config.blockSize < number then .fails (.sequence number)
  else advance config node checked size count taken request m

def begin : Response → Move Fetching
  | .confirmUpload unused true sized _ data =>
    .ends [] (.bytes (data.toList.take (if sized then 4 - unused.toNat else 4)))
  | .confirmUpload _ false sized _ data =>
    .goes [segmentRequest node false]
      (.segments false (if sized then some (wordOf data).toNat else none) [])
  | _ => .fails .unexpectedResponse

def join (toggle : Bool) (size : Option Nat) (bytes : List UInt8) : Response → Move Fetching
  | .uploadSegment t unused last data =>
    if t = toggle then
      let bytes := bytes ++ data.toList.take (7 - unused.toNat)
      if last then .sized size bytes.length (.ends [] (.bytes bytes))
      else .goes [segmentRequest node !toggle] (.segments (!toggle) size bytes)
    else .fails .toggleMismatch
  | _ => .fails .unexpectedResponse

def beginBlocks : Response → Move Fetching
  | .confirmBlockUpload serverCrc sized _ size =>
    .goes [startFrame node]
      (.stream (serverCrc && config.useCrc) (if sized then some size.toNat else none) 0 []
        (startFrame node))
  | r => begin node r

def finish (checked : Bool) (size : Option Nat) (taken : List Message) : Response → Move Fetching
  | .endBlockUpload unused checksum =>
    let object := (carried taken).take ((carried taken).length - unused.toNat)
    if checked ∧ crc object ≠ checksum then .fails (.crcMismatch checksum (crc object))
    else .sized size object.length (.ends [completionFrame node] (.bytes object))
  | _ => .fails .unexpectedResponse

end

end Fetching

open Fetching

/-- How an upload in blocks is to be done. -/
def blockReceiver (config : Config) (node : UInt8) (target : Address) : Conduct Fetching where
  opening := openingFrame config node target
  first := .opening
  hear
    | .opening => .reading (beginBlocks config node)
    | .stream checked size count taken request =>
      hearSegment config node checked size count taken request
    | .closing checked size _ taken => .reading (finish node checked size taken)
    | .segments toggle size bytes => .reading (join node toggle size bytes)
  again
    | .opening => openingFrame config node target
    | .stream _ _ count _ request =>
      if 0 < count then acknowledgementFrame node config.blockSize count else request
    | .closing _ _ count _ => acknowledgementFrame node config.blockSize count
    | .segments toggle _ _ => segmentRequest node toggle

/-- A conduct that does a normal upload as any other does. -/
structure Conduct.Joins (k : Conduct Fetching) (node : UInt8) : Prop where
  hear : ∀ toggle size bytes m, k.hear (.segments toggle size bytes) m
    = .reading (join node toggle size bytes) m
  again : ∀ toggle size bytes, k.again (.segments toggle size bytes) = segmentRequest node toggle

theorem message_uploadSegment (node : NodeId) (toggle : Bool) :
    (Request.uploadSegment toggle).message node = segmentRequest node.value toggle := by
  cases toggle <;> exact Request.message_eq node trivial trivial

namespace Call

variable {c : Call σ} {k : Conduct Fetching} {d : Tally}

theorem carries_uploadSegments_stands (hk : k.Joins c.node.value) (n : Nat)
    (hd : d.transferred = d.buffer.length) :
    Carries
      (c.Stands k ⟨[segmentRequest c.node.value d.toggle],
        .waits (.segments d.toggle d.announced d.buffer)⟩ d)
      (c.FailsAt k) (c.traced.uploadSegments n) fun _ s =>
        ∃ d', d'.announced = d.announced ∧ d'.transferred = d'.buffer.length ∧
          c.Stands k (Conduct.after c.node.value c.target
            (.sized d'.announced d'.transferred (.ends [] (.bytes d'.buffer)))) d' s := by
  induction n generalizing d with
  | zero => exact fun s hs => ⟨hs.turn.inTime.failsDuly (by simp), _, hs.course, _, rfl⟩
  | succ n ih =>
    intro s hs
    have htoggle : s.toggle = d.toggle := congrArg Tally.toggle hs.tally
    have hrequest := message_uploadSegment c.node d.toggle
    rw [← hrequest] at hs
    have hregular : (Request.uploadSegment d.toggle).Regular := .of_plain trivial
    rw [uploadSegments, ends_bind, ends_get, htoggle]
    refine carries_bind (carries_exchange_stands _ hregular (by simp)
      ((hk.again _ _ _).trans hrequest.symm) (hk.hear _ _ _)) (fun r => ?_) s hs
    cases r with
    | uploadSegment toggle unused last data =>
      refine carries_bind (carries_checkToggle_stands toggle _) fun _ => ?_
      refine carries_bind (carries_store_stands _) fun _ => ?_
      rw [hd, ← List.length_append]
      generalize d.buffer ++ data.toList.take (7 - unused.toNat) = bytes
      cases last with
      | true =>
        exact fun s hs =>
          ⟨{ d with toggle := !d.toggle, transferred := bytes.length, buffer := bytes },
            rfl, rfl, hs⟩
      | false =>
        exact ih (d := { d with toggle := !d.toggle, transferred := bytes.length, buffer := bytes })
          rfl
    | _ => exact carries_unexpected_stands _

theorem carries_buffer_stands :
    Carries (c.Stands k ⟨[], .ended (.bytes d.buffer)⟩ d) (c.FailsAt k)
      (do return (← get).buffer : Transfer (σ × List Event) (List UInt8)) fun object s =>
        ∃ d, c.Stands k ⟨[], .ended (.bytes object)⟩ d s := by
  intro s hs
  have hbuffer : s.buffer = d.buffer := congrArg Tally.buffer hs.tally
  rw [ends_bind, ends_get, hbuffer]
  exact ⟨d, hs⟩

theorem carries_continueUpload_stands (hk : k.Joins c.node.value) (r : Response) :
    Carries (c.Stands k (Conduct.after c.node.value c.target (begin c.node.value r)) {})
      (c.FailsAt k) (c.traced.continueUpload r) fun object s =>
        ∃ d, c.Stands k ⟨[], .ended (.bytes object)⟩ d s := by
  cases r with
  | confirmUpload unused expedited sized a data =>
    cases expedited with
    | true =>
      refine carries_bind (carries_modify_stands id (fun _ => rfl) (fun _ => rfl) fun _ => rfl)
        fun _ => ?_
      exact carries_bind (carries_store_stands _) fun _ => carries_buffer_stands
        (d := { transferred := _
                buffer := data.toList.take (if sized then 4 - unused.toNat else 4) })
    | false =>
      refine carries_bind (carries_modify_stands (fun d =>
        { d with announced := if sized then some (wordOf data).toNat else d.announced })
        (fun _ => rfl) (fun _ => rfl) fun _ => rfl) fun _ => ?_
      refine carries_bind (carries_uploadSegments_stands
        (d := { announced := if sized then some (wordOf data).toNat else none }) hk _ rfl)
        fun _ => ?_
      rintro s ⟨d, -, -, hs⟩
      exact carries_bind (carries_checkSize_stands _) (fun _ => carries_buffer_stands) s hs
  | _ => exact carries_unexpected_stands _

end Call

end Canopen.Client
