import Canopen.Client.Block
import Canopen.Proofs.Framing

set_option autoImplicit false

namespace Canopen.Sdo.Traffic

open Can (Message)

variable (node : NodeId) (target : Address) (data : List UInt8)

def expeditedDownload (fits : data.length ≤ 4) : List Message :=
  [(Request.expedited target data fits).message node]

def downloadSegments (i count : Nat) : List Message :=
  (List.range' i count).map fun i =>
    (Request.segment (i % 2 = 1) (i + 1 = segmentCount data) (segmentBytes data i)
      (segmentBytes_length_le data i)).message node

theorem downloadSegments_succ (i count : Nat) :
    downloadSegments node data i (count + 1) =
      (Request.segment (i % 2 = 1) (i + 1 = segmentCount data) (segmentBytes data i)
        (segmentBytes_length_le data i)).message node
        :: downloadSegments node data (i + 1) count := rfl

def segmentedDownload : List Message :=
  (Request.announce target (some (UInt32.ofNat data.length))).message node
    :: downloadSegments node data 0 (segmentCount data)

def blockSegments (blockSize i count : Nat) : List Message :=
  (List.range' i count).map fun i =>
    (Client.blockSegment data i (UInt8.ofNat (i % blockSize + 1))).message .client node

theorem blockSegments_append (blockSize i m n : Nat) :
    blockSegments node data blockSize i m ++ blockSegments node data blockSize (i + m) n
      = blockSegments node data blockSize i (m + n) := by
  rw [blockSegments, blockSegments, ← List.map_append, List.range'_append_1]
  rfl

theorem blockSegments_eq {blockSize start j n : Nat} (hs : start % blockSize = 0)
    (hn : j + n ≤ blockSize) :
    blockSegments node data blockSize (start + j) n =
      (List.range' (j + 1) n).map fun q =>
        (Client.blockSegment data (start + q - 1) (UInt8.ofNat q)).message .client node := by
  induction n generalizing j with
  | zero => simp [blockSegments]
  | succ n ih =>
    have hj : j < blockSize := by omega
    have hmod : (start + j) % blockSize = j := by
      rw [Nat.add_mod, hs, Nat.zero_add, Nat.mod_mod, Nat.mod_eq_of_lt hj]
    have hseg : start + (j + 1) - 1 = start + j := by omega
    have ih' := ih (j := j + 1) (by omega)
    rw [List.range'_succ, List.map_cons, ← ih', hseg]
    simp only [blockSegments, List.range'_succ, List.map_cons, hmod]
    rfl

theorem range'_behind {j n : Nat} (hj : j < n) :
    List.range' (j + 1) (n + 1 - (j + 1)) = List.range' (j + 1) (n - 1 - j) ++ [n] := by
  have hcount : n + 1 - (j + 1) = (n - 1 - j) + 1 := by omega
  have hlast : j + 1 + 1 * (n - 1 - j) = n := by omega
  rw [hcount, List.range'_concat, hlast]

theorem forM_behind {m : Type → Type} [Monad m] [LawfulMonad m] {j n : Nat} (hj : j < n)
    (f : Nat → m Unit) :
    (List.range' (j + 1) (n + 1 - (j + 1))).forM f
      = (List.range' (j + 1) (n - 1 - j)).forM f >>= fun _ => f n := by
  rw [range'_behind hj, List.forM_eq_forM, List.forM_append]
  simp

theorem blockSegments_behind {blockSize start j n : Nat} (hs : start % blockSize = 0)
    (hj : j < n) (hn : n ≤ blockSize) :
    blockSegments node data blockSize (start + j) (n - j) =
      ((List.range' (j + 1) (n - 1 - j)).map fun q =>
        (Client.blockSegment data (start + q - 1) (UInt8.ofNat q)).message .client node)
      ++ [(Client.blockSegment data (start + n - 1) (UInt8.ofNat n)).message .client node] := by
  have hcount : n - j = n + 1 - (j + 1) := by omega
  rw [blockSegments_eq _ _ hs (by omega), hcount, range'_behind hj, List.map_append]
  rfl

/-- `useCrc` is what the client wants, and `serverCrc` what the server can do. -/
def blockDownload (useCrc serverCrc : Bool) (blockSize : Nat) : List Message :=
  (Request.initiateBlockDownload useCrc true target (UInt32.ofNat data.length)).message node
    :: blockSegments node data blockSize 0 (segmentCount data)
    ++ [(Request.endBlockDownload
        (UInt8.ofNat (segmentCount data * segmentSize - data.length))
        (if serverCrc && useCrc then crc data else 0)).message node]

def uploadSegments (i count : Nat) : List Message :=
  (List.range' i count).map fun i => (Request.uploadSegment (i % 2 = 1)).message node

theorem uploadSegments_succ (i count : Nat) :
    uploadSegments node i (count + 1) =
      (Request.uploadSegment (i % 2 = 1)).message node :: uploadSegments node (i + 1) count := rfl

def normalUpload : List Message :=
  if 1 ≤ data.length ∧ data.length ≤ 4 then []
  else uploadSegments node 0 (segmentCount data)

def acknowledgements (blockSize : UInt8) (start : Nat) : List Message :=
  (List.range ((segmentCount data - start + (blockSize.toNat - 1)) / blockSize.toNat)).map
    fun j =>
      let left := segmentCount data - start - j * blockSize.toNat
      (Request.confirmBlock (UInt8.ofNat (min blockSize.toNat left)) blockSize).message node

theorem acknowledgements_last {blockSize : UInt8} {start : Nat} (hs : start < segmentCount data)
    (hl : segmentCount data - start ≤ blockSize.toNat) :
    acknowledgements node data blockSize start =
      [(Request.confirmBlock (UInt8.ofNat (segmentCount data - start)) blockSize).message
        node] := by
  have hone : (segmentCount data - start + (blockSize.toNat - 1)) / blockSize.toNat = 1 := by
    rw [Nat.div_eq_iff (by omega)]
    omega
  have hmin : min blockSize.toNat (segmentCount data - start - 0 * blockSize.toNat)
      = segmentCount data - start := by
    omega
  rw [acknowledgements, hone]
  simp only [List.range_one, List.map_cons, List.map_nil, hmin]

theorem acknowledgements_more {blockSize : UInt8} {start : Nat} (hb : 0 < blockSize.toNat)
    (hl : blockSize.toNat < segmentCount data - start) :
    acknowledgements node data blockSize start =
      (Request.confirmBlock blockSize blockSize).message node
        :: acknowledgements node data blockSize (start + blockSize.toNat) := by
  have hcount : (segmentCount data - start + (blockSize.toNat - 1)) / blockSize.toNat =
      (segmentCount data - (start + blockSize.toNat) + (blockSize.toNat - 1)) / blockSize.toNat
        + 1 := by
    rw [← Nat.add_div_right _ hb]
    congr 1
    omega
  have hfirst : min blockSize.toNat (segmentCount data - start - 0 * blockSize.toNat)
      = blockSize.toNat := by
    omega
  have hrest : ∀ j, segmentCount data - start - (j + 1) * blockSize.toNat
      = segmentCount data - (start + blockSize.toNat) - j * blockSize.toNat := by
    intro j
    rw [Nat.succ_mul]
    omega
  rw [acknowledgements, hcount, List.range_succ_eq_map]
  simp only [List.map_cons, List.map_map, hfirst, UInt8.ofNat_toNat, acknowledgements,
    Function.comp_def, hrest]

def blockUpload (blockSize : UInt8) : List Message :=
  Request.startBlockUpload.message node :: acknowledgements node data blockSize 0
    ++ [Request.confirmBlockUploadEnd.message node]

/-- A server that may switch the protocol does so for an object up to the threshold. -/
def switchedUpload (switch : Bool) (blockSize threshold : UInt8) : List Message :=
  if switch = true ∧ data.length ≤ threshold.toNat then normalUpload node data
  else blockUpload node data blockSize

/-- No message among these is an abort. Segments of a block are never read as one. -/
def NoAbort (ms : List Message) : Prop := ∀ m ∈ ms, m.data.get 0 ≠ 0x80

theorem noAbort_nil : NoAbort [] := by
  simp [NoAbort]

theorem NoAbort.cons {m : Message} {ms : List Message} (h : m.data.get 0 ≠ 0x80) (hs : NoAbort ms) :
    NoAbort (m :: ms) := List.forall_mem_cons.mpr ⟨h, hs⟩

theorem NoAbort.append {ms ns : List Message} (h : NoAbort ms) (h' : NoAbort ns) :
    NoAbort (ms ++ ns) := List.forall_mem_append.mpr ⟨h, h'⟩

theorem noAbort_map {ι : Type} {f : ι → Message} {is : List ι}
    (h : ∀ i, (f i).data.get 0 ≠ 0x80) : NoAbort (is.map f) :=
  List.forall_mem_map.mpr fun i _ => h i

theorem noAbort_expeditedDownload (fits : data.length ≤ 4) (h : 1 ≤ data.length) :
    NoAbort (expeditedDownload node target data fits) :=
  noAbort_nil.cons ((Request.regular_expedited target fits h).message_head_ne_abort node)

theorem noAbort_segmentedDownload : NoAbort (segmentedDownload node target data) := by
  refine NoAbort.cons ((Request.regular_announce target _).message_head_ne_abort node) ?_
  exact noAbort_map fun i => (Request.regular_segment _ _ _).message_head_ne_abort node

theorem regular_endBlockDownload (checksum : UInt16) :
    (Request.endBlockDownload (UInt8.ofNat (segmentCount data * segmentSize - data.length))
      checksum).Regular :=
  ⟨Nat.le_trans (Nat.le_of_eq (toNat_unused data)) (unused_le data), trivial,
    by simp [Request.kind]⟩

theorem noAbort_blockDownload (useCrc serverCrc : Bool) {blockSize : Nat} (h0 : 0 < blockSize)
    (h : blockSize ≤ 127) :
    NoAbort (blockDownload node target data useCrc serverCrc blockSize) := by
  have hinitiate : (Request.initiateBlockDownload useCrc true target
      (UInt32.ofNat data.length)).Regular := .of_plain trivial
  refine NoAbort.append (NoAbort.cons (hinitiate.message_head_ne_abort node) ?_) ?_
  · refine noAbort_map fun i => ?_
    have hmod : i % blockSize < blockSize := Nat.mod_lt i h0
    have hseqno : (UInt8.ofNat (i % blockSize + 1)).toNat = i % blockSize + 1 :=
      UInt8.toNat_ofNat_of_lt (show _ < 256 by omega)
    refine BlockSegment.message_head_ne_abort .client node ?_ ?_
    · show 0 < (UInt8.ofNat (i % blockSize + 1)).toNat
      omega
    · show (UInt8.ofNat (i % blockSize + 1)).toNat < 128
      omega
  · exact noAbort_nil.cons ((regular_endBlockDownload data _).message_head_ne_abort node)

theorem noAbort_normalUpload : NoAbort (normalUpload node data) := by
  have hregular : ∀ toggle, (Request.uploadSegment toggle).Regular :=
    fun _ => .of_plain trivial
  rw [normalUpload]
  split
  · exact noAbort_nil
  · exact noAbort_map fun i => (hregular _).message_head_ne_abort node

theorem noAbort_switchedUpload (switch : Bool) (blockSize threshold : UInt8) :
    NoAbort (switchedUpload node data switch blockSize threshold) := by
  have hstart : Request.startBlockUpload.Regular := .of_plain trivial
  have hconfirm : ∀ seqno, (Request.confirmBlock seqno blockSize).Regular :=
    fun _ => .of_plain trivial
  have hend : Request.confirmBlockUploadEnd.Regular := .of_plain trivial
  rw [switchedUpload]
  split
  · exact noAbort_normalUpload node data
  · refine NoAbort.append (NoAbort.cons (hstart.message_head_ne_abort node) ?_) ?_
    · exact noAbort_map fun j => (hconfirm _).message_head_ne_abort node
    · exact noAbort_nil.cons (hend.message_head_ne_abort node)

end Canopen.Sdo.Traffic
