import Canopen.Sdo.BlockSegment

set_option autoImplicit false

namespace Canopen

theorem padTo_toList {n : Nat} {bytes : List UInt8} (h : bytes.length ≤ n) :
    (padTo n bytes).toList = bytes ++ List.replicate (n - bytes.length) 0 := by
  apply List.ext_getElem
  · simp; omega
  · intro i h1 h2
    simp [padTo, List.getElem_append]
    split <;> simp_all

theorem take_padTo {n : Nat} {bytes : List UInt8} (h : bytes.length ≤ n) :
    (padTo n bytes).toList.take bytes.length = bytes := by
  rw [padTo_toList h, List.take_left']
  rfl

theorem getElem_padTo_eq_zero {n i : Nat} {bytes : List UInt8} (h : i < n)
    (hi : bytes.length ≤ i) : (padTo n bytes)[i] = 0 := by
  simp [padTo, hi]

theorem toNat_ofNat_sub {n : Nat} (k : Nat) (h : n < 256) :
    (UInt8.ofNat (n - k)).toNat = n - k := by
  rw [UInt8.toNat_ofNat']
  omega

theorem getElem_padTo_unused {n i : Nat} {bytes : List UInt8} (h : bytes.length ≤ n) (hn : n < 256)
    (hi : i < n) (hle : n - (UInt8.ofNat (n - bytes.length)).toNat ≤ i) :
    (padTo n bytes)[i] = 0 := by
  rw [toNat_ofNat_sub _ hn] at hle
  exact getElem_padTo_eq_zero hi (by omega)

theorem take_used {n : Nat} {bytes : List UInt8} (h : bytes.length ≤ n) (hn : n < 256) :
    (padTo n bytes).toList.take (n - (UInt8.ofNat (n - bytes.length)).toNat) = bytes := by
  have hl : n - (n - bytes.length) = bytes.length := by omega
  rw [toNat_ofNat_sub _ hn, hl, take_padTo h]

namespace Sdo

theorem odd_succ (i : Nat) : (!decide (i % 2 = 1)) = decide ((i + 1) % 2 = 1) := by
  rw [← decide_not, decide_eq_decide]
  omega

variable (object : List UInt8)

theorem take_used_segmentBytes (i : Nat) :
    (padTo 7 (segmentBytes object i)).toList.take
        (7 - (UInt8.ofNat (7 - (segmentBytes object i).length)).toNat) = segmentBytes object i :=
  take_used (segmentBytes_length_le object i) (by decide)

theorem segmentCount_spec :
    object.length ≤ segmentCount object * segmentSize ∧
      (segmentCount object - 1) * segmentSize ≤ object.length ∧
      (0 < object.length → (segmentCount object - 1) * segmentSize < object.length) := by
  simp only [segmentCount, segmentSize]
  omega

theorem segmentCount_le : segmentCount object ≤ object.length + 1 := by
  simp only [segmentCount, segmentSize]
  omega

theorem length_le_iff_last {i : Nat} (h : i < segmentCount object) :
    object.length ≤ (i + 1) * segmentSize ↔ i + 1 = segmentCount object := by
  simp only [segmentCount, segmentSize] at *
  omega

theorem length_segmentBytes (i : Nat) :
    (segmentBytes object i).length = min 7 (object.length - i * 7) := by
  simp [segmentBytes, segmentSize]

theorem take_append_segmentBytes (i : Nat) :
    object.take (i * segmentSize) ++ segmentBytes object i
      = object.take ((i + 1) * segmentSize) := by
  rw [segmentBytes, Nat.succ_mul, List.take_add]

theorem length_take_add_length_segmentBytes (i : Nat) :
    (object.take (i * segmentSize)).length + (segmentBytes object i).length
      = (object.take ((i + 1) * segmentSize)).length := by
  rw [← List.length_append, take_append_segmentBytes]

theorem min_segmentCount : min (segmentCount object * segmentSize) object.length = object.length :=
  Nat.min_eq_right (segmentCount_spec object).1

theorem take_segmentCount : object.take (segmentCount object * segmentSize) = object :=
  List.take_of_length_le (segmentCount_spec object).1

/-- The first `k` segments, each filled up with zeros. -/
def filled (k : Nat) : List UInt8 :=
  (List.range k).flatMap fun i => (padTo 7 (segmentBytes object i)).toList

@[simp] theorem filled_zero : filled object 0 = [] := rfl

theorem filled_succ (k : Nat) :
    filled object (k + 1) = filled object k ++ (padTo 7 (segmentBytes object k)).toList := by
  simp [filled, List.range_succ]

@[simp] theorem length_filled (k : Nat) : (filled object k).length = k * segmentSize := by
  induction k with
  | zero => rfl
  | succ k ih =>
    rw [filled_succ, List.length_append, ih, Vector.length_toList, Nat.succ_mul, segmentSize]

theorem filled_eq_take {k : Nat} (h : k * segmentSize ≤ object.length) :
    filled object k = object.take (k * segmentSize) := by
  induction k with
  | zero => simp
  | succ k ih =>
    have hk : k * segmentSize ≤ object.length := by
      rw [Nat.succ_mul] at h
      omega
    have hl : (segmentBytes object k).length = 7 := by
      rw [length_segmentBytes]
      simp only [segmentSize] at h
      omega
    rw [filled_succ, ih hk, ← take_append_segmentBytes, padTo_toList (by omega), hl]
    simp

theorem take_filled :
    (filled object (segmentCount object)).take object.length = object := by
  obtain ⟨k, hk⟩ : ∃ k, segmentCount object = k + 1 :=
    Nat.exists_eq_add_of_le' (segmentCount_pos object)
  have hspec := segmentCount_spec object
  rw [hk, Nat.add_sub_cancel] at hspec
  rw [hk]
  have happ := take_append_segmentBytes object k
  rw [List.take_of_length_le hspec.1] at happ
  rw [filled_succ, filled_eq_take object hspec.2.1, padTo_toList (segmentBytes_length_le object k),
    ← List.append_assoc, happ]
  exact List.take_left' rfl

theorem unused_le : segmentCount object * segmentSize - object.length ≤ 7 := by
  simp only [segmentCount, segmentSize]
  omega

theorem toNat_unused :
    (UInt8.ofNat (segmentCount object * segmentSize - object.length)).toNat
      = segmentCount object * segmentSize - object.length :=
  UInt8.toNat_ofNat_of_lt (Nat.lt_of_le_of_lt (unused_le object) (by decide))

theorem take_filled_sub_unused :
    (filled object (segmentCount object)).take
        ((filled object (segmentCount object)).length
          - (segmentCount object * segmentSize - object.length)) = object := by
  have hspec := segmentCount_spec object
  have hl : segmentCount object * segmentSize
      - (segmentCount object * segmentSize - object.length) = object.length := by
    omega
  rw [length_filled, hl, take_filled]

theorem trim_filled {buffer : List UInt8} (h : buffer = filled object (segmentCount object)) :
    buffer.take (buffer.length
      - (UInt8.ofNat (segmentCount object * segmentSize - object.length)).toNat) = object := by
  rw [h, toNat_unused]
  exact take_filled_sub_unused object

theorem segmentBytes_drop (i j : Nat) :
    segmentBytes (object.drop (i * segmentSize)) j = segmentBytes object (i + j) := by
  rw [segmentBytes, segmentBytes, List.drop_drop, Nat.add_mul]

theorem segmentCount_drop {i : Nat} (h : i < segmentCount object) :
    i + segmentCount (object.drop (i * segmentSize)) = segmentCount object := by
  simp only [segmentCount, segmentSize, List.length_drop] at *
  omega

theorem unused_drop {i : Nat} (h : i < segmentCount object) :
    segmentCount (object.drop (i * segmentSize)) * segmentSize
        - (object.drop (i * segmentSize)).length
      = segmentCount object * segmentSize - object.length := by
  have hcount := segmentCount_drop object h
  have hspec := segmentCount_spec object
  simp only [segmentSize, List.length_drop] at *
  omega

end Sdo
end Canopen
