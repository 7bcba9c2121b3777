import Canopen.Proofs.Segments

/-!
Computations that stop where a machine would go wrong: at a byte that is not there, below zero, past
the end of a word, and when a number is cut down to fewer bits than it has.
-/

set_option autoImplicit false

namespace Canopen

open Sdo

/-- What goes wrong. -/
inductive Trap where
  | outOfBounds
  | underflow
  | overflow
  | truncation
  | assertion
  deriving DecidableEq, Repr

abbrev Guarded (α : Type) := Except Trap α

namespace Guarded

variable {α β : Type}

def assert (p : Prop) [Decidable p] : Guarded Unit := if p then .ok () else .error .assertion

def difference (a b : Nat) : Guarded Nat := if b ≤ a then .ok (a - b) else .error .underflow

/-- A sum of lengths or of positions, which are to stay below a limit. -/
def sum (limit a b : Nat) : Guarded Nat := if a + b < limit then .ok (a + b) else .error .overflow

def product (limit a b : Nat) : Guarded Nat :=
  if a * b < limit then .ok (a * b) else .error .overflow

def below (limit n : Nat) : Guarded Nat := if n < limit then .ok n else .error .truncation

def byteSum (a b : UInt8) : Guarded UInt8 :=
  if a.toNat + b.toNat < UInt8.size then .ok (a + b) else .error .overflow

def byteDifference (a b : UInt8) : Guarded UInt8 :=
  if b.toNat ≤ a.toNat then .ok (a - b) else .error .underflow

def toByte (n : Nat) : Guarded UInt8 :=
  if n < UInt8.size then .ok (UInt8.ofNat n) else .error .truncation

def toWord (n : Nat) : Guarded UInt32 :=
  if n < UInt32.size then .ok (UInt32.ofNat n) else .error .truncation

def slice (bytes : List UInt8) (start stop : Nat) : Guarded (List UInt8) :=
  if start ≤ stop ∧ stop ≤ bytes.length then .ok ((bytes.drop start).take (stop - start))
  else .error .outOfBounds

def invert (bytes : List UInt8) (i : Nat) : Guarded (List UInt8) :=
  if i < bytes.length then .ok (bytes.modify i (· ^^^ 0xFF)) else .error .outOfBounds

def copy (n length : Nat) (bytes : List UInt8) : Guarded (Vector UInt8 n) :=
  if length ≤ n ∧ bytes.length = length then .ok (padTo n bytes) else .error .outOfBounds

theorem toNat_succ {x : UInt8} (h : x.toNat < 255) : (x + 1).toNat = x.toNat + 1 := by
  rw [UInt8.toNat_add]
  exact Nat.mod_eq_of_lt (Nat.succ_lt_succ h)

theorem bind_ok (a : α) (f : α → Guarded β) : (Except.ok a >>= f) = f a := rfl

section
variable {limit a b n length start stop : Nat} {x y : UInt8} {bytes : List UInt8}

theorem assert_eq {p : Prop} [Decidable p] (h : p) : assert p = .ok () := if_pos h

theorem difference_eq (h : b ≤ a) : difference a b = .ok (a - b) := if_pos h

theorem sum_eq (h : a + b < limit) : sum limit a b = .ok (a + b) := if_pos h

theorem product_eq (h : a * b < limit) : product limit a b = .ok (a * b) := if_pos h

theorem below_eq (h : n < limit) : below limit n = .ok n := if_pos h

theorem byteSum_one_eq (h : x.toNat < 255) : byteSum x 1 = .ok (x + 1) :=
  if_pos (Nat.succ_lt_succ h)

theorem byteDifference_eq (h : y.toNat ≤ x.toNat) : byteDifference x y = .ok (x - y) := if_pos h

theorem byteDifference_ofNat_eq (ha : a < 256) (h : b ≤ a) :
    byteDifference (UInt8.ofNat a) (UInt8.ofNat b) = .ok (UInt8.ofNat (a - b)) := by
  have hatoNat : (UInt8.ofNat a).toNat = a := UInt8.toNat_ofNat_of_lt' ha
  have hbtoNat : (UInt8.ofNat b).toNat = b := UInt8.toNat_ofNat_of_lt' (Nat.lt_of_le_of_lt h ha)
  have hle : (UInt8.ofNat b).toNat ≤ (UInt8.ofNat a).toNat := by rw [hatoNat, hbtoNat]; exact h
  rw [byteDifference_eq hle]
  refine congrArg Except.ok (UInt8.toNat_inj.mp ?_)
  rw [UInt8.toNat_sub_of_le _ _ (UInt8.le_iff_toNat_le.mpr hle), hatoNat, hbtoNat,
    toNat_ofNat_sub _ ha]

theorem toByte_eq (h : n < 256) : toByte n = .ok (UInt8.ofNat n) := if_pos h

theorem toWord_eq (h : n < UInt32.size) : toWord n = .ok (UInt32.ofNat n) := if_pos h

theorem slice_eq (hstart : start ≤ stop) (hstop : stop ≤ bytes.length) :
    slice bytes start stop = .ok ((bytes.drop start).take (stop - start)) :=
  if_pos ⟨hstart, hstop⟩

theorem slice_zero_eq (h : stop ≤ bytes.length) : slice bytes 0 stop = .ok (bytes.take stop) :=
  slice_eq (Nat.zero_le stop) h

theorem invert_eq (h : n < bytes.length) : invert bytes n = .ok (bytes.modify n (· ^^^ 0xFF)) :=
  if_pos h

theorem copy_eq (h : bytes.length ≤ n) : copy n bytes.length bytes = .ok (padTo n bytes) :=
  if_pos ⟨h, rfl⟩

end

section
variable {data : List UInt8} {i : Nat}

theorem start_le_length (h : i < segmentCount data) : i * segmentSize ≤ data.length :=
  Nat.le_trans (Nat.mul_le_mul_right _ (Nat.le_sub_one_of_lt h)) (segmentCount_spec data).2.1

theorem slice_segment_eq (h : i * segmentSize ≤ data.length) :
    slice data (i * segmentSize) (min (i * segmentSize + segmentSize) data.length)
      = .ok (segmentBytes data i) := by
  rw [slice_eq (by omega) (Nat.min_le_right ..), segmentBytes]
  refine congrArg Except.ok ((List.take_eq_take_iff ..).mpr ?_)
  rw [List.length_drop]
  omega

theorem stop_sub_start (h : i * segmentSize ≤ data.length) :
    min (i * segmentSize + segmentSize) data.length - i * segmentSize
      = (segmentBytes data i).length := by
  rw [length_segmentBytes]
  simp only [segmentSize] at *
  omega

end

end Guarded

end Canopen
