set_option autoImplicit false

namespace Canopen

abbrev Payload := Vector UInt8 8

-- The bytes of a payload and of a word are numbered by literals of `Fin 8` and `Fin 4`. The zero
-- is the one that `Fin` itself goes by.
instance neZero_eight : @NeZero Nat Zero.ofOfNat0 8 := ⟨by decide⟩

instance neZero_four : @NeZero Nat Zero.ofOfNat0 4 := ⟨by decide⟩

def padTo (n : Nat) (bytes : List UInt8) : Vector UInt8 n :=
  Vector.ofFn fun i => bytes.getD i.val 0

/-- The first eight bytes, unless there are fewer. -/
def Payload.ofList? : List UInt8 → Option Payload
  | b0 :: b1 :: b2 :: b3 :: b4 :: b5 :: b6 :: b7 :: _ => some #v[b0, b1, b2, b3, b4, b5, b6, b7]
  | _ => none

/-- Keeps the first `len` bytes and clears the others. -/
def Payload.clearFrom (p : Payload) (len : Nat) : Payload :=
  p.mapIdx fun i b => if i < len then b else 0

/-- Byte number `i` of a word, counted from the least significant one. -/
def byteAt (word i : Nat) : UInt8 := UInt8.ofNat (word >>> (8 * i))

def bytesOfWord (w : UInt32) : Vector UInt8 4 :=
  #v[byteAt w.toNat 0, byteAt w.toNat 1, byteAt w.toNat 2, byteAt w.toNat 3]

def halfWord (b0 b1 : UInt8) : UInt16 := UInt16.ofNat (b0.toNat + 256 * b1.toNat)

def word (b0 b1 b2 b3 : UInt8) : UInt32 :=
  UInt32.ofNat (b0.toNat + 256 * b1.toNat + 65536 * b2.toNat + 16777216 * b3.toNat)

def wordOf (v : Vector UInt8 4) : UInt32 := word (v.get 0) (v.get 1) (v.get 2) (v.get 3)

theorem Payload.ofList?_toList (p : Payload) (rest : List UInt8) :
    Payload.ofList? (p.toList ++ rest) = some p := by
  obtain ⟨⟨l⟩, h⟩ := p
  match l, h with
  | [_, _, _, _, _, _, _, _], _ => rfl

theorem Payload.ofList?_eq_none_iff (bytes : List UInt8) :
    Payload.ofList? bytes = none ↔ bytes.length < 8 := by
  match bytes with
  | [] | [_] | [_, _] | [_, _, _] | [_, _, _, _] | [_, _, _, _, _] | [_, _, _, _, _, _]
  | [_, _, _, _, _, _, _] => simp [Payload.ofList?]
  | _ :: _ :: _ :: _ :: _ :: _ :: _ :: _ :: _ => simp [Payload.ofList?]

theorem byteAt_toNat (w i : Nat) : (byteAt w i).toNat = w >>> (8 * i) % 256 := by
  simp [byteAt]

theorem halfWord_byteAt (w : UInt16) :
    halfWord (byteAt w.toNat 0) (byteAt w.toNat 1) = w := by
  have h := w.toNat_lt
  apply UInt16.toNat_inj.mp
  simp only [halfWord, byteAt_toNat, UInt16.toNat_ofNat']
  omega

theorem word_bytesOfWord (w : UInt32) :
    word (byteAt w.toNat 0) (byteAt w.toNat 1) (byteAt w.toNat 2) (byteAt w.toNat 3) = w := by
  have h := w.toNat_lt
  apply UInt32.toNat_inj.mp
  simp only [word, byteAt_toNat, UInt32.toNat_ofNat']
  omega

theorem wordOf_bytesOfWord (w : UInt32) : wordOf (bytesOfWord w) = w :=
  word_bytesOfWord w

end Canopen
