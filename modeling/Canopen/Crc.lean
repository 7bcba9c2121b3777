/-!
The checksum of a block transfer: the remainder of the data as a polynomial over two elements,
divided by x¹⁶ + x¹² + x⁵ + 1.
-/

set_option autoImplicit false

namespace Canopen

namespace Crc

def shift (r : UInt16) : UInt16 :=
  if r &&& 0x8000 = 0 then r <<< 1 else (r <<< 1) ^^^ 0x1021

def step (r : UInt16) (b : UInt8) : UInt16 :=
  Nat.repeat shift 8 (r ^^^ (b.toUInt16 <<< 8))

def update (r : UInt16) (data : List UInt8) : UInt16 := data.foldl step r

theorem update_append (r : UInt16) (xs ys : List UInt8) :
    update r (xs ++ ys) = update (update r xs) ys := List.foldl_append

end Crc

def crc (data : List UInt8) : UInt16 := Crc.update 0 data

example : crc "123456789".toUTF8.toList = 0x31C3 := by decide +kernel

end Canopen
