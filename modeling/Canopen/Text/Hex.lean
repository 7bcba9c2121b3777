set_option autoImplicit false

namespace Canopen

/-- At least `width` digits, lower case, padded with zeros on the left. -/
def lowerHex (width n : Nat) : String :=
  String.ofList ((Nat.toDigits 16 n).leftpad width '0')

def upperHex (width n : Nat) : String :=
  String.ofList (((Nat.toDigits 16 n).map Char.toUpper).leftpad width '0')

def spacedHex (bytes : List UInt8) : String :=
  " ".intercalate (bytes.map fun b => lowerHex 2 b.toNat)

end Canopen
