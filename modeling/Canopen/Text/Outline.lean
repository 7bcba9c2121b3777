set_option autoImplicit false

namespace Canopen.Outline

def bool (b : Bool) : String := if b then "true" else "false"

def bytes (bs : List UInt8) : String :=
  "[" ++ ", ".intercalate (bs.map toString) ++ "]"

def option : Option String → String
  | none => "None"
  | some s => "Some(" ++ s ++ ")"

def record (name : String) : List (String × String) → String
  | [] => name
  | fields =>
    name ++ " \x7b " ++ ", ".intercalate (fields.map fun f => f.1 ++ ": " ++ f.2) ++ " \x7d"

def sealed (name : String) : String := name ++ " \x7b .. \x7d"

def wrap (name inner : String) : String := name ++ "(" ++ inner ++ ")"

end Canopen.Outline
