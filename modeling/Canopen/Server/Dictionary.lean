import Canopen.Sdo.Address

set_option autoImplicit false

namespace Canopen.Server

open Sdo (Address)

structure Dictionary where
  entries : List (Address × List UInt8) := []
  deriving DecidableEq, Repr

namespace Dictionary

def get? (d : Dictionary) (a : Address) : Option (List UInt8) := d.entries.lookup a

def set (d : Dictionary) (a : Address) (object : List UInt8) : Dictionary :=
  ⟨(a, object) :: d.entries.filter (·.1 ≠ a)⟩

def ofList (entries : List (Address × List UInt8)) : Dictionary :=
  entries.foldl (fun d e => d.set e.1 e.2) {}

theorem get?_set_self (d : Dictionary) (a : Address) (object : List UInt8) :
    (d.set a object).get? a = some object := by
  simp [get?, set]

theorem get?_set_of_ne (d : Dictionary) {a b : Address} (h : b ≠ a) (object : List UInt8) :
    (d.set a object).get? b = d.get? b := by
  obtain ⟨entries⟩ := d
  simp only [get?, set, List.lookup_cons, beq_eq_false_iff_ne.mpr h]
  induction entries with
  | nil => rfl
  | cons e rest ih =>
    obtain ⟨x, o⟩ := e
    by_cases hx : x = a
    · subst hx
      simpa [List.lookup_cons, beq_eq_false_iff_ne.mpr h] using ih
    · by_cases hb : b = x
      · subst hb
        simp [hx]
      · simpa [hx, List.lookup_cons, beq_eq_false_iff_ne.mpr hb] using ih

end Dictionary

end Canopen.Server
