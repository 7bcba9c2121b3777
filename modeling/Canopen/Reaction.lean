import Canopen.Can.Message

set_option autoImplicit false

namespace Canopen

structure Reaction (ε δ : Type) where
  frames : List Can.Message := []
  effects : List ε := []
  device : δ

/-- The same answer, seen as that of a larger device. -/
def Reaction.map {ε ε' δ δ' : Type} (f : ε → ε') (g : δ → δ') (r : Reaction ε δ) :
    Reaction ε' δ' :=
  { frames := r.frames, effects := r.effects.map f, device := g r.device }

end Canopen
