import Canopen.Can.Interface

set_option autoImplicit false

namespace Canopen.Client

/-- Times are in microseconds. -/
structure Link (σ : Type) extends Can.Interface σ where
  now : σ → Nat
  sleep : Nat → σ → σ
  cancelled : σ → Bool
  resume : σ → σ

end Canopen.Client
