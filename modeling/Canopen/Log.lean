set_option autoImplicit false

namespace Canopen

inductive Level where
  | trace | debug | warn
  deriving DecidableEq, Repr

def Level.label : Level → String
  | .trace => "TRACE"
  | .debug => "DEBUG"
  | .warn => "WARN"

structure Record where
  level : Level
  text : String
  deriving DecidableEq, Repr

def Record.line (r : Record) : String := r.level.label ++ " " ++ r.text

end Canopen
