import Chip8.Text.Blank

/-!
# Log levels
-/

set_option autoImplicit false

namespace Chip8.Log

inductive Level where
  | off
  | error
  | warn
  | info
  | debug
  | trace
  deriving DecidableEq

namespace Level

def rank : Level → Nat
  | .off => 0
  | .error => 1
  | .warn => 2
  | .info => 3
  | .debug => 4
  | .trace => 5

/-- The level of a name or digit, whatever its ASCII case and the blanks around it. -/
def ofText? (text : String) : Option Level :=
  match Text.keyword text with
  | "off" | "none" | "0" => some .off
  | "error" | "err" | "1" => some .error
  | "warn" | "warning" | "2" => some .warn
  | "info" | "3" => some .info
  | "debug" | "4" => some .debug
  | "trace" | "5" => some .trace
  | _ => none

end Level
end Chip8.Log
