import Chip8.Json.Basic

/-!
# Records in JSON

The members of a record and the plain values that they hold.
-/

set_option autoImplicit false

namespace Chip8.Json

/-- The known members of a record. It is written as an object in any order, where
unknown members do not count and a known one must not repeat, or as an array of
the first members in order. Keys must be texts. -/
def members? (names : List String) : Json → Option (List (String × Json))
  | .array items => if items.length ≤ names.length then some (names.zip items) else none
  | .object members => do
      let named ← members.mapM fun (key, value) => key.map fun key => (key, value)
      let known := named.filter fun member => names.contains member.1
      if (known.map Prod.fst).Nodup then some known else none
  | .leaf _ => none

def naturalUpTo? (bound : Nat) : Json → Option Nat
  | .natural value => if value ≤ bound then some value else none
  | _ => none

def byte? (json : Json) : Option UInt8 := (json.naturalUpTo? 0xFF).map UInt8.ofNat

def word32? (json : Json) : Option UInt32 := (json.naturalUpTo? 0xFFFFFFFF).map UInt32.ofNat

def word64? (json : Json) : Option UInt64 :=
  (json.naturalUpTo? 0xFFFFFFFFFFFFFFFF).map UInt64.ofNat

def bool? : Json → Option Bool
  | .bool value => some value
  | _ => none

def items? : Json → Option (List Json)
  | .array items => some items
  | _ => none

end Chip8.Json
