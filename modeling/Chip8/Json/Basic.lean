/-!
# JSON values

Values as far as the interpreter's records need them. Only natural numbers are
kept as numbers; any other number is kept as it was written.
-/

set_option autoImplicit false

namespace Chip8

/-- A JSON string, or nothing for one that escapes half of a surrogate pair and
so stands for no text. -/
abbrev JsonText := Option String

inductive JsonLeaf where
  | null
  | bool (value : Bool)
  | natural (value : Nat)
  | otherNumber (written : String)
  | text (value : JsonText)
  deriving DecidableEq

/-- A JSON value. Members of an object keep their order and may repeat. -/
inductive Json where
  | leaf (value : JsonLeaf)
  | array (items : List Json)
  | object (members : List (JsonText × Json))

namespace Json

@[match_pattern]
def null : Json := .leaf .null

@[match_pattern]
def bool (value : Bool) : Json := .leaf (.bool value)

@[match_pattern]
def natural (value : Nat) : Json := .leaf (.natural value)

@[match_pattern]
def string (value : String) : Json := .leaf (.text (some value))

def record (members : List (String × Json)) : Json :=
  .object (members.map fun (key, value) => (some key, value))

end Json
end Chip8
