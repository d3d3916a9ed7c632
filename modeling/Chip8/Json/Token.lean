import Chip8.Json.Basic

/-!
# JSON words

A JSON text is a row of words with blanks between them. Every value without parts
is a single word.
-/

set_option autoImplicit false

namespace Chip8.Json

inductive Token where
  | openArray
  | closeArray
  | openObject
  | closeObject
  | comma
  | colon
  | leaf (value : JsonLeaf)
  deriving DecidableEq

mutual

def tokens : Json → List Token
  | .leaf value => [.leaf value]
  | .array items => .openArray :: (itemTokens items ++ [.closeArray])
  | .object members => .openObject :: (memberTokens members ++ [.closeObject])

def itemTokens : List Json → List Token
  | [] => []
  | [item] => tokens item
  | item :: rest => tokens item ++ .comma :: itemTokens rest

def memberTokens : List (JsonText × Json) → List Token
  | [] => []
  | [(key, value)] => .leaf (.text key) :: .colon :: tokens value
  | (key, value) :: rest =>
      .leaf (.text key) :: .colon :: (tokens value ++ .comma :: memberTokens rest)

end

end Chip8.Json
