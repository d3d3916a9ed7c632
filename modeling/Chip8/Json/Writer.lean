import Chip8.Json.Token

/-!
# Writing JSON

The compact form without any blanks, and the form with one member or item to a
line.
-/

set_option autoImplicit false

namespace Chip8.Json

/-! ## Words -/

/-- The digit of a value below sixteen in lower case, as escapes use it. -/
def escapeDigit (value : Nat) : Char :=
  if value < 10 then Char.ofNat (48 + value) else Char.ofNat (87 + value)

/-- A character between quotes. Quote, backslash and the control characters below
the space are escaped, all others stand for themselves. -/
def writeChar (character : Char) : List Char :=
  match character with
  | '"' => ['\\', '"']
  | '\\' => ['\\', '\\']
  | '\n' => ['\\', 'n']
  | '\r' => ['\\', 'r']
  | '\t' => ['\\', 't']
  | character =>
      if character.toNat = 0x08 then ['\\', 'b']
      else if character.toNat = 0x0C then ['\\', 'f']
      else if character.toNat < 0x20 then
        ['\\', 'u', '0', '0', escapeDigit (character.toNat / 16), escapeDigit (character.toNat % 16)]
      else [character]

/-- A string in quotes. One without text is written as the replacement character. -/
def writeText (value : JsonText) : String :=
  let characters := (value.getD "\uFFFD").toList
  String.ofList ('"' :: characters.flatMap writeChar ++ ['"'])

def writeLeaf : JsonLeaf → String
  | .null => "null"
  | .bool true => "true"
  | .bool false => "false"
  | .natural value => toString value
  | .otherNumber written => written
  | .text value => writeText value

def writeToken : Token → String
  | .openArray => "["
  | .closeArray => "]"
  | .openObject => "\x7b"
  | .closeObject => "\x7d"
  | .comma => ","
  | .colon => ":"
  | .leaf value => writeLeaf value

/-! ## Values -/

def compact (json : Json) : String := String.join (json.tokens.map writeToken)

def lineStart (depth : Nat) : String := "\n" ++ String.ofList (List.replicate (2 * depth) ' ')

mutual

/-- The form with one item or member to a line, at a depth of nesting. Empty
arrays and objects stay on their line. -/
def pretty (depth : Nat) : Json → String
  | .leaf value => writeLeaf value
  | .array [] => "[]"
  | .array items => "[" ++ prettyItems (depth + 1) items ++ lineStart depth ++ "]"
  | .object [] => "\x7b\x7d"
  | .object members => "\x7b" ++ prettyMembers (depth + 1) members ++ lineStart depth ++ "\x7d"

def prettyItems (depth : Nat) : List Json → String
  | [] => ""
  | [item] => lineStart depth ++ pretty depth item
  | item :: rest => lineStart depth ++ pretty depth item ++ "," ++ prettyItems depth rest

def prettyMembers (depth : Nat) : List (JsonText × Json) → String
  | [] => ""
  | [(key, value)] => lineStart depth ++ writeText key ++ ": " ++ pretty depth value
  | (key, value) :: rest =>
      lineStart depth ++ writeText key ++ ": " ++ pretty depth value ++ ","
        ++ prettyMembers depth rest

end

end Chip8.Json
