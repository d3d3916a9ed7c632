import Chip8.Json.Lexer

/-!
# Reading JSON

The value that a row of words stands for. The arrays and objects that are still
open are kept in a list, innermost first, so any depth of nesting can be read.
-/

set_option autoImplicit false

namespace Chip8.Json

/-- An array or object that is still open, without the value being read. What
came before is kept latest first. -/
inductive Container where
  | array (before : List Json)
  | object (before : List (JsonText × Json)) (key : JsonText)

inductive Reader where
  | value (outer : List Container)
  /-- The first item of an array, or its end. -/
  | firstItem (outer : List Container)
  /-- The first key of an object, or its end. -/
  | firstKey (outer : List Container)
  | key (before : List (JsonText × Json)) (outer : List Container)
  | colon (before : List (JsonText × Json)) (key : JsonText) (outer : List Container)
  /-- A comma or the end of an array. -/
  | afterItem (items : List Json) (outer : List Container)
  /-- A comma or the end of an object. -/
  | afterMember (members : List (JsonText × Json)) (outer : List Container)
  | done (value : Json)

namespace Reader

def complete (value : Json) : List Container → Reader
  | [] => .done value
  | .array before :: outer => .afterItem (value :: before) outer
  | .object before name :: outer => .afterMember ((name, value) :: before) outer

def begin? (outer : List Container) : Token → Option Reader
  | .leaf content => some (complete (.leaf content) outer)
  | .openArray => some (.firstItem outer)
  | .openObject => some (.firstKey outer)
  | _ => none

def step? (reader : Reader) (token : Token) : Option Reader :=
  match reader with
  | .value outer => begin? outer token
  | .firstItem outer =>
      match token with
      | .closeArray => some (complete (.array []) outer)
      | token => begin? (.array [] :: outer) token
  | .firstKey outer =>
      match token with
      | .closeObject => some (complete (.object []) outer)
      | .leaf (.text name) => some (.colon [] name outer)
      | _ => none
  | .key before outer =>
      match token with
      | .leaf (.text name) => some (.colon before name outer)
      | _ => none
  | .colon before name outer =>
      match token with
      | .colon => some (.value (.object before name :: outer))
      | _ => none
  | .afterItem items outer =>
      match token with
      | .comma => some (.value (.array items :: outer))
      | .closeArray => some (complete (.array items.reverse) outer)
      | _ => none
  | .afterMember members outer =>
      match token with
      | .comma => some (.key members outer)
      | .closeObject => some (complete (.object members.reverse) outer)
      | _ => none
  | .done _ => none

def result? : Reader → Option Json
  | .done content => some content
  | _ => none

end Reader

def ofTokens? (tokens : List Token) : Option Json := do
  let reader ← tokens.foldlM Reader.step? (.value [])
  reader.result?

def parse? (text : String) : Option Json := (Lexer.tokens? text).bind ofTokens?

end Chip8.Json
