import Chip8.Json.Token
import Chip8.Text.Decimal

/-!
# Words of a text

Splits a JSON text into its words and drops the blanks between them.
-/

set_option autoImplicit false

namespace Chip8.Json.Lexer

open Text (isDecimal decimalValue)

def isBlank (character : Char) : Bool :=
  character == ' ' || character == '\t' || character == '\n' || character == '\r'

def punctuation? : Char → Option Token
  | '[' => some .openArray
  | ']' => some .closeArray
  | '\x7b' => some .openObject
  | '\x7d' => some .closeObject
  | ',' => some .comma
  | ':' => some .colon
  | _ => none

/-! ## Names and numbers -/

/-- Characters of names and numbers; the longest run of them is one word. -/
def isWordChar (character : Char) : Bool :=
  character.isAlphanum || character == '-' || character == '+' || character == '.'

/-- The digits before the point: no zero stands before another digit. -/
def isWhole (digits : List Char) : Bool :=
  isDecimal digits && (digits.length == 1 || digits.head? != some '0')

def isExponent : List Char → Bool
  | '+' :: digits => isDecimal digits
  | '-' :: digits => isDecimal digits
  | digits => isDecimal digits

/-- What may follow the digits before the point: a fraction, an exponent, both in
this order, or neither. -/
def isNumberTail : List Char → Bool
  | [] => true
  | '.' :: rest =>
      isDecimal (rest.takeWhile Char.isDigit) &&
        match rest.dropWhile Char.isDigit with
        | [] => true
        | mark :: exponent => (mark == 'e' || mark == 'E') && isExponent exponent
  | mark :: exponent => (mark == 'e' || mark == 'E') && isExponent exponent

/-- The number that a word stands for. Only plain digits are a natural number;
`-0` is not one. -/
def number? (word : List Char) : Option JsonLeaf :=
  let unsigned := match word with
    | '-' :: rest => rest
    | _ => word
  let whole := unsigned.takeWhile Char.isDigit
  let tail := unsigned.dropWhile Char.isDigit
  if isWhole whole && isNumberTail tail then
    if word.all Char.isDigit then some (.natural (decimalValue word))
    else some (.otherNumber (String.ofList word))
  else
    none

def word? (word : List Char) : Option JsonLeaf :=
  if word = "null".toList then some .null
  else if word = "true".toList then some (.bool true)
  else if word = "false".toList then some (.bool false)
  else number? word

/-! ## Strings -/

/-- A part of a string: a character, or a sixteen-bit unit given by an escape. -/
inductive Piece where
  | character (value : Char)
  | unit (value : Nat)

def hexValue? (digit : Char) : Option Nat :=
  if digit.isDigit then some (digit.toNat - '0'.toNat)
  else if 'a' ≤ digit ∧ digit ≤ 'f' then some (digit.toNat - 'a'.toNat + 10)
  else if 'A' ≤ digit ∧ digit ≤ 'F' then some (digit.toNat - 'A'.toNat + 10)
  else none

def unit? (a b c d : Char) : Option Nat := do
  return (((← hexValue? a) * 16 + (← hexValue? b)) * 16 + (← hexValue? c)) * 16 + (← hexValue? d)

def escaped? : Char → Option Char
  | '"' => some '"'
  | '\\' => some '\\'
  | '/' => some '/'
  | 'b' => some '\x08'
  | 'f' => some '\x0c'
  | 'n' => some '\n'
  | 'r' => some '\r'
  | 't' => some '\t'
  | _ => none

/-- The parts of a string up to its closing quote, and the text after that. -/
structure Scanned (text : List Char) where
  pieces : List Piece
  rest : List Char
  rest_length_le : rest.length ≤ text.length

/-- Scans a string whose opening quote has been taken, where `seen` holds the parts
so far, latest first. Control characters below the space are not allowed. -/
def scanString (seen : List Piece) (text : List Char) : Option (Scanned text) :=
  match text with
  | [] => none
  | '"' :: rest => some { pieces := seen.reverse, rest, rest_length_le := by simp }
  | '\\' :: 'u' :: a :: b :: c :: d :: rest => do
      let unit ← unit? a b c d
      let scanned ← scanString (.unit unit :: seen) rest
      return { scanned with
        rest_length_le := by have := scanned.rest_length_le; simp only [List.length_cons]; omega }
  | '\\' :: letter :: rest => do
      let character ← escaped? letter
      let scanned ← scanString (.character character :: seen) rest
      return { scanned with
        rest_length_le := by have := scanned.rest_length_le; simp only [List.length_cons]; omega }
  | '\\' :: [] => none
  | character :: rest =>
      if character.toNat < 0x20 then none
      else do
        let scanned ← scanString (.character character :: seen) rest
        return { scanned with
          rest_length_le := by have := scanned.rest_length_le; simp only [List.length_cons]; omega }

def isHighHalf (unit : Nat) : Bool := 0xD800 ≤ unit && unit ≤ 0xDBFF

def isLowHalf (unit : Nat) : Bool := 0xDC00 ≤ unit && unit ≤ 0xDFFF

/-- The text of the parts, or nothing when half of a surrogate pair stands alone. -/
def joinPieces : List Piece → Option (List Char)
  | [] => some []
  | .character value :: rest => (joinPieces rest).map (value :: ·)
  | .unit high :: .unit low :: rest =>
      if isHighHalf high then
        if isLowHalf low then
          (joinPieces rest).map
            (Char.ofNat (0x10000 + (high - 0xD800) * 0x400 + (low - 0xDC00)) :: ·)
        else none
      else if isLowHalf high then none
      else (joinPieces (.unit low :: rest)).map (Char.ofNat high :: ·)
  | .unit unit :: rest =>
      if isHighHalf unit || isLowHalf unit then none
      else (joinPieces rest).map (Char.ofNat unit :: ·)

def textOfPieces (pieces : List Piece) : JsonText := (joinPieces pieces).map String.ofList

/-! ## Texts -/

/-- The words of a text, where `seen` holds those before it, latest first. -/
def scan (seen : List Token) (text : List Char) : Option (List Token) :=
  match text with
  | [] => some seen.reverse
  | first :: rest =>
      if isBlank first then scan seen rest
      else if first = '"' then
        match scanString [] rest with
        | none => none
        | some scanned => scan (.leaf (.text (textOfPieces scanned.pieces)) :: seen) scanned.rest
      else
        match punctuation? first with
        | some token => scan (token :: seen) rest
        | none =>
            match word? (first :: rest.takeWhile isWordChar) with
            | none => none
            | some value => scan (.leaf value :: seen) (rest.dropWhile isWordChar)
termination_by text.length
decreasing_by
  · simp
  · have := scanned.rest_length_le; simp only [List.length_cons]; omega
  · simp
  · have := (List.dropWhile_sublist (l := rest) isWordChar).length_le
    simp only [List.length_cons]; omega

def tokens? (text : String) : Option (List Token) := scan [] text.toList

end Chip8.Json.Lexer
