/-!
# Decimal numerals
-/

set_option autoImplicit false

namespace Chip8.Text

/-- One digit or more, and nothing else. -/
def isDecimal (text : List Char) : Bool := !text.isEmpty && text.all Char.isDigit

def decimalValue (digits : List Char) : Nat :=
  Nat.ofDigitChars 10 digits 0

end Chip8.Text
