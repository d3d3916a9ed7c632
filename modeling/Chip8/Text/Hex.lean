/-!
# Hexadecimal numerals

Upper-case hexadecimal numerals, filled with zeros on the left up to a width.
-/

set_option autoImplicit false

namespace Chip8.Text

/-- The digit of a value below sixteen, in upper case. -/
def hexDigit (value : Nat) : Char :=
  if value < 10 then Char.ofNat (48 + value) else Char.ofNat (55 + value)

/-- The digits of a number, most significant first and without leading zeros.
Zero has the single digit `0`. -/
def hexDigits (value : Nat) : List Char :=
  if value < 16 then [hexDigit value]
  else hexDigits (value / 16) ++ [hexDigit (value % 16)]
termination_by value

/-- The numeral with at least `width` digits. A number that needs more digits
shows all of them. -/
def hex (width value : Nat) : String :=
  let digits := hexDigits value
  String.ofList (List.replicate (width - digits.length) '0' ++ digits)

end Chip8.Text
