/-!
# Blanks and keywords

The characters of the Unicode property `White_Space`, trimming by it, and the
spelling under which keywords are compared.
-/

set_option autoImplicit false

namespace Chip8.Text

/-- Unicode property `White_Space`, which has twenty-five members. -/
def isBlank (character : Char) : Bool :=
  let code := character.toNat
  (0x09 ≤ code && code ≤ 0x0D) || code == 0x20 || code == 0x85 || code == 0xA0
    || code == 0x1680 || (0x2000 ≤ code && code ≤ 0x200A) || code == 0x2028
    || code == 0x2029 || code == 0x202F || code == 0x205F || code == 0x3000

def trimBlanks (text : List Char) : List Char :=
  ((text.dropWhile isBlank).reverse.dropWhile isBlank).reverse

/-- The form in which a keyword is looked up: blanks at the ends are dropped and
the ASCII letters put in lower case. Letters outside ASCII keep their case. -/
def keyword (text : String) : String :=
  String.ofList ((trimBlanks text.toList).map Char.toLower)

/-- The parts before and after the first occurrence of a separator, or nothing
when it does not occur. -/
def splitFirst? (separator : Char) (text : String) : Option (String × String) :=
  match text.toList.span (· ≠ separator) with
  | (_, []) => none
  | (before, _ :: after) => some (String.ofList before, String.ofList after)

theorem forall_ne_separator {separator : Char} {text : List Char} (absent : separator ∉ text) :
    ∀ other ∈ text, decide (other ≠ separator) = true := by
  intro other member
  exact decide_eq_true fun same => absent (same ▸ member)

end Chip8.Text
