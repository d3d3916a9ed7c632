/-!
# Keypad

The latch of the sixteen hexadecimal keys, and the host keyboard block that
stands for it.
-/

set_option autoImplicit false

namespace Chip8

structure Keypad where
  keys : Vector Bool 16 := Vector.replicate 16 false
  deriving DecidableEq

namespace Keypad

/-- A number above fifteen names no key and always reads as released. -/
def isPressed (keypad : Keypad) (key : UInt8) : Bool :=
  keypad.keys[key.toNat]?.getD false

/-- Holds a key down or lets it go. A number above fifteen has no effect. -/
def set (keypad : Keypad) (key : UInt8) (pressed : Bool) : Keypad :=
  { keys := keypad.keys.setIfInBounds key.toNat pressed }

def changes (keypad : Keypad) (key : UInt8) (pressed : Bool) : Bool :=
  key < 16 && keypad.isPressed key != pressed

theorem isPressed_set (keypad : Keypad) (key other : UInt8) (pressed : Bool) :
    (keypad.set key pressed).isPressed other =
      if other = key ∧ key < 16 then pressed else keypad.isPressed other := by
  simp only [isPressed, set, Vector.getElem?_setIfInBounds]
  have inRange : key < 16 ↔ key.toNat < 16 := UInt8.lt_iff_toNat_lt
  by_cases same : other = key
  · subst same
    by_cases small : other.toNat < 16 <;> simp [inRange, small]
  · have differ : ¬ key.toNat = other.toNat := fun equal => same (UInt8.toNat_inj.mp equal.symm)
    simp [same, differ]

/-- Sets a key and tells whether that changed anything. -/
def latch (keypad : Keypad) (key : UInt8) (pressed : Bool) : Bool × Keypad :=
  (keypad.changes key pressed, keypad.set key pressed)

def press (keypad : Keypad) (key : UInt8) : Bool × Keypad := keypad.latch key true

def release (keypad : Keypad) (key : UInt8) : Bool × Keypad := keypad.latch key false

def clear (keypad : Keypad) : Keypad := { keypad with keys := Vector.replicate 16 false }

def firstPressed? (keypad : Keypad) : Option (Fin 16) :=
  (List.finRange 16).find? fun key => keypad.keys[key]

/-- The key under a character of the host keyboard. The block `1234` over
`qwer` over `asdf` over `zxcv` stands for the keypad's rows `123C`, `456D`,
`789E` and `A0BF`; the case of a letter does not count. -/
def ofHost? (character : Char) : Option UInt8 :=
  match character.toLower with
  | '1' => some 0x1 | '2' => some 0x2 | '3' => some 0x3 | '4' => some 0xC
  | 'q' => some 0x4 | 'w' => some 0x5 | 'e' => some 0x6 | 'r' => some 0xD
  | 'a' => some 0x7 | 's' => some 0x8 | 'd' => some 0x9 | 'f' => some 0xE
  | 'z' => some 0xA | 'x' => some 0x0 | 'c' => some 0xB | 'v' => some 0xF
  | _ => none

end Keypad

/-! ## Requests -/

inductive KeyRequest where
  | press (key : UInt8)
  | release (key : UInt8)
  | set (key : UInt8) (pressed : Bool)

namespace Keypad

def perform (keypad : Keypad) : KeyRequest → Bool × Keypad
  | .press key => keypad.press key
  | .release key => keypad.release key
  | .set key pressed => keypad.latch key pressed

inductive Request where
  | key (request : KeyRequest)
  | clear

def undergo (keypad : Keypad) : Request → Keypad
  | .key request => (keypad.perform request).2
  | .clear => keypad.clear

end Keypad
end Chip8
