import Chip8.Machine.Basic

/-!
# Sprites

Sprites are eight pixels wide. Drawing one inverts the pixels under its set bits
and tells whether a lit pixel was among them.
-/

set_option autoImplicit false

namespace Chip8

/-- A screen while it is drawn on, and whether a lit pixel was inverted so far. -/
structure Canvas where
  screen : Screen
  collided : Bool := false

namespace Canvas

/-- Inverts the low bit of one pixel. Only a pixel whose byte is exactly one
counts as lit. -/
def invert (canvas : Canvas) (x y : Nat) : Canvas :=
  let place := Screen.position x y
  let before := canvas.screen.byteAt place
  { screen := canvas.screen.put place (before ^^^ 1)
    collided := canvas.collided || before == 1 }

def hasBit (bits : UInt8) (column : Nat) : Bool := bits.toNat.testBit (7 - column)

def drawRow (canvas : Canvas) (bits : UInt8) (x y : Nat) : Canvas :=
  (List.range 8).foldl
    (fun canvas column => if hasBit bits column then canvas.invert (x + column) y else canvas)
    canvas

def drawRows (canvas : Canvas) (rows : List UInt8) (x y : Nat) : Canvas :=
  match rows with
  | [] => canvas
  | bits :: rest => (canvas.drawRow bits x y).drawRows rest x (y + 1)

end Canvas

namespace Machine

def spriteRows (machine : Machine) (count : Nat) : List UInt8 :=
  (List.range count).map fun row => machine.read (machine.index + UInt16.ofNat row)

/-- Draws the sprite at the index register. The flag register tells about the
collision. -/
def drawSprite (machine : Machine) (x y : Nat) (count : Nat) : Machine :=
  let rows := machine.spriteRows count
  let canvas := ({ screen := machine.screen : Canvas }).drawRows rows x y
  ({ machine with screen := canvas.screen, drawFlag := true }).setFlag canvas.collided

end Machine
end Chip8
