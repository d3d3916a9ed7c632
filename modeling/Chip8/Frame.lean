/-!
# Frames

Pictures as a host shows them, one 32-bit color per pixel.
-/

set_option autoImplicit false

namespace Chip8

def litColor : UInt32 := 0xFFFFFFFF

def darkColor : UInt32 := 0xFF000000

/-- A picture, row by row from the top left. Nothing here says that the number of
pixels fits the measures. -/
structure Frame where
  width : UInt32
  height : UInt32
  pixels : Array UInt32
  deriving DecidableEq

namespace Frame

def blank (width height : UInt32) : Frame :=
  { width, height, pixels := Array.replicate (width.toNat * height.toNat) 0 }

def pixel? (frame : Frame) (x y : UInt32) : Option UInt32 :=
  if x < frame.width && y < frame.height then
    frame.pixels[y.toNat * frame.width.toNat + x.toNat]?
  else
    none

/-- Pieces of a given length, of which the last may be shorter. A length of zero
counts as one. -/
def pieces {α : Type} (length : Nat) (items : List α) : List (List α) :=
  match items with
  | [] => []
  | first :: rest =>
      (first :: rest.take (length - 1)) :: pieces length (rest.drop (length - 1))
termination_by items.length
decreasing_by simp only [List.length_drop, List.length_cons]; omega

def pixelChar (color : UInt32) : Char := if color = litColor then '#' else '.'

theorem pixelChar_color (byte : UInt8) :
    pixelChar (if byte = 0 then darkColor else litColor) = if byte = 0 then '.' else '#' := by
  split <;> decide

def text (frame : Frame) : String :=
  String.join ((pieces frame.width.toNat frame.pixels.toList).map fun row =>
    String.ofList (row.map pixelChar ++ ['\n']))

end Frame
end Chip8
