/-!
# Sources of random bytes

The random instruction takes its bytes one at a time from a source, which is a
state that yields a byte and its successor.
-/

set_option autoImplicit false

namespace Chip8

/-- States from which bytes can be drawn. -/
class ByteSource (σ : Type) where
  draw : σ → UInt8 × σ

/-- Sources that a number determines completely. -/
class SeededSource (σ : Type) extends ByteSource σ where
  ofSeed : UInt64 → σ

namespace ByteSource

variable {σ : Type} [ByteSource σ]

def after (source : σ) : Nat → σ
  | 0 => source
  | count + 1 => after (draw source).2 count

/-- The byte at a position of the stream that a state yields, counted from zero. -/
def byteAt (source : σ) (position : Nat) : UInt8 := (draw (after source position)).1

def bytes (source : σ) : Nat → List UInt8
  | 0 => []
  | count + 1 =>
      let (byte, rest) := draw source
      byte :: bytes rest count

end ByteSource

/-- The source that always yields zero. -/
structure Silence where

instance : ByteSource Silence where
  draw source := (0, source)

/-- A source that goes through given numbers again and again and yields the low
byte of each. -/
structure Cyclic where
  numbers : Array UInt32
  position : Nat := 0

instance : ByteSource Cyclic where
  draw source :=
    ((source.numbers.getD (source.position % source.numbers.size) 0).toUInt8,
      { source with position := source.position + 1 })

end Chip8
