import Chip8.Random.Source

/-!
# Keystream bytes

A reproducible source of random bytes: the ChaCha keystream with twelve rounds,
under a key that is spread out from a 64-bit seed. Every byte is the low byte of
one keystream word.
-/

set_option autoImplicit false

namespace Chip8

namespace ChaCha

abbrev State := Vector UInt32 16

def rotateLeft (word amount : UInt32) : UInt32 :=
  (word <<< amount) ||| (word >>> (32 - amount))

/-- Mixes four words by additions, exclusive ors and rotations. -/
def quarterRound (a b c d : UInt32) : UInt32 × UInt32 × UInt32 × UInt32 :=
  let a := a + b
  let d := rotateLeft (d ^^^ a) 16
  let c := c + d
  let b := rotateLeft (b ^^^ c) 12
  let a := a + b
  let d := rotateLeft (d ^^^ a) 8
  let c := c + d
  let b := rotateLeft (b ^^^ c) 7
  (a, b, c, d)

/-- A place in the state seen as a square of four rows; columns wrap around. -/
def place (row column : Nat) : Fin 16 :=
  ⟨(4 * row + column % 4) % 16, Nat.mod_lt _ (by decide)⟩

def mixLine (slant : Nat) (state : State) (column : Nat) : State :=
  let a := place 0 column
  let b := place 1 (column + slant)
  let c := place 2 (column + 2 * slant)
  let d := place 3 (column + 3 * slant)
  let (w, x, y, z) := quarterRound (state.get a) (state.get b) (state.get c) (state.get d)
  (((state.set a.val w a.isLt).set b.val x b.isLt).set c.val y c.isLt).set d.val z d.isLt

/-- One round along the columns of the state and one along its diagonals. -/
def doubleRound (state : State) : State :=
  (List.range 4).foldl (mixLine 1) ((List.range 4).foldl (mixLine 0) state)

/-- The state before mixing: four constants, the key, the block's number and a
stream number of zero. -/
def initialState (key : Vector UInt32 8) (block : UInt64) : State :=
  #v[0x61707865, 0x3320646E, 0x79622D32, 0x6B206574,
    key[0], key[1], key[2], key[3], key[4], key[5], key[6], key[7],
    block.toUInt32, (block >>> 32).toUInt32, 0, 0]

/-- The words of one keystream block: the mixed state added to the unmixed one. -/
def blockWords (key : Vector UInt32 8) (block : UInt64) : List UInt32 :=
  let start := initialState key block
  let mixed := (List.range 6).foldl (fun state _ => doubleRound state) start
  (start.zipWith (· + ·) mixed).toList

end ChaCha

namespace SeedSpreading

/-- One step of the linear congruential sequence that a seed runs through. -/
def advance (state : UInt64) : UInt64 := state * 6364136223846793005 + 11634580027462260723

/-- The word that a state shows: its high bits folded together and then rotated
by its five topmost bits. -/
def output (state : UInt64) : UInt32 :=
  let folded := (((state >>> 18) ^^^ state) >>> 27).toUInt32
  let amount := (state >>> 59).toUInt32
  (folded >>> amount) ||| (folded <<< ((32 - amount) % 32))

def words (seed : UInt64) : Nat → List UInt32
  | 0 => []
  | count + 1 => output (advance seed) :: words (advance seed) count

def key (seed : UInt64) : Vector UInt32 8 :=
  let spread := words seed 8
  Vector.ofFn fun position => spread.getD position 0

end SeedSpreading

/-- A position in a keystream. -/
structure Keystream where
  key : Vector UInt32 8
  /-- The number of the block that comes after the pending words. -/
  nextBlock : UInt64 := 0
  /-- The words of the current block that are still to be used. -/
  pending : List UInt32 := []
  deriving DecidableEq

namespace Keystream

/-- The start of the keystream of a seed. -/
def ofSeed (seed : UInt64) : Keystream := { key := SeedSpreading.key seed }

/-- The next word. A new block is mixed when no word is pending. -/
def nextWord (stream : Keystream) : UInt32 × Keystream :=
  match stream.pending with
  | word :: rest => (word, { stream with pending := rest })
  | [] =>
      let fresh := ChaCha.blockWords stream.key stream.nextBlock
      (fresh.headD 0,
        { stream with nextBlock := stream.nextBlock + 1, pending := fresh.tail })

def draw (stream : Keystream) : UInt8 × Keystream :=
  let (word, rest) := stream.nextWord
  (word.toUInt8, rest)

end Keystream

instance : SeededSource Keystream where
  draw := Keystream.draw
  ofSeed := Keystream.ofSeed

end Chip8
