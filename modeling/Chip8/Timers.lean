/-!
# Timers

Two counters that fall by one in every cycle until they stand at zero.
-/

set_option autoImplicit false

namespace Chip8

/-- The delay and the sound timer. A tone is heard while `sound` is not zero. -/
structure Timers where
  delay : UInt8 := 0
  sound : UInt8 := 0
  deriving DecidableEq

namespace Timers

def countDown (value : UInt8) : UInt8 := if value = 0 then 0 else value - 1

theorem toNat_countDown (value : UInt8) : (countDown value).toNat = value.toNat - 1 := by
  unfold countDown
  by_cases zero : value = 0
  · simp [zero]
  · have positive : 1 ≤ value := by
      rw [UInt8.le_iff_toNat_le]
      have nonzero : value.toNat ≠ 0 := fun none => zero (UInt8.toNat_inj.mp none)
      simpa using Nat.one_le_iff_ne_zero.mpr nonzero
    rw [if_neg zero, UInt8.toNat_sub_of_le _ _ positive]
    rfl

def tick (timers : Timers) : Timers :=
  { delay := countDown timers.delay, sound := countDown timers.sound }

/-- The next tick ends the tone: the sound timer falls from one to zero. -/
def soundExpires (timers : Timers) : Bool := timers.sound == 1

end Timers
end Chip8
