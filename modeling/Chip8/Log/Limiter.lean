/-!
# Rate limits

How many messages of one category are let through within a second. A message counts
from the moment at which it was let through until a second has passed.
-/

set_option autoImplicit false

namespace Chip8.Log

/-- What a clock shows each time that it is read, in nanoseconds. -/
abbrev Clock := Nat → Nat

/-- In nanoseconds. -/
def second : Nat := 1000000000

structure Window where
  /-- When messages were let through, oldest first. -/
  stamps : List Nat := []
  dropped : Nat := 0
  lastReport? : Option Nat := none
  deriving DecidableEq

/-- What happens to a message: whether it is let through, and how many refused
messages are to be reported first. -/
structure Verdict where
  admitted : Bool
  report : Option Nat := none
  deriving DecidableEq

namespace Window

/-- Forgets messages that were let through more than a second ago. -/
def refresh (now : Nat) (window : Window) : Window :=
  { window with stamps := window.stamps.dropWhile fun stamp => second < now - stamp }

/-- Nothing was reported within the last second. -/
def reportDue (now : Nat) (window : Window) : Bool :=
  match window.lastReport? with
  | some last => second ≤ now - last
  | none => true

/-- Decides about one message. Refusals are counted, and reported together with the
next refusal after which a report is due or before the next message that is let
through, whichever comes first. -/
def judge (rate now : Nat) (window : Window) : Verdict × Window :=
  let window := window.refresh now
  if window.stamps.length < rate then
    let stamps := window.stamps ++ [now]
    if window.dropped = 0 then ({ admitted := true }, { window with stamps })
    else
      ({ admitted := true, report := some window.dropped },
        { stamps, dropped := 0, lastReport? := some now })
  else
    let dropped := window.dropped + 1
    if window.reportDue now then
      ({ admitted := false, report := some dropped },
        { window with dropped := 0, lastReport? := some now })
    else ({ admitted := false }, { window with dropped })

end Window
end Chip8.Log
