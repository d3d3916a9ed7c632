import Chip8.Log.Category
import Chip8.Log.Level

/-!
# Choice of messages

Which messages a log shows, by their category and level.
-/

set_option autoImplicit false

namespace Chip8.Log

/-- A level for everything and one for each category, where `off` defers to the
level for everything. -/
structure Levels where
  overall : Level := .off
  own : PerCategory Level := .const .off
  deriving DecidableEq

namespace Levels

def threshold (levels : Levels) (category : Category) : Level :=
  match levels.own.get category with
  | .off => levels.overall
  | level => level

/-- A message of the category and level is shown. Messages of level `off` never are. -/
def allows (levels : Levels) (category : Category) (level : Level) : Bool :=
  level != .off && decide (level.rank ≤ (levels.threshold category).rank)

def set (levels : Levels) (category : Category) (level : Level) : Levels :=
  { levels with own := levels.own.set category level }

end Levels
end Chip8.Log
