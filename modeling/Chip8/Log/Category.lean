import Chip8.Text.Blank

/-!
# Log categories

The subjects of log messages, and values kept once for each of them.
-/

set_option autoImplicit false

namespace Chip8.Log

inductive Category where
  /-- Instructions, refused calls, resets. -/
  | cpu
  | memory
  /-- Clearing and drawing. -/
  | display
  | input
  /-- The end of a tone. -/
  | timers
  | stubs
  deriving DecidableEq

namespace Category

def name : Category → String
  | .cpu => "CPU"
  | .memory => "Memory"
  | .display => "Display"
  | .input => "Input"
  | .timers => "Timers"
  | .stubs => "Stubs"

/-- The category of a name, whatever its ASCII case and the blanks around it. -/
def ofText? (text : String) : Option Category :=
  match Text.keyword text with
  | "cpu" => some .cpu
  | "memory" | "mem" => some .memory
  | "display" | "gfx" => some .display
  | "input" | "keys" => some .input
  | "timers" | "timer" => some .timers
  | "stubs" => some .stubs
  | _ => none

end Category

structure PerCategory (α : Type) where
  cpu : α
  memory : α
  display : α
  input : α
  timers : α
  stubs : α
  deriving DecidableEq

namespace PerCategory

variable {α : Type}

def const (value : α) : PerCategory α := ⟨value, value, value, value, value, value⟩

def get (table : PerCategory α) : Category → α
  | .cpu => table.cpu
  | .memory => table.memory
  | .display => table.display
  | .input => table.input
  | .timers => table.timers
  | .stubs => table.stubs

def set (table : PerCategory α) (category : Category) (value : α) : PerCategory α :=
  match category with
  | .cpu => { table with cpu := value }
  | .memory => { table with memory := value }
  | .display => { table with display := value }
  | .input => { table with input := value }
  | .timers => { table with timers := value }
  | .stubs => { table with stubs := value }

@[simp]
theorem get_const (value : α) (category : Category) : (const value).get category = value := by
  cases category <;> rfl

theorem get_set (table : PerCategory α) (category other : Category) (value : α) :
    (table.set category value).get other = if other = category then value else table.get other := by
  cases category <;> cases other <;> rfl

end PerCategory
end Chip8.Log
