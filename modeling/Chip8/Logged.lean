import Chip8.Event

/-!
# Computations that log

A value together with the events that its computation gave off. Nothing in the
value depends on whether anybody writes the events down.
-/

set_option autoImplicit false

namespace Chip8

/-- A value and the events that came before it, oldest first. -/
structure Logged (α : Type) where
  value : α
  events : List Event := []

namespace Logged

variable {α β : Type}

protected def pure (value : α) : Logged α := { value }

protected def bind (first : Logged α) (next : α → Logged β) : Logged β :=
  let second := next first.value
  { value := second.value, events := first.events ++ second.events }

instance : Monad Logged where
  pure := Logged.pure
  bind := Logged.bind

def emit (event : Event) : Logged Unit := { value := (), events := [event] }

def emitIf (condition : Bool) (event : Event) : Logged Unit :=
  { value := (), events := if condition then [event] else [] }

@[simp]
theorem value_pure (value : α) : (pure value : Logged α).value = value := rfl

@[simp]
theorem events_pure (value : α) : (pure value : Logged α).events = [] := rfl

@[simp]
theorem value_bind (first : Logged α) (next : α → Logged β) :
    (first >>= next).value = (next first.value).value := rfl

@[simp]
theorem events_bind (first : Logged α) (next : α → Logged β) :
    (first >>= next).events = first.events ++ (next first.value).events := rfl

@[simp]
theorem value_map (f : α → β) (first : Logged α) : (f <$> first).value = f first.value := rfl

@[simp]
theorem events_map (f : α → β) (first : Logged α) : (f <$> first).events = first.events := by
  simp [Functor.map, Logged.bind, Logged.pure]

@[simp]
theorem value_emit (event : Event) : (emit event).value = () := rfl

@[simp]
theorem events_emit (event : Event) : (emit event).events = [event] := rfl

@[simp]
theorem events_emitIf (condition : Bool) (event : Event) :
    (emitIf condition event).events = if condition then [event] else [] := rfl

instance : LawfulMonad Logged :=
  LawfulMonad.mk' Logged
    (by intro α x; cases x; simp [Functor.map, Logged.bind, Logged.pure])
    (by intros; simp [pure, bind, Logged.bind, Logged.pure])
    (by intros; simp [bind, Logged.bind, List.append_assoc])

end Logged
end Chip8
