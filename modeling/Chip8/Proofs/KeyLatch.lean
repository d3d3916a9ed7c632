import Chip8.Keypad
import Mathlib.Data.List.DropRight

/-!
# The key latch

Of each key the latch keeps what was asked for last since all keys were let go of, and a
request about a key is reported as a change if and only if the key reads otherwise after it.
So requests about different keys do not meet, a request made again does nothing, and
numbers above fifteen are never heard.
-/

set_option autoImplicit false

namespace Chip8

/-! ## Calls and requests -/

structure KeyCall where
  key : UInt8
  pressed : Bool

namespace KeyCall

/-- What the last of the calls on a key asks for, if there is one. -/
def last? (calls : List KeyCall) (key : UInt8) : Option Bool :=
  calls.reverse.findSome? fun call => if call.key = key then some call.pressed else none

theorem last?_cons (call : KeyCall) (rest : List KeyCall) (key : UInt8) :
    last? (call :: rest) key =
      (last? rest key).or (if call.key = key then some call.pressed else none) := by
  simp [last?, List.findSome?_append]

end KeyCall

def KeyRequest.call : KeyRequest → KeyCall
  | .press key => ⟨key, true⟩
  | .release key => ⟨key, false⟩
  | .set key pressed => ⟨key, pressed⟩

namespace Keypad

def Request.call? : Request → Option KeyCall
  | .key request => some request.call
  | .clear => none

/-- The calls since all keys were let go of, or all calls if they never were. -/
def callsSinceClear (requests : List Request) : List KeyCall :=
  (requests.rtakeWhile fun request => request.call?.isSome).filterMap Request.call?

theorem callsSinceClear_concat_key (requests : List Request) (request : KeyRequest) :
    callsSinceClear (requests ++ [.key request]) = callsSinceClear requests ++ [request.call] := by
  rw [callsSinceClear, List.rtakeWhile_concat_pos _ _ _ rfl, List.filterMap_append]
  rfl

theorem callsSinceClear_concat_clear (requests : List Request) :
    callsSinceClear (requests ++ [.clear]) = [] := by
  rw [callsSinceClear, List.rtakeWhile_concat_neg _ _ _ Bool.false_ne_true, List.filterMap_nil]

/-! ## Readings -/

def setAll (keypad : Keypad) (calls : List KeyCall) : Keypad :=
  calls.foldl (fun keypad call => keypad.set call.key call.pressed) keypad

def AllUp (keypad : Keypad) : Prop := ∀ key, keypad.isPressed key = false

variable {keypad : Keypad} {key : UInt8}

theorem toNat_ofNat_key (key : Fin 16) : (UInt8.ofNat key.val).toNat = key.val := by
  have small := key.isLt
  rw [UInt8.toNat_ofNat', Nat.mod_eq_of_lt (by omega)]

theorem isPressed_eq_false (keypad : Keypad) (beyond : ¬ key < 16) :
    keypad.isPressed key = false := by
  have outside : 16 ≤ key.toNat :=
    Nat.le_of_not_lt fun small => beyond (UInt8.lt_iff_toNat_lt.mpr small)
  rw [isPressed, Vector.getElem?_eq_none outside, Option.getD_none]

theorem isPressed_eq_getElem (keypad : Keypad) (inside : key.toNat < 16) :
    keypad.isPressed key = keypad.keys[key.toNat] := by
  rw [isPressed, Vector.getElem?_eq_getElem inside, Option.getD_some]

theorem eq_of_isPressed {other : Keypad}
    (same : ∀ key, keypad.isPressed key = other.isPressed key) : keypad = other := by
  have keys : keypad.keys = other.keys := by
    apply Vector.ext
    intro place inside
    have number : (UInt8.ofNat place).toNat = place := toNat_ofNat_key ⟨place, inside⟩
    have alike := same (UInt8.ofNat place)
    rw [isPressed_eq_getElem keypad (number.symm ▸ inside),
      isPressed_eq_getElem other (number.symm ▸ inside)] at alike
    simpa only [number] using alike
  exact congrArg Keypad.mk keys

theorem allUp_new : ({} : Keypad).AllUp := by
  intro key
  rw [isPressed, Vector.getElem?_replicate]
  split <;> rfl

theorem isPressed_setAll (keypad : Keypad) (calls : List KeyCall) (inRange : key < 16) :
    (keypad.setAll calls).isPressed key =
      (KeyCall.last? calls key).getD (keypad.isPressed key) := by
  induction calls generalizing keypad with
  | nil => rfl
  | cons call rest ih =>
      have later : keypad.setAll (call :: rest) =
          (keypad.set call.key call.pressed).setAll rest := rfl
      rw [later, ih, isPressed_set, KeyCall.last?_cons]
      by_cases named : call.key = key
      · subst named
        cases KeyCall.last? rest call.key <;> simp [inRange]
      · have other : key ≠ call.key := fun same => named same.symm
        simp [named, other]

theorem setAll_append (keypad : Keypad) (calls later : List KeyCall) :
    keypad.setAll (calls ++ later) = (keypad.setAll calls).setAll later := List.foldl_append

/-! ## The lowest key -/

structure Lowest (keypad : Keypad) (key : UInt8) : Prop where
  down : keypad.isPressed key = true
  least : ∀ other < key, keypad.isPressed other = false

theorem Lowest.unique {other : UInt8} (lowest : keypad.Lowest key) (same : keypad.Lowest other) :
    key = other := by
  rcases Nat.lt_trichotomy key.toNat other.toNat with below | equal | above
  · have up := same.least key (UInt8.lt_iff_toNat_lt.mpr below)
    simp [lowest.down] at up
  · exact UInt8.toNat_inj.mp equal
  · have up := lowest.least other (UInt8.lt_iff_toNat_lt.mpr above)
    simp [same.down] at up

theorem Lowest.not_allUp (lowest : keypad.Lowest key) : ¬ keypad.AllUp := by
  intro up
  have down := lowest.down
  rw [up] at down
  cases down

theorem allUp_of_firstPressed? (unheld : keypad.firstPressed? = none) : keypad.AllUp := by
  intro key
  by_cases inRange : key < 16
  · have inside : key.toNat < 16 := UInt8.lt_iff_toNat_lt.mp inRange
    have up := List.find?_eq_none.mp unheld ⟨key.toNat, inside⟩ (List.mem_finRange _)
    rw [isPressed_eq_getElem keypad inside]
    simpa using up
  · exact keypad.isPressed_eq_false inRange

theorem lowest_of_firstPressed? {key : Fin 16} (first : keypad.firstPressed? = some key) :
    keypad.Lowest (UInt8.ofNat key.val) := by
  obtain ⟨down, place, inside, found, before⟩ := List.find?_eq_some_iff_getElem.mp first
  have number := toNat_ofNat_key key
  have here : key.val = place := by
    rw [← found, List.getElem_finRange]
    rfl
  constructor
  · have small : (UInt8.ofNat key.val).toNat < 16 := number.symm ▸ key.isLt
    rw [isPressed_eq_getElem keypad small]
    simpa only [number, Fin.getElem_fin] using down
  · intro other lower
    have below : other.toNat < place := by
      rw [UInt8.lt_iff_toNat_lt, number, here] at lower
      exact lower
    rw [isPressed_eq_getElem keypad (by omega)]
    have up := before other.toNat below
    simpa using up

theorem firstPressed?_eq_none_iff : keypad.firstPressed? = none ↔ keypad.AllUp := by
  constructor
  · exact allUp_of_firstPressed?
  · intro up
    cases first : keypad.firstPressed? with
    | none => rfl
    | some key => exact absurd up (lowest_of_firstPressed? first).not_allUp

theorem firstPressed?_eq_some_iff {key : Fin 16} :
    keypad.firstPressed? = some key ↔ keypad.Lowest (UInt8.ofNat key.val) := by
  constructor
  · exact lowest_of_firstPressed?
  · intro lowest
    cases first : keypad.firstPressed? with
    | none => exact absurd (allUp_of_firstPressed? first) lowest.not_allUp
    | some other =>
        have same := congrArg UInt8.toNat ((lowest_of_firstPressed? first).unique lowest)
        rw [toNat_ofNat_key, toNat_ofNat_key] at same
        exact congrArg some (Fin.ext same)

/-! ## One request -/

section Set

variable (keypad) {other : UInt8} (pressed held : Bool)

theorem set_of_beyond (beyond : ¬ key < 16) : keypad.set key pressed = keypad := by
  apply eq_of_isPressed
  intro read
  rw [isPressed_set, if_neg fun named => beyond named.2]

theorem set_set : (keypad.set key pressed).set key pressed = keypad.set key pressed := by
  apply eq_of_isPressed
  intro read
  rw [isPressed_set, isPressed_set]
  split <;> rfl

theorem set_comm (differ : other ≠ key) :
    (keypad.set other held).set key pressed = (keypad.set key pressed).set other held := by
  apply eq_of_isPressed
  intro read
  simp only [isPressed_set]
  by_cases here : read = key
  · subst here
    simp [differ.symm]
  · simp [here]

theorem changes_eq_true_iff :
    keypad.changes key pressed = true ↔
      (keypad.set key pressed).isPressed key ≠ keypad.isPressed key := by
  rw [changes, isPressed_set]
  by_cases inRange : key < 16
  · cases keypad.isPressed key <;> cases pressed <;> simp [inRange]
  · simp [inRange]

theorem changes_of_beyond (beyond : ¬ key < 16) : keypad.changes key pressed = false := by
  simp [changes, beyond]

theorem changes_set : (keypad.set key pressed).changes key pressed = false := by
  rw [← Bool.not_eq_true, changes_eq_true_iff, set_set]
  exact fun changed => changed rfl

theorem changes_set_of_ne (differ : other ≠ key) :
    (keypad.set other held).changes key pressed = keypad.changes key pressed := by
  rw [changes, changes, isPressed_set, if_neg fun named => differ named.1.symm]

end Set

theorem perform_eq (keypad : Keypad) (request : KeyRequest) :
    keypad.perform request =
      (keypad.changes request.call.key request.call.pressed,
        keypad.set request.call.key request.call.pressed) := by
  cases request <;> rfl

/-- How a keypad takes a request about a key. -/
structure Takes (keypad : Keypad) (request : KeyRequest) : Prop where
  /-- A change is reported if and only if the key reads otherwise afterwards. -/
  reports : (keypad.perform request).1 = true ↔
    (keypad.perform request).2.isPressed request.call.key ≠ keypad.isPressed request.call.key
  ignores : ¬ request.call.key < 16 → keypad.perform request = (false, keypad)
  repeats : (keypad.perform request).2.perform request = (false, (keypad.perform request).2)
  /-- A request about another key makes no difference to the report, and the two may
  change places. -/
  commutes : ∀ other : KeyRequest, other.call.key ≠ request.call.key →
    ((keypad.perform other).2.perform request).1 = (keypad.perform request).1 ∧
      ((keypad.perform other).2.perform request).2 = ((keypad.perform request).2.perform other).2

theorem takes (keypad : Keypad) (request : KeyRequest) : keypad.Takes request where
  reports := by
    rw [perform_eq]
    exact keypad.changes_eq_true_iff _
  ignores := by
    intro beyond
    rw [perform_eq, changes_of_beyond keypad _ beyond, set_of_beyond keypad _ beyond]
  repeats := by
    rw [perform_eq, perform_eq, changes_set, set_set]
  commutes := by
    intro other differ
    simp only [perform_eq]
    exact ⟨keypad.changes_set_of_ne _ _ differ, keypad.set_comm _ _ differ⟩

/-! ## Any number of requests -/

def undergoAll (keypad : Keypad) (requests : List Request) : Keypad :=
  requests.foldl undergo keypad

theorem undergoAll_concat (keypad : Keypad) (requests : List Request) (last : Request) :
    keypad.undergoAll (requests ++ [last]) = (keypad.undergoAll requests).undergo last :=
  List.foldl_concat ..

theorem undergoAll_new (requests : List Request) :
    ({} : Keypad).undergoAll requests = ({} : Keypad).setAll (callsSinceClear requests) := by
  -- From the last request back, since letting go of all keys forgets what came before it.
  induction requests using List.reverseRecOn with
  | nil => rfl
  | append_singleton requests last ih =>
      rw [undergoAll_concat, ih]
      cases last with
      | key request =>
          rw [callsSinceClear_concat_key, setAll_append, undergo, perform_eq]
          rfl
      | clear =>
          rw [callsSinceClear_concat_clear]
          rfl

theorem isPressed_undergoAll_new (requests : List Request) (key : UInt8) :
    (({} : Keypad).undergoAll requests).isPressed key = true ↔
      key < 16 ∧ KeyCall.last? (callsSinceClear requests) key = some true := by
  rw [undergoAll_new]
  by_cases inRange : key < 16
  · rw [isPressed_setAll _ _ inRange, allUp_new key]
    cases KeyCall.last? (callsSinceClear requests) key <;> simp [inRange]
  · simp [isPressed_eq_false _ inRange, inRange]

/-- After any requests a key is held down if and only if the last call on it since all
keys were let go of asked for that. Each further request is reported truly, whatever came
before it, and the key that is found first is the lowest that is held down. -/
theorem latch_remembers_last_call (requests : List Request) :
    let keypad := ({} : Keypad).undergoAll requests
    (∀ key, keypad.isPressed key = true ↔
        key < 16 ∧ KeyCall.last? (callsSinceClear requests) key = some true) ∧
      (∀ request, keypad.Takes request) ∧
      (∀ key : Fin 16, keypad.firstPressed? = some key ↔
        keypad.Lowest (UInt8.ofNat key.val)) ∧
      (keypad.firstPressed? = none ↔ keypad.AllUp) := by
  intro keypad
  exact ⟨isPressed_undergoAll_new requests, keypad.takes, fun _ => firstPressed?_eq_some_iff,
    firstPressed?_eq_none_iff⟩

/-- A key that was held down before all were let go of, one that is let go of by itself and
a number that is no key leave a single key held down. -/
theorem latch_remembers_last_call_after_clear :
    let requests : List Request := [
      .key (.press 3), .clear, .key (.press 0xB), .key (.set 7 true), .key (.set 20 true),
      .key (.release 0xB)]
    let keypad := ({} : Keypad).undergoAll requests
    keypad.isPressed 3 = false ∧ keypad.isPressed 0xB = false ∧ keypad.isPressed 20 = false ∧
      keypad.Lowest 7 ∧
      keypad.perform (.press 20) = (false, keypad) ∧
      (keypad.perform (.press 0xB)).1 = true := by
  intro requests keypad
  obtain ⟨pressed, takes, first, -⟩ := latch_remembers_last_call requests
  have up (key : UInt8) (unheld : ¬ (key < 16 ∧
      KeyCall.last? (callsSinceClear requests) key = some true)) :
      keypad.isPressed key = false := by
    rw [← Bool.not_eq_true, pressed]
    exact unheld
  have lowest : keypad.Lowest 7 := (first 7).mp (by decide)
  have down : (keypad.perform (.press 0xB)).1 = true := by
    rw [(takes (.press 0xB)).reports]
    decide
  exact ⟨up 3 (by decide), up 0xB (by decide), up 20 (by decide), lowest,
    (takes (.press 20)).ignores (by decide), down⟩

end Keypad
end Chip8
