import Chip8.Console
import Mathlib.Data.List.FinRange
import Mathlib.Data.List.OfFn

/-!
# The picture of a screen

A picture is put together row by row. Its pixels are those of the screen, in the order
in which the screen holds them.
-/

set_option autoImplicit false

namespace Chip8

private theorem map_range_eq_ofFn {α : Type} (count : Nat) (f : Nat → α) :
    (List.range count).map f = List.ofFn fun number : Fin count => f number := by
  rw [List.ofFn_eq_map, ← List.map_coe_finRange_eq_range, List.map_map]
  rfl

theorem Screen.toList_eq_flatten (screen : Screen) :
    screen.toList =
      (List.ofFn fun y : Fin screenHeight => List.ofFn fun x : Fin screenWidth =>
        screen.pixel x y).flatten := by
  have places : screen.toList = List.ofFn screen.byteAt := by
    rw [← Vector.toList_ofFn]
    exact congrArg Vector.toList Vector.ofFn_getElem.symm
  rw [places, List.ofFn_mul']
  congr 2
  funext y
  congr 1
  funext x
  have column : x.val % screenWidth = x.val := Nat.mod_eq_of_lt x.isLt
  have row : y.val % screenHeight = y.val := Nat.mod_eq_of_lt y.isLt
  simp only [pixel, position, column, row, Nat.mul_comm, Nat.add_comm]

namespace Console

variable {σ : Type} (console : Console σ)

theorem toList_pixels_render :
    console.render.pixels.toList =
      (List.ofFn fun y : Fin screenHeight => List.ofFn fun x : Fin screenWidth =>
        if console.machine.pixel x y = 0 then darkColor else litColor).flatten := by
  simp only [render, List.flatMap, map_range_eq_ofFn]

theorem pixels_render :
    console.render.pixels =
      console.machine.screen.toArray.map fun byte => if byte = 0 then darkColor else litColor := by
  apply Array.toList_inj.mp
  rw [toList_pixels_render, Array.toList_map]
  have pixels : console.machine.screen.toArray.toList = _ :=
    console.machine.screen.toList_eq_flatten
  rw [pixels, List.map_flatten, List.map_ofFn]
  simp only [Function.comp_def, List.map_ofFn]
  rfl

end Console
end Chip8
