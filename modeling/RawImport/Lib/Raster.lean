import Mathlib.Data.Fin.Rev
import Mathlib.Logic.Function.Iterate

/-!
# Rasters and their quarter turns

An image as a function of column and row, counted from the upper left.
-/

universe u

structure Raster (α : Type u) where
  width : Nat
  height : Nat
  pixel : Fin width → Fin height → α

namespace Raster

variable {α : Type u}

/-- A quarter turn clockwise: the left column becomes the upper row. -/
def turnRight (raster : Raster α) : Raster α where
  width := raster.height
  height := raster.width
  pixel column row := raster.pixel row column.rev

def turnLeft (raster : Raster α) : Raster α where
  width := raster.height
  height := raster.width
  pixel column row := raster.pixel row.rev column

def mirror (raster : Raster α) : Raster α :=
  { raster with pixel := fun column row => raster.pixel column.rev row }

@[simp] theorem turnLeft_turnRight (raster : Raster α) :
    raster.turnRight.turnLeft = raster := by
  simp [turnLeft, turnRight]

@[simp] theorem turnRight_turnLeft (raster : Raster α) :
    raster.turnLeft.turnRight = raster := by
  simp [turnLeft, turnRight]

theorem turnLeft_turnLeft (raster : Raster α) :
    raster.turnLeft.turnLeft = raster.turnRight.turnRight :=
  rfl

theorem turnRight_thrice (raster : Raster α) :
    raster.turnRight.turnRight.turnRight = raster.turnLeft := by
  rw [← turnLeft_turnLeft, turnLeft_turnRight]

theorem turnLeft_mirror (raster : Raster α) :
    raster.mirror.turnLeft = (raster.turnRight).mirror := by
  simp [turnLeft, turnRight, mirror]

theorem turnRight_iterate_four : (@turnRight α)^[4] = id := by
  funext raster
  change raster.turnRight.turnRight.turnRight.turnRight = raster
  rw [turnRight_thrice, turnLeft_turnRight]

theorem turnLeft_iterate_four : (@turnLeft α)^[4] = id := by
  funext raster
  change raster.turnLeft.turnLeft.turnLeft.turnLeft = raster
  rw [turnLeft_turnLeft, turnRight_turnLeft, turnRight_turnLeft]

end Raster
