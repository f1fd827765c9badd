import PlaneSketch.Scalar
import PlaneSketch.Decimal.Shortest

/-!
# Sketches in binary64

The carrier that programs run on, how its numbers are written, and its exact remainder, from which a
sweep is taken (`sweep_angle`).
-/

namespace PlaneSketch

instance : Scalar Float where
  ltDecidable := inferInstance
  leDecidable := inferInstance
  sqrt := Float.sqrt
  abs := Float.abs
  atan2 := Float.atan2
  degreesPerRadian := 180.0 / 3.141592653589793
  isFinite := Float.isFinite

instance : NumberText Float where
  shortest := Decimal.shortestText
  fixed := Decimal.fixedText
  scientific := Decimal.scientificText

namespace Binary64

open Decimal

/-- The binary64 number `mantissa * 2 ^ exponent`, or its negative. -/
def ofDyadic (negative : Bool) (mantissa : Nat) (exponent : Int) : Float :=
  let down := (-exponent).toNat
  let magnitude := Float.ofScientific ((mantissa <<< exponent.toNat) * Nat.pow 5 down) true down
  if negative then -magnitude else magnitude

/-- What is left of `x` after taking away the whole multiples of `y`, with the sign of `x`. The
result needs no rounding: it is a multiple of the finer of the two last places and below both
numbers. -/
def remainder (x y : Float) : Float :=
  match Dyadic.ofFloat x, Dyadic.ofFloat y with
  | .finite negative m e, .finite _ n f =>
    if n = 0 then 0.0 / 0.0
    else
      let finest := min e f
      ofDyadic negative ((m <<< (e - finest).toNat) % (n <<< (f - finest).toNat)) finest
  | .finite .., .infinite _ => x
  | _, _ => 0.0 / 0.0

/-- The remainder of an angle in `[0, 360)` degrees. A remainder that is negative and small enough
is rounded to a full turn. -/
def withinTurn (degrees : Float) : Float :=
  let rest := remainder degrees 360.0
  if rest < 0.0 then rest + 360.0 else rest

end Binary64

end PlaneSketch
