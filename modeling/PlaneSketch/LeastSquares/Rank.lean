import PlaneSketch.Scalar

/-!
# Numeric rank

The number of singular values of a matrix that stand out of the rounding noise (`numeric_rank`).
Whatever computes singular values can be given for that. The one here, which programs run, rotates
pairs of columns until all are perpendicular; the lengths of the columns are then the singular
values.
-/

namespace PlaneSketch

variable {α : Type} [Scalar α]

open Scalar

/-- The number of singular values above `tolerance`, relative to the largest one if that exceeds
one. The matrix has columns of the given length, and its singular values may be listed in any
order. -/
def numericRank (singularValues : Nat → List (List α) → List α) (tolerance : α) (length : Nat)
    (columns : List (List α)) : Nat :=
  if length = 0 || columns.isEmpty then 0
  else
    let values := singularValues length columns
    let cutoff := tolerance * larger (peak values) 1.0
    values.countP (cutoff < ·)

/-! ### Singular values by rotations -/

/-- Whether a product of two columns is zero to within rounding, next to the squares of their
lengths. -/
def isNegligible (product pp qq : α) : Bool :=
  abs product ≤ 1e-15 * sqrt (pp * qq)

/-- Two columns turned in their plane until they are perpendicular. The smaller of the two angles
that do it is taken, and columns that are perpendicular to within rounding stay. -/
def makePerpendicular (p q : List α) : List α × List α :=
  let product := dot p q
  let pp := normSquared p
  let qq := normSquared q
  if isNegligible product pp qq then (p, q)
  else
    let zeta := (qq - pp) / (2.0 * product)
    let t := 1.0 / (abs zeta + sqrt (1.0 + zeta * zeta))
    let tangent := if zeta < 0.0 then -t else t
    let cosine := 1.0 / sqrt (1.0 + tangent * tangent)
    let sine := cosine * tangent
    (List.zipWith (fun a b => cosine * a - sine * b) p q,
      List.zipWith (fun a b => sine * a + cosine * b) p q)

def turnAgainst (p : List α) : List (List α) → List α × List (List α)
  | [] => (p, [])
  | q :: rest =>
    let (p, q) := makePerpendicular p q
    let (p, rest) := turnAgainst p rest
    (p, q :: rest)

/-- Turns every pair of columns once; `count` is the number of columns. -/
def turnPairs : Nat → List (List α) → List (List α)
  | count + 1, p :: rest =>
    let (p, rest) := turnAgainst p rest
    p :: turnPairs count rest
  | _, columns => columns

/-- Whether all columns are perpendicular to each other, to within rounding. -/
def arePerpendicular : List (List α) → Bool
  | [] => true
  | p :: rest =>
    let pp := normSquared p
    rest.all (fun q => isNegligible (dot p q) pp (normSquared q)) && arePerpendicular rest

/-- Turns all pairs again and again until all columns are perpendicular, at most so many times. -/
def turnUntilPerpendicular : Nat → List (List α) → List (List α)
  | sweeps + 1, columns =>
    if arePerpendicular columns then columns
    else turnUntilPerpendicular sweeps (turnPairs columns.length columns)
  | 0, columns => columns

/-- The rows of a matrix that is given by columns of the given length. -/
def transpose (length : Nat) (columns : List (List α)) : List (List α) :=
  (List.range length).map fun i => columns.filterMap (·[i]?)

/-- The singular values, in no particular order, after so many sweeps over all pairs. The shorter
side of the matrix is taken for its columns, so there are as many values as that side is long. The
matrix is scaled to a largest entry of one, so that squares of its entries do not overflow. -/
def singularValues (sweeps length : Nat) (columns : List (List α)) : List α :=
  let narrow := if columns.length ≤ length then columns else transpose length columns
  let largest := peakAbs narrow.flatten
  let scale := if largest ≤ 0.0 then 1.0 else largest
  let scaled := narrow.map fun column => column.map (· / scale)
  (turnUntilPerpendicular sweeps scaled).map fun column => Scalar.norm column * scale

end PlaneSketch
