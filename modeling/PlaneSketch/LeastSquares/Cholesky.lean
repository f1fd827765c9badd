import PlaneSketch.Scalar

/-!
# Symmetric positive systems

A symmetric matrix is given by the columns of its lower triangle, each from the diagonal down, so
the columns get shorter by one. Factoring takes the first column off and subtracts its products
from the rest.
-/

namespace PlaneSketch

variable {α : Type} [Scalar α]

open Scalar

/-- The lower triangle of the products of some columns with each other. -/
def gramTriangle : List (List α) → List (List α)
  | [] => []
  | c :: cs => ((c :: cs).map (dot c)) :: gramTriangle cs

def triangleDiagonal (columns : List (List α)) : List α :=
  columns.filterMap (·.head?)

def withDiagonal (f : α → α → α) (columns : List (List α)) (added : List α) : List (List α) :=
  List.zipWith
    (fun column d => match column with
      | [] => []
      | e :: rest => f e d :: rest) columns added

/-- Subtracts the products of one column's entries from the columns of a lower triangle. -/
def subtractProducts : List α → List (List α) → List (List α)
  | l :: ls, column :: columns =>
    List.zipWith (fun a b => a - l * b) column (l :: ls) :: subtractProducts ls columns
  | _, columns => columns

/-- The factor `L` of a symmetric matrix `L * Lᵀ` of at most the given size. There is none when a
pivot is not positive. -/
def choleskyFactor : Nat → List (List α) → Option (List (List α))
  | size + 1, (pivot :: below) :: columns =>
    if 0.0 < pivot then
      let root := sqrt pivot
      let scaled := below.map (· / root)
      (choleskyFactor size (subtractProducts scaled columns)).map ((root :: scaled) :: ·)
    else none
  | _, _ => some []

/-- Solves `L * Lᵀ * x = b`: each entry goes forward through `L`, and comes back through `Lᵀ` once
the entries below it are known. -/
def solveFactored : List (List α) → List α → List α
  | (root :: below) :: columns, b :: bs =>
    let y := b / root
    let rest := solveFactored columns (List.zipWith (fun b l => b - y * l) bs below)
    (y - dot below rest) / root :: rest
  | _, _ => []

/-- Solves a symmetric positive system given by its lower triangle. -/
def solveSymmetric (columns : List (List α)) (b : List α) : Option (List α) :=
  (choleskyFactor columns.length columns).map (solveFactored · b)

end PlaneSketch
