import PlaneSketch.LeastSquares.Basic

/-!
# Forward differences

The derivative of residuals by each variable, from one more evaluation per variable
(`forward_jacobian`). The step is the one that really was taken: the coordinate after the move minus
the coordinate before it, which rounding makes differ from the intended step.
-/

namespace PlaneSketch

variable {α : Type} [Scalar α]

open Scalar

/-- A point with one coordinate moved, and by how much it was moved. -/
structure Probe (α : Type) where
  point : List α
  step : α

/-- The intended step of a coordinate: the root of the rounding unit, relative to the coordinate
once that exceeds one. -/
def probeStep (v : α) : α := 1.490116119384765625e-8 * larger (abs v) 1.0

/-- The points at which the columns are measured, one per coordinate. -/
def probes (x : List α) : List (Probe α) :=
  x.zipIdx.map fun (v, j) => ⟨x.set j (v + probeStep v), v + probeStep v - v⟩

/-- The change of the residuals per unit of the step. -/
def Probe.column (p : Probe α) (moved origin : List α) : List α :=
  List.zipWith (fun a b => (a - b) / p.step) moved origin

/-- The columns of the Jacobian at `x`, where the residuals are `origin`. The residuals may be
evaluated with effects, so that a caller can watch the evaluations. -/
def jacobianColumnsM {m : Type → Type} [Monad m] (residuals : List α → m (List α))
    (x origin : List α) : m (List (List α)) :=
  (probes x).mapM fun p => do
    return p.column (← residuals p.point) origin

def LeastSquares.jacobianColumns (p : LeastSquares α) (x origin : List α) : List (List α) :=
  Id.run (jacobianColumnsM (fun x => pure (p.residuals x)) x origin)

def gradient (columns : List (List α)) (residuals : List α) : List α :=
  columns.map (dot · residuals)

end PlaneSketch
