import PlaneSketch.LeastSquares.Jacobian
import PlaneSketch.Residual
import PlaneSketch.Variables

/-!
# The objective of a solve

The weighted residuals of the constraints, constraint by constraint, and behind them one pull
towards an anchor for each variable (`SketchProblem`, by what it answers). The anchor keeps a
solution near the drawing.
-/

namespace PlaneSketch

variable {α : Type} [Scalar α]

open Scalar

/-- Constraints to be met by changing the numbers in some slots of a drawing. -/
structure Objective (α : Type) where
  drawing : Sketch α
  slots : List Slot
  constraints : List (Constraint α)
  damping : α
  anchor : List α

/-- The weighted residuals of a constraint; one that does not resolve has the same large error in
each of its components. -/
def Constraint.weightedComponents (s : Sketch α) (c : Constraint α) : List α :=
  (match s.components c.requirement with
    | .ok residuals => residuals
    | .error _ => List.replicate c.requirement.componentCount unresolvedError).map (· * c.weight)

namespace Objective

def of (drawing : Sketch α) (slots : List Slot) (constraints : List (Constraint α))
    (damping : α) : Objective α :=
  { drawing, slots, constraints, damping, anchor := drawing.valuesAt slots }

def withAnchor (o : Objective α) (anchor : List α) : Objective α := { o with anchor }

def start (o : Objective α) : List α := o.drawing.valuesAt o.slots

def placed (o : Objective α) (x : List α) : Sketch α := o.drawing.withValuesAt o.slots x

/-- The objective whose drawing has other values of the variables. -/
def move (o : Objective α) (x : List α) : Objective α := { o with drawing := o.placed x }

def componentCount (o : Objective α) : Nat :=
  (o.constraints.map (·.requirement.componentCount)).foldr (· + ·) 0

def components (o : Objective α) (x : List α) : List α :=
  let placed := o.placed x
  o.constraints.flatMap (·.weightedComponents placed)

/-- The pull towards the anchor. -/
def pull (o : Objective α) (x : List α) : List α :=
  List.zipWith (fun v a => o.damping * (v - a)) x o.anchor

def residuals (o : Objective α) (x : List α) : List α := o.components x ++ o.pull x

def aggregate (o : Objective α) (residuals : List α) : α := norm (residuals.take o.componentCount)

def problem (o : Objective α) : LeastSquares α where
  variableCount := o.slots.length
  residualCount := o.componentCount + o.slots.length
  residuals := o.residuals
  aggregate := o.aggregate

/-- The weighted error of the constraints. -/
def constraintNorm (o : Objective α) (x : List α) : α := (o.placed x).weightedError o.constraints

def constraintColumns (o : Objective α) (x : List α) : List (List α) :=
  (o.problem.jacobianColumns x (o.residuals x)).map (·.take o.componentCount)

def constraintGradient (o : Objective α) (x : List α) : α :=
  peakAbs (gradient (o.constraintColumns x) ((o.residuals x).take o.componentCount))

end Objective

end PlaneSketch
