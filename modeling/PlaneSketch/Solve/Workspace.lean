import PlaneSketch.Solve.Objective

/-!
# Evaluating in place

An objective as a minimizer finds it that evaluates again and again (`SketchProblem`, as it goes
about it; `fill_components`, `constraint_jacobian`, `constraint_gradient`): one drawing, which every
evaluation moves to its own values, one buffer for the residuals of the constraints, and results
that are written over vectors which hold something else already. Reading or writing outside a vector
has no result.
-/

namespace PlaneSketch

variable {α : Type}

/-- Writes one entry. -/
def writeAt? (out : List α) (place : Nat) (v : α) : Option (List α) :=
  if place < out.length then some (out.set place v) else none

/-- Writes values one after another, from some place on. -/
def overwrite? (out : List α) (place : Nat) : List α → Option (List α)
  | [] => some out
  | v :: rest => do overwrite? (← writeAt? out place v) (place + 1) rest

variable [Scalar α]

open Scalar

/-- An objective, whose drawing is the working copy, and the buffer for its residuals. -/
structure Workspace (α : Type) where
  objective : Objective α
  buffer : List α

/-- Puts the weighted residuals of a constraint behind those of the earlier ones. -/
def Constraint.collect (s : Sketch α) (buffer : List α) (c : Constraint α) : List α :=
  let filled :=
    match s.components c.requirement with
    | .ok residuals => buffer ++ residuals
    | .error _ => buffer ++ List.replicate c.requirement.componentCount unresolvedError
  filled.take buffer.length ++ (filled.drop buffer.length).map (· * c.weight)

/-- The pulls towards the anchor, by the places of the variables. -/
def Objective.pulls? (o : Objective α) (x : List α) : Option (List α) :=
  (List.range o.slots.length).mapM fun i => do
    return o.damping * ((← x[i]?) - (← o.anchor[i]?))

namespace Workspace

/-- Moves the drawing to other values of the variables. -/
def apply (x : List α) : StateT (Workspace α) Option Unit :=
  modify fun w => { w with objective := w.objective.move x }

/-- Fills the buffer with the residuals of the constraints where the drawing is. -/
def fill : StateT (Workspace α) Option Unit :=
  modify fun w =>
    { w with buffer := w.objective.constraints.foldl (Constraint.collect w.objective.drawing) [] }

/-- Writes the residuals at `x` over `out`. -/
def evaluate (x out : List α) : StateT (Workspace α) Option (List α) := do
  apply x
  fill
  let w ← get
  let out ← overwrite? out 0 w.buffer
  overwrite? out w.objective.componentCount (← w.objective.pulls? x)

/-- The columns of the Jacobian at `x` for some of the variables. One point is moved there and back
for each of them, and one vector takes the residuals of all. -/
def columns (x origin : List α) :
    List Nat → List α → List α → StateT (Workspace α) Option (List (List α))
  | [], _, _ => return []
  | j :: rest, point, out => do
    let v ← x[j]?
    let probe : Probe α := ⟨← writeAt? point j (v + probeStep v), v + probeStep v - v⟩
    let out ← evaluate probe.point out
    let back ← writeAt? probe.point j v
    return probe.column out origin :: (← columns x origin rest back out)

/-- The columns of the Jacobian at `x`. The drawing stays where the last one was measured. -/
def jacobian (x origin : List α) : StateT (Workspace α) Option (List (List α)) :=
  columns x origin (List.range x.length) x (List.replicate origin.length 0.0)

/-- The residuals at `x` and the columns of their Jacobian. The drawing is moved back to `x`. -/
def differentiate (x : List α) : StateT (Workspace α) Option (List α × List (List α)) := do
  let origin ← evaluate x (List.replicate (← get).objective.problem.residualCount 0.0)
  let columns ← jacobian x origin
  apply x
  return (origin, columns)

def constraintColumns (x : List α) : StateT (Workspace α) Option (List (List α)) := do
  let (_, columns) ← differentiate x
  return columns.map (·.take (← get).objective.componentCount)

def constraintGradient (x : List α) : StateT (Workspace α) Option α := do
  let (origin, columns) ← differentiate x
  let count := (← get).objective.componentCount
  return peakAbs (gradient (columns.map (·.take count)) (origin.take count))

/-- What can be asked of a workspace. -/
inductive Request (α : Type) where
  | apply (x : List α)
  | evaluate (x out : List α)
  | jacobian (x origin : List α)
  | constraintColumns (x : List α)
  | constraintGradient (x : List α)

def serve : Request α → StateT (Workspace α) Option Unit
  | .apply x => apply x
  | .evaluate x out => do
    let _ ← evaluate x out
    return ()
  | .jacobian x origin => do
    let _ ← jacobian x origin
    return ()
  | .constraintColumns x => do
    let _ ← constraintColumns x
    return ()
  | .constraintGradient x => do
    let _ ← constraintGradient x
    return ()

end Workspace

end PlaneSketch
