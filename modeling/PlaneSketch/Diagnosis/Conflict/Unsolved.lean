import PlaneSketch.Diagnosis.Conflict.Basic
import PlaneSketch.Diagnosis.Redundancy

/-!
# Conflicts found by solving

When no rule explains why a sketch has no solution (`numeric_conflict`), the constraints around
those that a solve leaves unsatisfied (`connected_to`) are narrowed down: each is dropped if the
rest still has no solution (`localize`). What stays cannot be solved together.
-/

namespace PlaneSketch

variable {α σ : Type} [Scalar α]

namespace Conflict

/-- Adds the constraints that share a point with those already found. -/
def reachFrom (touched : List (ConstraintId × List PointId))
    (found : List ConstraintId × List PointId) : List ConstraintId × List PointId :=
  touched.foldl
    (fun (ids, points) (id, own) =>
      if id ∉ ids && own.any (· ∈ points) then (id :: ids, own ++ points) else (ids, points))
    found

/-- The given constraints and all that share points with them, directly or through others. Every
round but the last finds a constraint, so as many rounds as there are constraints find all. -/
def connectedTo (s : Sketch α) (active : List (Constraint α)) (seeds : List ConstraintId) :
    List ConstraintId :=
  let touched := active.map fun c => (c.id, s.touchedPoints c.requirement)
  let points := (touched.filter (·.1 ∈ seeds)).flatMap (·.2)
  ascendingIds (Nat.repeat (reachFrom touched) touched.length (seeds, points)).1

/-- Whether some constraints can be satisfied when all others are disabled. -/
def isFeasible (s : Sketch α) (m : Minimizer α σ) (c : DiagnosisConfig α)
    (ids : List ConstraintId) : StateM σ Bool := do
  let others := (s.constraints.map (·.id)).filter (· ∉ ids)
  return (← (s.without others).trial m c.solver).accepted

/-- Drops each of some constraints in turn from a core, if what is left cannot be satisfied. -/
def shrink (s : Sketch α) (m : Minimizer α σ) (c : DiagnosisConfig α) :
    List ConstraintId → List ConstraintId → StateM σ (List ConstraintId)
  | [], core => pure core
  | id :: rest, core => do
    let smaller := core.filter (· ≠ id)
    if ← isFeasible s m c smaller then shrink s m c rest core
    else shrink s m c rest smaller

def isOrientation : Requirement α → Bool
  | .horizontal _ | .vertical _ | .parallel .. | .perpendicular .. | .angle .. => true
  | _ => false

def categoryOf (s : Sketch α) (members : List ConstraintId) : Category :=
  let requirements := (members.filterMap s.constraint?).map (·.requirement)
  if requirements.any (·.isFixed) then .fixedPositionConflict
  else if requirements.all (·.isDimensional) then .conflictingDimensions
  else if requirements.all isOrientation then .orientationConflict
  else .unsatisfiableSubset

def ofUnsolved (s : Sketch α) (ids : List ConstraintId) (narrowed : Bool) : Conflict :=
  let members := ascendingIds ids
  let names := s.labelsOf members
  { members
    subject := .unsolved
    category := categoryOf s members
    severity := .high
    explanation :=
      if narrowed then
        names ++ " cannot all be satisfied; removing any one of them makes the rest solvable"
      else names ++ " are not satisfied at the best solution found"
    resolution :=
      (members.getLast?.map fun newest => "Remove or relax " ++ s.labelOf newest).getD ""
    autoFixable := false }

/-- The constraints that a trial leaves unsatisfied; if it leaves none, the worst one. -/
def unsatisfied (active : List (Constraint α)) (tolerance : α) (trial : Trial α) :
    List ConstraintId :=
  let ids := (active.filter fun c => tolerance < trial.sketch.errorOf c.requirement).map (·.id)
  if ids.isEmpty then trial.result.errors.worst.toList else ids

/-- The conflict at which a solve fails, if it fails. It is not narrowed down when the solve did not
settle, because then the solves of fewer constraints would prove nothing, or when too many
constraints are connected. -/
def bySolving? (s : Sketch α) (active : List (Constraint α)) (m : Minimizer α σ)
    (c : DiagnosisConfig α) : StateM σ (Option Conflict) := do
  let trial ← s.trial m c.solver
  if trial.accepted || trial.result.status = .noSolver then return none
  let ids := unsatisfied active c.solver.maxErrorTolerance trial
  if ids.isEmpty then return none
  if trial.result.status = .didntConverge then return some (ofUnsolved s ids false)
  let connected := connectedTo s active ids
  if c.maxConflictCandidates < connected.length then return some (ofUnsolved s ids false)
  if ← isFeasible s m c connected then return none
  return some (ofUnsolved s (← shrink s m c connected connected) true)

end Conflict

end PlaneSketch
