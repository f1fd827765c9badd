import PlaneSketch.Diagnosis.Config
import PlaneSketch.Sketch.Edit
import PlaneSketch.Solve.Trial

/-!
# Redundancy

A constraint is redundant when the others imply it (`find_redundant`). Two tests must agree: it
holds where the others are solved, and its derivatives there are combinations of theirs
(`in_row_space`). The second test sorts out constraints that only happen to hold because something
that is free lies well.

The newest constraints are tested first, and one that was found redundant stays away from the tests
of older ones; so of two constraints that imply each other only the newer one is found.
-/

namespace PlaneSketch

variable {α σ : Type} [Scalar α]

structure Redundancy where
  id : ConstraintId
  reason : String
deriving DecidableEq

namespace Sketch

def without (s : Sketch α) (ids : List ConstraintId) : Sketch α :=
  { s with
    constraints := s.constraints.map fun c =>
      if c.id ∈ ids then { c with enabled := false } else c }

/-- Whether the derivatives of a constraint are combinations of those of the active constraints. -/
def spans (s : Sketch α) (c : DiagnosisConfig α) (k : Constraint α) : Bool :=
  let slots := s.slots
  if slots.isEmpty then true
  else
    let others := Objective.of s slots s.active 0.0
    let all := Objective.of s slots (s.active ++ [k]) 0.0
    let columns := all.constraintColumns all.start
    let rank := fun length =>
      numericRank c.singularValues c.rankTolerance length (columns.map (·.take length))
    rank all.componentCount = rank others.componentCount

/-- What is said about a constraint that the rest of the sketch implies: the constraints that touch
one of its points, and the freedom without it. -/
def redundancyReason (s rest : Sketch α) (c : Constraint α) : String :=
  let points := s.touchedPoints c.requirement
  let near := rest.active.filter fun other =>
    (rest.touchedPoints other.requirement).any (· ∈ points)
  let implying :=
    if near.isEmpty then "the remaining constraints"
    else ", ".intercalate (near.map (·.label))
  "Implied by " ++ implying ++ " (" ++ toString rest.freedom.dof ++ " DOF without it)"

/-- Whether a constraint is implied when it and some others are left out. -/
def isImplied (s : Sketch α) (m : Minimizer α σ) (c : DiagnosisConfig α)
    (excluded : List ConstraintId) (candidate : Constraint α) : StateM σ Bool := do
  let trial ← (s.without (candidate.id :: excluded)).trial m c.solver
  return trial.accepted
    && !(c.redundancyTolerance < trial.sketch.errorOf candidate.requirement)
    && trial.sketch.spans c candidate

/-- Tests some constraints in turn, where some others are already found. -/
def redundantAmong (s : Sketch α) (m : Minimizer α σ) (c : DiagnosisConfig α)
    (excluded : List ConstraintId) : List (Constraint α) → StateM σ (List Redundancy)
  | [] => pure []
  | candidate :: older => do
    if ← s.isImplied m c excluded candidate then
      let rest := s.without (candidate.id :: excluded)
      let found : Redundancy := ⟨candidate.id, s.redundancyReason rest candidate⟩
      return found :: (← s.redundantAmong m c (candidate.id :: excluded) older)
    else s.redundantAmong m c excluded older

/-- The constraints that are tested for redundancy, newest first. -/
def redundancyCandidates (s : Sketch α) (c : DiagnosisConfig α) : List (Constraint α) :=
  ((s.constraints.filter (·.takesFreedom)).reverse).take c.maxRedundancyCandidates

/-- The redundant constraints, in the order of their ids. -/
def redundancies (s : Sketch α) (m : Minimizer α σ) (c : DiagnosisConfig α) :
    StateM σ (List Redundancy) := do
  let found ← s.redundantAmong m c [] (s.redundancyCandidates c)
  return found.mergeSort fun a b => a.id.raw ≤ b.id.raw

end Sketch

end PlaneSketch
