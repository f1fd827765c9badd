import PlaneSketch.Diagnosis.Conflict
import PlaneSketch.Diagnosis.Suggestion

/-!
# Diagnoses

What is known about a sketch after an analysis (`DiagnosticsResult` with its `ConstraintInfo`,
`ConflictInfo` and `SuggestionInfo`).
-/

namespace PlaneSketch

variable {α : Type}

structure ConstraintReport (α : Type) where
  constraint : Constraint α
  error : α
  isRedundant : Bool
  /-- Why the constraint is redundant. -/
  redundancy? : Option String
deriving DecidableEq

def ConstraintReport.id (r : ConstraintReport α) : ConstraintId := r.constraint.id

structure Diagnosis (α : Type) where
  name : String
  status : Status
  freedom : Freedom
  constraints : List (ConstraintReport α)
  redundant : List ConstraintId
  conflicts : List Conflict
  suggestions : List (Suggestion α)
  invalid : List (ConstraintId × Defect α)
  purged : List ConstraintId
  solve? : Option (SolveResult α)
deriving DecidableEq

namespace Diagnosis

def constraint? (d : Diagnosis α) (id : ConstraintId) : Option (ConstraintReport α) :=
  d.constraints.find? (·.id = id)

def isRedundant (d : Diagnosis α) (id : ConstraintId) : Bool := id ∈ d.redundant

def isConflicting (d : Diagnosis α) (id : ConstraintId) : Bool :=
  d.conflicts.any (id ∈ ·.members)

/-- The label of a constraint at the time of the analysis. -/
def label (d : Diagnosis α) (id : ConstraintId) : String :=
  ((d.constraint? id).map (·.constraint.label)).getD ("constraint " ++ id.name)

end Diagnosis

end PlaneSketch
