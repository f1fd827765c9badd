import PlaneSketch.Diagnosis.Conflict.Axes
import PlaneSketch.Diagnosis.Conflict.Collapse
import PlaneSketch.Diagnosis.Conflict.Held
import PlaneSketch.Diagnosis.Conflict.Target
import PlaneSketch.Diagnosis.Conflict.Unsolved

/-!
# The conflicts of a sketch

The rules run in a fixed order (`find_conflicts`), and a conflict is left out when one that is
already there has all its members among the new one's (`push`). Solving comes last, and only when no
certain conflict was found.
-/

namespace PlaneSketch

variable {α σ : Type} [Scalar α] [NumberText α]

namespace Sketch

def validActive (s : Sketch α) : List (Constraint α) :=
  s.constraints.filter fun c => c.isActive && c.isValid s

def ruleConflicts (s : Sketch α) (c : DiagnosisConfig α) : List Conflict :=
  let active := s.validActive
  let byTarget :=
    (Conflict.betweenTargets s active c.redundancyTolerance).foldl Conflict.keep []
  let byHolding :=
    (Conflict.withHeldPoints s active c.solver.maxErrorTolerance byTarget).foldl Conflict.keep
      byTarget
  let byCollapse :=
    (Conflict.byCollapse s active c.redundancyTolerance).foldl Conflict.keep byHolding
  (Conflict.ofAxes s active).foldl Conflict.keep byCollapse

end Sketch

/-- The more certain conflict first, and of two equally certain ones the one with the earlier
members. -/
def Conflict.precedes (a b : Conflict) : Bool :=
  a.severity.rank < b.severity.rank
    || a.severity.rank = b.severity.rank && idsLe a.members b.members

/-- The conflicts of a sketch; solving is tried only if `numeric` says so. -/
def Sketch.conflicts (s : Sketch α) (m : Minimizer α σ) (c : DiagnosisConfig α)
    (numeric : Bool) : StateM σ (List Conflict) := do
  let known := s.ruleConflicts c
  let found ←
    if numeric && !known.any (·.severity = .critical) then
      Conflict.bySolving? s s.validActive m c
    else pure none
  return (found.toList.foldl Conflict.keep known).mergeSort Conflict.precedes

end PlaneSketch
