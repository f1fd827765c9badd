import PlaneSketch.Diagnosis.Conflict.Basic
import PlaneSketch.Residual

/-!
# Conflicts with held points

Constraints on points and lines none of whose points can move, and that do not hold where those
points are held (`pinned_conflicts`).
-/

namespace PlaneSketch

variable {α : Type} [Scalar α]

namespace Requirement

def isStraight (r : Requirement α) : Bool :=
  r.references.all fun
    | .point _ | .line _ => true
    | _ => false

def fixesOneOf (points : List PointId) : Requirement α → Bool
  | .fixed p _ => p ∈ points
  | _ => false

end Requirement

namespace Conflict

variable [NumberText α]

/-- The conflict of one constraint with the held points, if there is one. The sketch `held` has
them in place. -/
def withHeld? (s held : Sketch α) (active : List (Constraint α)) (tolerance : α)
    (c : Constraint α) : Option Conflict :=
  let points := s.touchedPoints c.requirement
  let error := held.errorOf c.requirement
  if !c.requirement.isStraight || points.isEmpty || !points.all s.pins.holds
      || error ≤ tolerance then none
  else
    let holders := active.filter (·.requirement.fixesOneOf points)
    let members := ascendingIds (holders.map (·.id) ++ [c.id])
    let names := ", ".intercalate (points.map PointId.name)
    let autoFixable := members.getLast? = some c.id
    some {
      members
      subject := .held c.id
      category := .fixedPositionConflict
      severity := .critical
      explanation :=
        c.label ++ " cannot hold because " ++ names ++ " cannot move (error " ++
          NumberText.scientific 3 error ++ ")"
      resolution :=
        if autoFixable then "Remove " ++ c.label
        else "Remove " ++ c.label ++ " or unpin " ++ names
      autoFixable }

/-- The conflicts with held points, other than of constraints that are in a certain conflict
already. -/
def withHeldPoints (s : Sketch α) (active : List (Constraint α)) (tolerance : α)
    (known : List Conflict) : List Conflict :=
  let held := s.applyPins s.pins
  let explained := fun (c : Constraint α) =>
    known.any fun k => k.severity = .critical && c.id ∈ k.members
  if s.pins.isEmpty then []
  else (active.filter (!explained ·)).filterMap (withHeld? s held active tolerance)

end Conflict

end PlaneSketch
