import PlaneSketch.Requirement

/-!
# Faults

The reasons for which a sketch refuses an edit, a constraint does not fit its sketch (`validate`),
or a drawing cannot be solved at all (`SketchError`), and their texts.
-/

namespace PlaneSketch

/-- A reason for which a constraint does not fit its sketch. -/
inductive Defect (α : Type) where
  | weightNotPositive (weight : α)
  | missingReference (entity : EntityRef)
  | positionNotFinite
  | valueNotFinite (value : α)
  | valueNotPositive (value : α)
  | angleOutOfRange (value : α)
  | valueNegative (value : α)
  | repeatedEntity
deriving DecidableEq

inductive Quality where
  | xCoordinate
  | yCoordinate
  | radius
  | startAngle
  | stopAngle
deriving DecidableEq

/-- A reason for which an operation on a sketch is refused. -/
inductive Fault (α : Type) where
  | entityNotFound (entity : EntityRef)
  | constraintNotFound (id : ConstraintId)
  | notFinite (entity : EntityRef) (quality : Quality) (value : α)
  | radiusNotPositive (entity : EntityRef) (radius : α)
  | invalidConstraint (id : ConstraintId) (defect : Defect α)
  | notDimensional (id : ConstraintId)
deriving DecidableEq

def Quality.name : Quality → String
  | .xCoordinate => "x coordinate"
  | .yCoordinate => "y coordinate"
  | .radius => "radius"
  | .startAngle => "start angle"
  | .stopAngle => "end angle"

variable {α : Type} [NumberText α]

open NumberText in
def Defect.message : Defect α → String
  | .weightNotPositive w => "weight " ++ shortest w ++ " must be positive"
  | .missingReference e => "missing " ++ e.noun ++ " reference " ++ e.name
  | .positionNotFinite => "fixed position is not finite"
  | .valueNotFinite v => "target value " ++ shortest v ++ " is not finite"
  | .valueNotPositive v => "target value " ++ shortest v ++ " must be positive"
  | .angleOutOfRange v => "angle " ++ shortest v ++ " must lie in [0, 180] degrees"
  | .valueNegative v => "target value " ++ shortest v ++ " must not be negative"
  | .repeatedEntity => "references the same entity twice"

open NumberText in
def Fault.message : Fault α → String
  | .entityNotFound e => "Entity not found: " ++ e.name
  | .constraintNotFound id => "Constraint not found: " ++ id.name
  | .notFinite e q v => "Non-finite " ++ q.name ++ " on " ++ e.name ++ ": " ++ shortest v
  | .radiusNotPositive e r =>
    "Invalid radius on " ++ e.name ++ ": " ++ shortest r ++ " (must be positive)"
  | .invalidConstraint id d => "Invalid constraint " ++ id.name ++ ": " ++ d.message
  | .notDimensional id => "Constraint " ++ id.name ++ " has no value to edit"

end PlaneSketch
