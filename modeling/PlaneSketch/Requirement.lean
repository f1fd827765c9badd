import PlaneSketch.Entity

/-!
# Requirements

What a constraint asks of the geometry (`ConstraintKind`): the fourteen geometric relations and the
seven dimensions with a target value, the entities that each one is about, and how much freedom it
takes away.
-/

namespace PlaneSketch

inductive Requirement (α : Type) where
  | fixed (point : PointId) (position : Vec α)
  | coincident (point1 point2 : PointId)
  | horizontal (line : LineId)
  | vertical (line : LineId)
  | parallel (line1 line2 : LineId)
  | perpendicular (line1 line2 : LineId)
  | equalLength (line1 line2 : LineId)
  | pointOnLine (point : PointId) (line : LineId)
  | midpoint (point : PointId) (line : LineId)
  | tangent (line : LineId) (curve : CurveId)
  | concentric (curve1 curve2 : CurveId)
  | equalRadius (curve1 curve2 : CurveId)
  | pointOnCircle (point : PointId) (curve : CurveId)
  | symmetric (point1 point2 : PointId) (axis : LineId)
  | length (line : LineId) (value : α)
  | distance (point1 point2 : PointId) (value : α)
  | horizontalDistance (point1 point2 : PointId) (value : α)
  | verticalDistance (point1 point2 : PointId) (value : α)
  | angle (line1 line2 : LineId) (value : α)
  | radius (curve : CurveId) (value : α)
  | diameter (curve : CurveId) (value : α)
deriving DecidableEq

namespace Requirement

variable {α : Type}

def name : Requirement α → String
  | .fixed .. => "Fixed"
  | .coincident .. => "Coincident"
  | .horizontal .. => "Horizontal"
  | .vertical .. => "Vertical"
  | .parallel .. => "Parallel"
  | .perpendicular .. => "Perpendicular"
  | .equalLength .. => "EqualLength"
  | .pointOnLine .. => "PointOnLine"
  | .midpoint .. => "Midpoint"
  | .tangent .. => "Tangent"
  | .concentric .. => "Concentric"
  | .equalRadius .. => "EqualRadius"
  | .pointOnCircle .. => "PointOnCircle"
  | .symmetric .. => "Symmetric"
  | .length .. => "Length"
  | .distance .. => "Distance"
  | .horizontalDistance .. => "HorizontalDistance"
  | .verticalDistance .. => "VerticalDistance"
  | .angle .. => "Angle"
  | .radius .. => "Radius"
  | .diameter .. => "Diameter"

/-- The entities that the requirement is about, in the order of its arguments. -/
def references : Requirement α → List EntityRef
  | .fixed p _ => [.point p]
  | .coincident p q | .distance p q _ | .horizontalDistance p q _ | .verticalDistance p q _ =>
    [.point p, .point q]
  | .horizontal l | .vertical l | .length l _ => [.line l]
  | .parallel k l | .perpendicular k l | .equalLength k l | .angle k l _ => [.line k, .line l]
  | .pointOnLine p l | .midpoint p l => [.point p, .line l]
  | .tangent l c => [.line l, c.toRef]
  | .concentric c d | .equalRadius c d => [c.toRef, d.toRef]
  | .pointOnCircle p c => [.point p, c.toRef]
  | .symmetric p q l => [.point p, .point q, .line l]
  | .radius c _ | .diameter c _ => [c.toRef]

/-- How many degrees of freedom the requirement takes away. -/
def dofWeight : Requirement α → Nat
  | .fixed .. | .coincident .. | .midpoint .. | .concentric .. | .symmetric .. => 2
  | _ => 1

/-- The number of signed residuals of the requirement. It is not the weight: a point on a segment
has two coordinates to miss it by, but stays free to move along it. -/
def componentCount : Requirement α → Nat
  | .fixed .. | .coincident .. | .pointOnLine .. | .midpoint .. | .concentric ..
  | .symmetric .. => 2
  | _ => 1

def value? : Requirement α → Option α
  | .length _ v | .distance _ _ v | .horizontalDistance _ _ v | .verticalDistance _ _ v
  | .angle _ _ v | .radius _ v | .diameter _ v => some v
  | _ => none

def isDimensional (r : Requirement α) : Bool := r.value?.isSome

/-- The dimension with another target; there is none for a relation without a value. -/
def withValue? (v : α) : Requirement α → Option (Requirement α)
  | .length l _ => some (.length l v)
  | .distance p q _ => some (.distance p q v)
  | .horizontalDistance p q _ => some (.horizontalDistance p q v)
  | .verticalDistance p q _ => some (.verticalDistance p q v)
  | .angle k l _ => some (.angle k l v)
  | .radius c _ => some (.radius c v)
  | .diameter c _ => some (.diameter c v)
  | _ => none

def isFixed : Requirement α → Bool
  | .fixed .. => true
  | _ => false

/-- Whether the requirement names one entity where it needs two. -/
def repeatsEntity : Requirement α → Bool
  | .coincident p q | .distance p q _ | .horizontalDistance p q _ | .verticalDistance p q _
  | .symmetric p q _ => p = q
  | .parallel k l | .perpendicular k l | .equalLength k l | .angle k l _ => k = l
  | .concentric c d | .equalRadius c d => c = d
  | _ => false

end Requirement

structure ConstraintId where
  raw : Nat
deriving DecidableEq

/-- The id as it is written in messages, such as `#4`. -/
def ConstraintId.name (id : ConstraintId) : String := "#" ++ toString id.raw

structure Constraint (α : Type) where
  id : ConstraintId
  requirement : Requirement α
  /-- A disabled constraint is ignored. -/
  enabled : Bool
  /-- A constraint that does not drive only measures. -/
  driving : Bool
  weight : α
deriving DecidableEq

namespace Constraint

variable {α : Type}

/-- Whether the constraint takes part in solving. -/
def isActive (c : Constraint α) : Bool := c.enabled && c.driving

/-- Whether the constraint takes freedom away from the variables. A held point is no variable, so
holding it is already counted there. -/
def takesFreedom (c : Constraint α) : Bool := c.isActive && !c.requirement.isFixed

/-- The requirement's name and the id, such as `Length #4`. -/
def label (c : Constraint α) : String := c.requirement.name ++ " " ++ c.id.name

end Constraint

end PlaneSketch
