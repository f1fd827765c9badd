import PlaneSketch.Sketch.Validity

/-!
# Residuals

By how much the geometry of a sketch misses a requirement: one or two signed numbers (`components`),
all of which vanish exactly when the requirement holds. A solve works on the signed numbers; whoever
only asks how wrong a constraint is takes their Euclidean norm, the error (`kind_error`,
`constraint_error`).
-/

namespace PlaneSketch

variable {α : Type} [Scalar α]

open Scalar

def unresolvedError : α := 1.0e6

namespace Vec

def toList (v : Vec α) : List α := [v.x, v.y]

end Vec

namespace CircleShape

/-- The distance to the circle, negative inside it, so that it passes through zero smoothly. -/
def signedDistance (c : CircleShape α) (p : Vec α) : α :=
  if (p - c.center).length < c.radius then -c.distanceTo p else c.distanceTo p

end CircleShape

namespace Sketch

/-- The position of a point, or the point as the missing entity. -/
def resolvePoint (s : Sketch α) (id : PointId) : Except EntityRef (Vec α) :=
  match s.position? id with
  | some position => .ok position
  | none => .error (.point id)

def resolveLine (s : Sketch α) (id : LineId) : Except EntityRef (Segment α) :=
  match s.segment? id with
  | some segment => .ok segment
  | none => .error (.line id)

/-- The circle under a curve, or the curve as the missing entity. -/
def resolveCurve (s : Sketch α) (id : CurveId) : Except EntityRef (CircleShape α) :=
  match s.shape? id with
  | some shape => .ok shape
  | none => .error id.toRef

/-- The signed residuals of a requirement, or the first of its entities that does not resolve. A
second point is looked up before the first one where a distance is measured from first to
second, and a mirror axis before its points. -/
def components (s : Sketch α) : Requirement α → Except EntityRef (List α)
  | .fixed p position => do
    return ((← s.resolvePoint p) - position).toList
  | .coincident p q => do
    return ((← s.resolvePoint p) - (← s.resolvePoint q)).toList
  | .horizontal l => do
    return [(← s.resolveLine l).vector.y]
  | .vertical l => do
    return [(← s.resolveLine l).vector.x]
  | .parallel k l => do
    return [(← s.resolveLine k).direction.cross (← s.resolveLine l).direction]
  | .perpendicular k l => do
    return [(← s.resolveLine k).direction.dot (← s.resolveLine l).direction]
  | .equalLength k l => do
    return [(← s.resolveLine k).length - (← s.resolveLine l).length]
  | .pointOnLine p l => do
    let p ← s.resolvePoint p
    return (p - (← s.resolveLine l).nearestPoint p).toList
  | .midpoint p l => do
    return ((← s.resolvePoint p) - (← s.resolveLine l).midpoint).toList
  | .tangent l c => do
    let segment ← s.resolveLine l
    let shape ← s.resolveCurve c
    return [segment.lineDistance shape.center - shape.radius]
  | .concentric c d => do
    return ((← s.resolveCurve c).center - (← s.resolveCurve d).center).toList
  | .equalRadius c d => do
    return [(← s.resolveCurve c).radius - (← s.resolveCurve d).radius]
  | .pointOnCircle p c => do
    let p ← s.resolvePoint p
    return [(← s.resolveCurve c).signedDistance p]
  | .symmetric p q l => do
    let axis ← s.resolveLine l
    let mirrored := axis.reflect (← s.resolvePoint p)
    return ((← s.resolvePoint q) - mirrored).toList
  | .length l value => do
    return [(← s.resolveLine l).length - value]
  | .distance p q value => do
    let q ← s.resolvePoint q
    let p ← s.resolvePoint p
    return [(q - p).length - value]
  | .horizontalDistance p q value => do
    let q ← s.resolvePoint q
    let p ← s.resolvePoint p
    return [abs (q.x - p.x) - value]
  | .verticalDistance p q value => do
    let q ← s.resolvePoint q
    let p ← s.resolvePoint p
    return [abs (q.y - p.y) - value]
  | .angle k l value => do
    let first ← s.resolveLine k
    let second ← s.resolveLine l
    return [first.direction.angleBetween second.direction - value]
  | .radius c value => do
    return [(← s.resolveCurve c).radius - value]
  | .diameter c value => do
    return [2.0 * (← s.resolveCurve c).radius - value]

def errorOf (s : Sketch α) (r : Requirement α) : α :=
  match s.components r with
  | .ok residuals => sqrt (sum (residuals.map fun x => x * x))
  | .error _ => unresolvedError

def activeErrors (s : Sketch α) : List (ConstraintId × α) :=
  s.active.map fun c => (c.id, s.errorOf c.requirement)

/-- The norm of the errors of some constraints, each times its weight. -/
def weightedError (s : Sketch α) (constraints : List (Constraint α)) : α :=
  sqrt (sum (constraints.map fun c =>
    (c.weight * s.errorOf c.requirement) * (c.weight * s.errorOf c.requirement)))

def totalError (s : Sketch α) : α := s.weightedError s.active

end Sketch

end PlaneSketch
