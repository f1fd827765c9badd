import PlaneSketch.Residual

/-!
# Residuals in place

The residuals of a requirement, as `components` puts them behind those that were collected before:
entities are looked up one after another, then one or two numbers are put at the end. A look-up that
finds nothing stops the evaluation where it stands.
-/

namespace PlaneSketch

variable {α β : Type}

/-- An evaluation in steps, over the numbers that are collected so far. An entity that does not
resolve ends it and leaves the numbers as the steps before it made them. -/
abbrev Collecting (α β : Type) := ExceptT EntityRef (StateM (List α)) β

namespace Collecting

/-- The answer of an evaluation, and the numbers that are there then. -/
def on (steps : Collecting α β) (out : List α) : Except EntityRef β × List α :=
  steps.run.run out

def put (v : α) : Collecting α Unit :=
  modify fun out => out ++ [v]

def putVec (v : Vec α) : Collecting α Unit := do
  put v.x
  put v.y

def point (s : Sketch α) (id : PointId) : Collecting α (Vec α) := ofExcept (s.resolvePoint id)

def segment (s : Sketch α) (id : LineId) : Collecting α (Segment α) := ofExcept (s.resolveLine id)

def curve (s : Sketch α) (id : CurveId) : Collecting α (CircleShape α) :=
  ofExcept (s.resolveCurve id)

end Collecting

open Collecting Scalar

/-- Puts the signed residuals of a requirement behind the numbers that are there. -/
def Sketch.collectComponents [Scalar α] (s : Sketch α) : Requirement α → Collecting α Unit
  | .fixed p position => do
    putVec ((← point s p) - position)
  | .coincident p q => do
    putVec ((← point s p) - (← point s q))
  | .horizontal l => do
    put (← segment s l).vector.y
  | .vertical l => do
    put (← segment s l).vector.x
  | .parallel k l => do
    let first ← segment s k
    let second ← segment s l
    put (first.direction.cross second.direction)
  | .perpendicular k l => do
    let first ← segment s k
    let second ← segment s l
    put (first.direction.dot second.direction)
  | .equalLength k l => do
    put ((← segment s k).length - (← segment s l).length)
  | .pointOnLine p l => do
    let p ← point s p
    putVec (p - (← segment s l).nearestPoint p)
  | .midpoint p l => do
    putVec ((← point s p) - (← segment s l).midpoint)
  | .tangent l c => do
    let line ← segment s l
    let shape ← curve s c
    put (line.lineDistance shape.center - shape.radius)
  | .concentric c d => do
    putVec ((← curve s c).center - (← curve s d).center)
  | .equalRadius c d => do
    put ((← curve s c).radius - (← curve s d).radius)
  | .pointOnCircle p c => do
    let p ← point s p
    let shape ← curve s c
    let distance := shape.distanceTo p
    put (if (p - shape.center).length < shape.radius then -distance else distance)
  | .symmetric p q l => do
    let axis ← segment s l
    let mirrored := axis.reflect (← point s p)
    putVec ((← point s q) - mirrored)
  | .length l value => do
    put ((← segment s l).length - value)
  | .distance p q value => do
    put (((← point s q) - (← point s p)).length - value)
  | .horizontalDistance p q value => do
    put (abs ((← point s q).x - (← point s p).x) - value)
  | .verticalDistance p q value => do
    put (abs ((← point s q).y - (← point s p).y) - value)
  | .angle k l value => do
    let first ← segment s k
    let second ← segment s l
    put (first.direction.angleBetween second.direction - value)
  | .radius c value => do
    put ((← curve s c).radius - value)
  | .diameter c value => do
    put (2.0 * (← curve s c).radius - value)

end PlaneSketch
