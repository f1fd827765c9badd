import PlaneSketch.Scalar

/-!
# Plane geometry

Vectors, segments and circles with their coordinates at hand (`Segment`, `CircleShape`,
`line_distance`, `angle_between`). Entities of a sketch name each other; a measurement first
resolves the names into these values.
-/

namespace PlaneSketch

structure Vec (α : Type) where
  x : α
  y : α
deriving DecidableEq

structure Segment (α : Type) where
  start : Vec α
  stop : Vec α
deriving DecidableEq

structure CircleShape (α : Type) where
  center : Vec α
  radius : α
deriving DecidableEq

variable {α : Type} [Scalar α]

open Scalar

/-- Lengths below this have no direction. -/
def degenerateLength : α := 1e-12

namespace Vec

/-- The first axis, the direction of what has no direction of its own. -/
def axisX : Vec α := ⟨1.0, 0.0⟩

instance : Add (Vec α) := ⟨fun a b => ⟨a.x + b.x, a.y + b.y⟩⟩

instance : Sub (Vec α) := ⟨fun a b => ⟨a.x - b.x, a.y - b.y⟩⟩

def scale (v : Vec α) (factor : α) : Vec α := ⟨v.x * factor, v.y * factor⟩

def divide (v : Vec α) (divisor : α) : Vec α := ⟨v.x / divisor, v.y / divisor⟩

def dot (a b : Vec α) : α := a.x * b.x + a.y * b.y

/-- The signed area of the parallelogram over `a` and `b`. -/
def cross (a b : Vec α) : α := a.x * b.y - a.y * b.x

def lengthSquared (v : Vec α) : α := v.dot v

def length (v : Vec α) : α := sqrt v.lengthSquared

def isFinite (v : Vec α) : Bool := Scalar.isFinite v.x && Scalar.isFinite v.y

def distance (a b : Vec α) : α := (b - a).length

/-- The unit vector along `v`, and the first axis for a vector without a direction. -/
def direction (v : Vec α) : Vec α :=
  if v.length < degenerateLength then axisX else v.divide v.length

/-- The angle between two directions in degrees, without a sign. -/
def angleBetween (a b : Vec α) : α :=
  toDegrees (atan2 (abs (a.cross b)) (a.dot b))

end Vec

namespace Segment

def vector (s : Segment α) : Vec α := s.stop - s.start

def length (s : Segment α) : α := s.vector.length

def isDegenerate (s : Segment α) : Bool := s.length < degenerateLength

def angle (s : Segment α) : α := toDegrees (atan2 s.vector.y s.vector.x)

def direction (s : Segment α) : Vec α := s.vector.direction

def midpoint (s : Segment α) : Vec α := (s.start + s.stop).scale 0.5

/-- The position at parameter `t`, which is 0 at the start and 1 at the end. -/
def pointAt (s : Segment α) (t : α) : Vec α := s.start + s.vector.scale t

/-- The parameter of the point of the segment that is nearest to `p`. -/
def project (s : Segment α) (p : Vec α) : α :=
  if s.vector.lengthSquared < degenerateLength * degenerateLength then 0.0
  else clamp 0.0 1.0 ((p - s.start).dot s.vector / s.vector.lengthSquared)

def nearestPoint (s : Segment α) (p : Vec α) : Vec α := s.pointAt (s.project p)

def distanceTo (s : Segment α) (p : Vec α) : α := p.distance (s.nearestPoint p)

/-- The distance from `p` to the line through the segment; to its start when there is no such
line. -/
def lineDistance (s : Segment α) (p : Vec α) : α :=
  if s.isDegenerate then p.distance s.start else abs (s.direction.cross (p - s.start))

/-- The mirror image of `p` in the line through the segment. -/
def reflect (s : Segment α) (p : Vec α) : Vec α :=
  let along := s.direction.scale ((p - s.start).dot s.direction)
  s.start + along.scale 2.0 - (p - s.start)

end Segment

namespace CircleShape

/-- The point of the circle that is nearest to `p`; the one along the first axis when `p` is the
center. -/
def nearestPoint (c : CircleShape α) (p : Vec α) : Vec α :=
  c.center + (p - c.center).direction.scale c.radius

def distanceTo (c : CircleShape α) (p : Vec α) : α := p.distance (c.nearestPoint p)

end CircleShape

end PlaneSketch
