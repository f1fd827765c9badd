import PlaneSketch.Binary64
import PlaneSketch.Geometry

/-!
# Entities

The points, lines, circles and arcs of a sketch (`SketchEntity`, `EntityRef`, `CurveId`). Lines and
curves are built on points, which they name by id. All entities of a sketch draw their raw ids from
one counter, so a raw id belongs to at most one entity, and the kind in front of it says how it is
meant.
-/

namespace PlaneSketch

structure PointId where
  raw : Nat
deriving DecidableEq

structure LineId where
  raw : Nat
deriving DecidableEq

structure CircleId where
  raw : Nat
deriving DecidableEq

structure ArcId where
  raw : Nat
deriving DecidableEq

inductive EntityRef where
  | point (id : PointId)
  | line (id : LineId)
  | circle (id : CircleId)
  | arc (id : ArcId)
deriving DecidableEq

inductive CurveId where
  | circle (id : CircleId)
  | arc (id : ArcId)
deriving DecidableEq

namespace EntityRef

def raw : EntityRef → Nat
  | .point id => id.raw
  | .line id => id.raw
  | .circle id => id.raw
  | .arc id => id.raw

def typeName : EntityRef → String
  | .point _ => "Point"
  | .line _ => "Line"
  | .circle _ => "Circle"
  | .arc _ => "Arc"

def noun : EntityRef → String
  | .point _ => "point"
  | .line _ => "line"
  | .circle _ => "circle"
  | .arc _ => "arc"

def initial : EntityRef → String
  | .point _ => "P"
  | .line _ => "L"
  | .circle _ => "C"
  | .arc _ => "A"

/-- The kind's initial and the raw id, such as `P4`. -/
def name (e : EntityRef) : String := e.initial ++ toString e.raw

end EntityRef

def PointId.name (id : PointId) : String := (EntityRef.point id).name

def LineId.name (id : LineId) : String := (EntityRef.line id).name

def CurveId.toRef : CurveId → EntityRef
  | .circle id => .circle id
  | .arc id => .arc id

def CurveId.name (id : CurveId) : String := id.toRef.name

/-- A position that can be moved, unless it is fixed. -/
structure Point (α : Type) where
  id : PointId
  position : Vec α
  fixed : Bool
  /-- Helper geometry, shown but not part of the drawing. -/
  construction : Bool
deriving DecidableEq

structure Line where
  id : LineId
  start : PointId
  stop : PointId
  construction : Bool
deriving DecidableEq

structure Circle (α : Type) where
  id : CircleId
  center : PointId
  radius : α
  construction : Bool
deriving DecidableEq

/-- A part of a circle, counter-clockwise between two angles in degrees. -/
structure Arc (α : Type) where
  id : ArcId
  center : PointId
  radius : α
  startAngle : α
  stopAngle : α
  construction : Bool
deriving DecidableEq

/-- The angle that the arc covers, in `[0, 360)` degrees. -/
def Arc.sweep (a : Arc Float) : Float :=
  Binary64.withinTurn (a.stopAngle - a.startAngle)

inductive Entity (α : Type) where
  | point (p : Point α)
  | line (l : Line)
  | circle (c : Circle α)
  | arc (a : Arc α)
deriving DecidableEq

namespace Entity

variable {α : Type}

def ref : Entity α → EntityRef
  | .point p => .point p.id
  | .line l => .line l.id
  | .circle c => .circle c.id
  | .arc a => .arc a.id

def raw (e : Entity α) : Nat := e.ref.raw

def isConstruction : Entity α → Bool
  | .point p => p.construction
  | .line l => l.construction
  | .circle c => c.construction
  | .arc a => a.construction

/-- The points that the entity is built on. -/
def basePoints : Entity α → List PointId
  | .point _ => []
  | .line l => [l.start, l.stop]
  | .circle c => [c.center]
  | .arc a => [a.center]

end Entity

end PlaneSketch
