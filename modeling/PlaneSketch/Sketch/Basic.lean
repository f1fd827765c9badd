import Std.Data.TreeMap
import PlaneSketch.Fault

/-!
# Sketches

A sketch owns its entities and its constraints, each in the order in which they were added
(`add_point` and the other constructors, `add_constraint`). Ids are never given out twice: two
counters hold the next free ones, and the raw ids of removed entities are remembered, so that
constraints which still name them can be found.

An index from raw ids to places in the list of entities serves every look-up; the operations that
move entities rebuild it.
-/

namespace PlaneSketch

structure Sketch (α : Type) where
  name : String
  entities : List (Entity α)
  /-- The place of each entity, by raw id. -/
  index : Std.TreeMap Nat Nat
  constraints : List (Constraint α)
  nextEntity : Nat
  nextConstraint : Nat
  removed : List Nat

namespace Sketch

variable {α : Type}

def empty (name : String) : Sketch α :=
  ⟨name, [], ∅, [], 0, 0, []⟩

/-! ### Look-up -/

def entity? (s : Sketch α) (raw : Nat) : Option (Entity α) :=
  s.index[raw]?.bind (s.entities[·]?)

/-- Whether the raw id belongs to an entity of the kind that the reference says. -/
def contains (s : Sketch α) (e : EntityRef) : Bool :=
  (s.entity? e.raw).any (·.ref = e)

def point? (s : Sketch α) (id : PointId) : Option (Point α) :=
  match s.entity? id.raw with
  | some (.point p) => some p
  | _ => none

def line? (s : Sketch α) (id : LineId) : Option Line :=
  match s.entity? id.raw with
  | some (.line l) => some l
  | _ => none

def circle? (s : Sketch α) (id : CircleId) : Option (Circle α) :=
  match s.entity? id.raw with
  | some (.circle c) => some c
  | _ => none

def arc? (s : Sketch α) (id : ArcId) : Option (Arc α) :=
  match s.entity? id.raw with
  | some (.arc a) => some a
  | _ => none

def points (s : Sketch α) : List (Point α) :=
  s.entities.filterMap fun | .point p => some p | _ => none

def lines (s : Sketch α) : List Line :=
  s.entities.filterMap fun | .line l => some l | _ => none

def circles (s : Sketch α) : List (Circle α) :=
  s.entities.filterMap fun | .circle c => some c | _ => none

def arcs (s : Sketch α) : List (Arc α) :=
  s.entities.filterMap fun | .arc a => some a | _ => none

def position? (s : Sketch α) (id : PointId) : Option (Vec α) :=
  (s.point? id).map (·.position)

def segment? (s : Sketch α) (id : LineId) : Option (Segment α) := do
  let line ← s.line? id
  return ⟨← s.position? line.start, ← s.position? line.stop⟩

def center? (s : Sketch α) : CurveId → Option PointId
  | .circle id => (s.circle? id).map (·.center)
  | .arc id => (s.arc? id).map (·.center)

def radius? (s : Sketch α) : CurveId → Option α
  | .circle id => (s.circle? id).map (·.radius)
  | .arc id => (s.arc? id).map (·.radius)

def shape? (s : Sketch α) (id : CurveId) : Option (CircleShape α) := do
  let center ← s.position? (← s.center? id)
  return ⟨center, ← s.radius? id⟩

/-- The points that a requirement moves: those it names, and those that its lines and curves are
built on; each once, in the order of the references. -/
def touchedPoints (s : Sketch α) (r : Requirement α) : List PointId :=
  (r.references.flatMap fun
    | .point id => [id]
    | e => ((s.entity? e.raw).map Entity.basePoints).getD []).foldl
    (fun seen p => if p ∈ seen then seen else seen ++ [p]) []

def constraint? (s : Sketch α) (id : ConstraintId) : Option (Constraint α) :=
  s.constraints.find? (·.id = id)

/-- The constraints that take part in solving. -/
def active (s : Sketch α) : List (Constraint α) :=
  s.constraints.filter (·.isActive)

/-! ### The index -/

def indexOf (entities : List (Entity α)) : Std.TreeMap Nat Nat :=
  entities.zipIdx.foldl (fun index (e, place) => index.insert e.raw place) ∅

/-- The sketch with other entities and the index that belongs to them. -/
def withEntities (s : Sketch α) (entities : List (Entity α)) : Sketch α :=
  { s with entities := entities, index := indexOf entities }

def modifyEntity (s : Sketch α) (raw : Nat) (f : Entity α → Entity α) : Sketch α :=
  match s.index[raw]? with
  | some place => { s with entities := s.entities.modify place f }
  | none => s

/-! ### Adding -/

variable [Scalar α]

/-- Puts an entity at the end, under the next free raw id. -/
def push (s : Sketch α) (make : Nat → Entity α) : Sketch α :=
  let e := make s.nextEntity
  { s with
    entities := s.entities ++ [e]
    index := s.index.insert e.raw s.entities.length
    nextEntity := s.nextEntity + 1 }

/-- Gives the next raw id away without an entity. -/
def skipId (s : Sketch α) : Sketch α :=
  { s with nextEntity := s.nextEntity + 1 }

def checkFinite (e : EntityRef) (quality : Quality) (value : α) : Except (Fault α) Unit :=
  if Scalar.isFinite value then .ok () else .error (.notFinite e quality value)

def checkRadius (e : EntityRef) (radius : α) : Except (Fault α) Unit := do
  checkFinite e .radius radius
  if radius ≤ 0.0 then throw (.radiusNotPositive e radius)

def addPointWith (s : Sketch α) (position : Vec α) (fixed : Bool) : PointId × Sketch α :=
  (⟨s.nextEntity⟩, s.push fun raw => .point ⟨⟨raw⟩, position, fixed, false⟩)

def addPoint (s : Sketch α) (position : Vec α) : PointId × Sketch α :=
  s.addPointWith position false

/-- Adds a point that no solve moves. -/
def addFixedPoint (s : Sketch α) (position : Vec α) : PointId × Sketch α :=
  s.addPointWith position true

def addLine (s : Sketch α) (start stop : PointId) : Except (Fault α) LineId × Sketch α :=
  if !s.contains (.point start) then (.error (.entityNotFound (.point start)), s)
  else if !s.contains (.point stop) then (.error (.entityNotFound (.point stop)), s)
  else (.ok ⟨s.nextEntity⟩, s.push fun raw => .line ⟨⟨raw⟩, start, stop, false⟩)

/-- Adds a circle around a point of the sketch. A refused radius still uses up the raw id that its
message names. -/
def addCircle (s : Sketch α) (center : PointId) (radius : α) :
    Except (Fault α) CircleId × Sketch α :=
  if !s.contains (.point center) then (.error (.entityNotFound (.point center)), s)
  else
    match checkRadius (.circle ⟨s.nextEntity⟩) radius with
    | .error fault => (.error fault, s.skipId)
    | .ok () => (.ok ⟨s.nextEntity⟩, s.push fun raw => .circle ⟨⟨raw⟩, center, radius, false⟩)

def checkArc (e : EntityRef) (radius startAngle stopAngle : α) : Except (Fault α) Unit := do
  checkRadius e radius
  checkFinite e .startAngle startAngle
  checkFinite e .stopAngle stopAngle

/-- Adds an arc around a point of the sketch. Refused numbers still use up the raw id that the
message names. -/
def addArc (s : Sketch α) (center : PointId) (radius startAngle stopAngle : α) :
    Except (Fault α) ArcId × Sketch α :=
  if !s.contains (.point center) then (.error (.entityNotFound (.point center)), s)
  else
    match checkArc (.arc ⟨s.nextEntity⟩) radius startAngle stopAngle with
    | .error fault => (.error fault, s.skipId)
    | .ok () =>
      (.ok ⟨s.nextEntity⟩,
        s.push fun raw => .arc ⟨⟨raw⟩, center, radius, startAngle, stopAngle, false⟩)

/-- Adds an active constraint of weight one. Whether its references resolve is not asked here. -/
def addConstraint (s : Sketch α) (r : Requirement α) : ConstraintId × Sketch α :=
  (⟨s.nextConstraint⟩,
    { s with
      constraints := s.constraints ++ [⟨⟨s.nextConstraint⟩, r, true, true, 1.0⟩]
      nextConstraint := s.nextConstraint + 1 })

/-- Holds a point where it is. -/
def fixPoint (s : Sketch α) (id : PointId) : Except (Fault α) ConstraintId × Sketch α :=
  match s.position? id with
  | none => (.error (.entityNotFound (.point id)), s)
  | some position =>
    let (c, s) := s.addConstraint (.fixed id position)
    (.ok c, s)

end Sketch

end PlaneSketch
