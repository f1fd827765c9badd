import PlaneSketch.Sketch.Basic

/-!
# Validity

Whether a constraint fits its sketch (`validate`, `invalid_constraints`), whether all numbers of a
sketch are finite (`check_finite`), and which points a solve has to leave where they are held
(`pinned_points`, `apply_pins`).
-/

namespace PlaneSketch

variable {α : Type} [Scalar α]

open Scalar

/-- What is wrong with the target of a requirement. A curve needs a positive size, an angle lies
between 0 and 180 degrees, and no other dimension is negative. -/
def Requirement.valueDefect? (r : Requirement α) (v : α) : Option (Defect α) :=
  if !isFinite v then some (.valueNotFinite v)
  else
    match r with
    | .radius .. | .diameter .. => if v ≤ 0.0 then some (.valueNotPositive v) else none
    | .angle .. => if 0.0 ≤ v ∧ v ≤ 180.0 then none else some (.angleOutOfRange v)
    | _ => if v < 0.0 then some (.valueNegative v) else none

/-- What is wrong with the position at which a requirement holds a point. -/
def Requirement.positionDefect? : Requirement α → Option (Defect α)
  | .fixed _ position => if position.isFinite then none else some .positionNotFinite
  | _ => none

/-- The first thing that is wrong with a constraint: its weight, a reference that resolves to no
entity of its kind, a position or a target, or one entity in two places. -/
def Constraint.defect? (s : Sketch α) (c : Constraint α) : Option (Defect α) :=
  if !isFinite c.weight || c.weight ≤ 0.0 then some (.weightNotPositive c.weight)
  else
    match c.requirement.references.find? (!s.contains ·) with
    | some e => some (.missingReference e)
    | none =>
      c.requirement.positionDefect?
        <|> c.requirement.value?.bind c.requirement.valueDefect?
        <|> if c.requirement.repeatsEntity then some .repeatedEntity else none

def Constraint.isValid (s : Sketch α) (c : Constraint α) : Bool := (c.defect? s).isNone

namespace Sketch

/-- The enabled constraints that do not fit the sketch, with the reason. -/
def invalidConstraints (s : Sketch α) : List (ConstraintId × Defect α) :=
  s.constraints.filterMap fun c =>
    if c.enabled then (c.defect? s).map (c.id, ·) else none

/-- Those of the invalid constraints that take part in solving. -/
def invalidActive (s : Sketch α) : List (ConstraintId × Defect α) :=
  s.invalidConstraints.filter fun (id, _) => (s.constraint? id).any (·.isActive)

/-- The fault of the first number of an entity that is not finite. -/
def checkEntity (e : Entity α) : Except (Fault α) Unit :=
  match e with
  | .point p => do
    checkFinite e.ref .xCoordinate p.position.x
    checkFinite e.ref .yCoordinate p.position.y
  | .line _ => .ok ()
  | .circle c => checkFinite e.ref .radius c.radius
  | .arc a => do
    checkFinite e.ref .radius a.radius
    checkFinite e.ref .startAngle a.startAngle
    checkFinite e.ref .stopAngle a.stopAngle

/-- The fault of the first number of the sketch that is not finite. -/
def checkNumbers (s : Sketch α) : Except (Fault α) Unit :=
  s.entities.forM checkEntity

/-! ### Pins -/

/-- Points with the positions they are held at, each point once. -/
abbrev Pins (α : Type) := List (PointId × Vec α)

/-- Holds one more point; a point that is already held gets the new position. -/
def Pins.hold (pins : Pins α) (id : PointId) (position : Vec α) : Pins α :=
  match pins with
  | [] => [(id, position)]
  | (other, held) :: rest =>
    if other = id then (id, position) :: rest else (other, held) :: Pins.hold rest id position

/-- The point that an active requirement holds, unless it is fixed where it is anyway. -/
def heldBy? (s : Sketch α) (c : Constraint α) : Option (PointId × Vec α) :=
  match c.requirement with
  | .fixed id position =>
    if c.isActive && (s.point? id).any (!·.fixed) then some (id, position) else none
  | _ => none

/-- The points that a solve must not move: the fixed ones stay where they are, and of several
constraints that hold one point the last one wins. -/
def pins (s : Sketch α) : Pins α :=
  (s.constraints.filterMap s.heldBy?).foldl (fun pins (id, position) => pins.hold id position)
    ((s.points.filter (·.fixed)).map fun p => (p.id, p.position))

def Pins.holds (pins : Pins α) (id : PointId) : Bool := pins.any (·.1 = id)

def place (s : Sketch α) (id : PointId) (position : Vec α) : Sketch α :=
  match s.point? id with
  | none => s
  | some _ => s.modifyEntity id.raw fun
    | .point p => .point { p with position := position }
    | e => e

def applyPins (s : Sketch α) (pins : Pins α) : Sketch α :=
  pins.foldl (fun s (id, position) => s.place id position) s

end Sketch

end PlaneSketch
