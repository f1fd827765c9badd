import PlaneSketch.Sketch.Validity

/-!
# Variables

The numbers of a sketch that a solve may change, in a fixed order: the coordinates of its points,
then the radii of its circles, then radius, start angle and end angle of its arcs, each in the
order of the sketch (`VariableMap`). Each point is visited once.

A held point is no variable. Construction geometry is one only if something depends on it: a
constraint that names it, or a drawn or constrained curve that is built on it.
-/

namespace PlaneSketch

variable {α : Type}

/-- A number of an entity that a solve may change; the place is the entity's place in the list. -/
inductive Slot where
  | pointX (place : Nat)
  | pointY (place : Nat)
  | circleRadius (place : Nat)
  | arcRadius (place : Nat)
  | arcStart (place : Nat)
  | arcStop (place : Nat)
deriving DecidableEq

namespace Slot

def place : Slot → Nat
  | .pointX i | .pointY i | .circleRadius i | .arcRadius i | .arcStart i | .arcStop i => i

def read? : Slot → Entity α → Option α
  | .pointX _, .point p => some p.position.x
  | .pointY _, .point p => some p.position.y
  | .circleRadius _, .circle c => some c.radius
  | .arcRadius _, .arc a => some a.radius
  | .arcStart _, .arc a => some a.startAngle
  | .arcStop _, .arc a => some a.stopAngle
  | _, _ => none

def write (v : α) : Slot → Entity α → Entity α
  | .pointX _, .point p => .point { p with position := { p.position with x := v } }
  | .pointY _, .point p => .point { p with position := { p.position with y := v } }
  | .circleRadius _, .circle c => .circle { c with radius := v }
  | .arcRadius _, .arc a => .arc { a with radius := v }
  | .arcStart _, .arc a => .arc { a with startAngle := v }
  | .arcStop _, .arc a => .arc { a with stopAngle := v }
  | _, e => e

end Slot

namespace Sketch

def isConstrained (s : Sketch α) (raw : Nat) : Bool :=
  s.active.any fun c => c.requirement.references.any (·.raw = raw)

def isLive (s : Sketch α) (e : Entity α) : Bool :=
  !e.isConstruction || s.isConstrained e.raw

/-- Whether a live line, circle or arc is built on the point. -/
def carriesCurve (s : Sketch α) (id : PointId) : Bool :=
  s.entities.any fun e => s.isLive e && id ∈ e.basePoints

/-- The coordinates of an entity, if it is a point that a solve may move. -/
def pointSlots (s : Sketch α) (pins : Pins α) : Entity α × Nat → List Slot
  | (.point p, i) =>
    if !pins.holds p.id && (s.isLive (.point p) || s.carriesCurve p.id) then
      [.pointX i, .pointY i]
    else []
  | _ => []

def circleSlots (s : Sketch α) : Entity α × Nat → List Slot
  | (.circle c, i) => if s.isLive (.circle c) then [.circleRadius i] else []
  | _ => []

def arcSlots (s : Sketch α) : Entity α × Nat → List Slot
  | (.arc a, i) => if s.isLive (.arc a) then [.arcRadius i, .arcStart i, .arcStop i] else []
  | _ => []

/-- Placed entities without the points whose id was seen before. -/
def firstVisits : List PointId → List (Entity α × Nat) → List (Entity α × Nat)
  | _, [] => []
  | seen, (.point p, i) :: rest =>
    if p.id ∈ seen then firstVisits seen rest
    else (.point p, i) :: firstVisits (p.id :: seen) rest
  | seen, other :: rest => other :: firstVisits seen rest

variable [Scalar α]

def slots (s : Sketch α) : List Slot :=
  let pins := s.pins
  let placed := s.entities.zipIdx
  (firstVisits [] placed).flatMap (s.pointSlots pins) ++ placed.flatMap s.circleSlots ++
    placed.flatMap s.arcSlots

/-- The numbers in some slots; zero where a slot does not fit its entity. -/
def valuesAt (s : Sketch α) (slots : List Slot) : List α :=
  slots.map fun slot => ((s.entities[slot.place]?).bind slot.read?).getD 0.0

def withValuesAt (s : Sketch α) (slots : List Slot) (values : List α) : Sketch α :=
  { s with
    entities := (slots.zip values).foldl
      (fun entities (slot, v) => entities.modify slot.place (slot.write v)) s.entities }

end Sketch

end PlaneSketch
