import PlaneSketch.Diagnosis.Config
import PlaneSketch.Sketch.Validity

/-!
# Suggestions

Constraints that would take away freedom that a sketch still has, read off its geometry (`suggest`):
hold a point when nothing is held (`anchor`), put a line that is nearly on an axis there
(`axis_alignment`), and keep the lengths, radii and angles that are measured (`dimensions`,
`angles`). Construction geometry gets none.
-/

namespace PlaneSketch

variable {α : Type} [Scalar α]

open Scalar

inductive Priority where
  | critical
  | high
  | medium
  | low
deriving DecidableEq

namespace Priority

def name : Priority → String
  | .critical => "CRITICAL"
  | .high => "HIGH"
  | .medium => "MEDIUM"
  | .low => "LOW"

def rank : Priority → Nat
  | .critical => 0
  | .high => 1
  | .medium => 2
  | .low => 3

end Priority

structure Suggestion (α : Type) where
  proposed : Requirement α
  priority : Priority
  /-- Whether it can be added without asking. -/
  autoAddable : Bool
  description : String
deriving DecidableEq

namespace Suggestion

def targets (s : Suggestion α) : List EntityRef := s.proposed.references

def dofReduction (s : Suggestion α) : Nat := s.proposed.dofWeight

end Suggestion

namespace Requirement

/-- Whether the requirement says anything about the direction of a line. -/
def orients (line : LineId) : Requirement α → Bool
  | .horizontal l | .vertical l => l = line
  | .parallel k l | .perpendicular k l | .angle k l _ => k = line || l = line
  | _ => false

def alignsWithAxis (line : LineId) : Requirement α → Bool
  | .horizontal l | .vertical l => l = line
  | _ => false

/-- Whether the requirement is a target for the length of a line. -/
def sizesLine (line : Line) : Requirement α → Bool
  | .length l _ => l = line.id
  | .distance p q _ =>
    p = line.start && q = line.stop || p = line.stop && q = line.start
  | _ => false

def sizesCurve (curve : CurveId) : Requirement α → Bool
  | .radius c _ | .diameter c _ => c = curve
  | _ => false

def relates (a b : LineId) : Requirement α → Bool
  | .parallel k l | .perpendicular k l | .angle k l _ => k = a && l = b || k = b && l = a
  | _ => false

end Requirement

namespace Sketch

def requires (s : Sketch α) (form : Requirement α → Bool) : Bool :=
  s.active.any (form ·.requirement)

/-- The lines that are drawn. -/
def drawnLines (s : Sketch α) : List Line := s.lines.filter (!·.construction)

/-- The circles and then the arcs that are drawn, with their radii. -/
def drawnCurves (s : Sketch α) : List (CurveId × α) :=
  ((s.circles.filter (!·.construction)).map fun c => (.circle c.id, c.radius))
    ++ (s.arcs.filter (!·.construction)).map fun a => (.arc a.id, a.radius)

/-- The point to hold when nothing holds the sketch: the first drawn one that no constraint touches,
or else the first drawn one. -/
def anchorPoint? (s : Sketch α) : Option (Point α) :=
  if !s.pins.isEmpty then none
  else
    let touched := s.active.flatMap fun c => s.touchedPoints c.requirement
    let drawn := s.points.filter (!·.construction)
    drawn.find? (·.id ∉ touched) <|> drawn.head?

end Sketch

namespace Suggestion

/-- The axis that a segment is to be put on: the proposal, the name of the axis and the angle to it
in degrees. -/
def nearAxis? (line : LineId) (snap : α) (segment : Segment α) :
    Option (Requirement α × String × α) :=
  let angle := abs segment.angle
  let offHorizontal := smaller angle (180.0 - angle)
  let offVertical := abs (90.0 - angle)
  if offHorizontal ≤ snap then some (.horizontal line, "horizontal", offHorizontal)
  else if offVertical ≤ snap then some (.vertical line, "vertical", offVertical)
  else none

def areAdjacent (a b : Line) : Bool :=
  [a.start, a.stop].any fun p => p = b.start || p = b.stop

/-- The pairs of a list, each with the earlier member first. -/
def pairs {β : Type} : List β → List (β × β)
  | [] => []
  | b :: rest => rest.map (b, ·) ++ pairs rest

variable [NumberText α]

open NumberText

def anchors (s : Sketch α) : List (Suggestion α) :=
  s.anchorPoint?.toList.map fun p =>
    ⟨.fixed p.id p.position, .critical, true,
      "Fix " ++ p.id.name ++ " at (" ++ shortest p.position.x ++ ", " ++ shortest p.position.y ++
        ") to anchor the sketch"⟩

/-- Puts a line on an axis, if it is nearly there and has no direction yet. -/
def alignment? (s : Sketch α) (snap : α) (line : Line) : Option (Suggestion α) := do
  let segment ← s.segment? line.id
  if segment.isDegenerate || s.requires (·.orients line.id) then none
  else
    let (proposed, axis, off) ← nearAxis? line.id snap segment
    return ⟨proposed, .high, true,
      "Make " ++ line.id.name ++ " " ++ axis ++ " (currently " ++ fixed 2 off ++ "° off)"⟩

def length? (s : Sketch α) (line : Line) : Option (Suggestion α) := do
  let segment ← s.segment? line.id
  if segment.isDegenerate || s.requires (·.sizesLine line) then none
  else
    return ⟨.length line.id segment.length, .medium, false,
      "Set the length of " ++ line.id.name ++ " to " ++ fixed 4 segment.length ++ " (measured)"⟩

def radius? (s : Sketch α) (curve : CurveId) (radius : α) : Option (Suggestion α) :=
  if s.requires (·.sizesCurve curve) then none
  else
    some ⟨.radius curve radius, .medium, false,
      "Set the radius of " ++ curve.name ++ " to " ++ fixed 4 radius ++ " (measured)"⟩

/-- Keeps the angle between two lines with a common endpoint that are not related yet, unless both
are on axes. -/
def angle? (s : Sketch α) (a b : Line) : Option (Suggestion α) :=
  if !areAdjacent a b || s.requires (·.relates a.id b.id)
      || s.requires (·.alignsWithAxis a.id) && s.requires (·.alignsWithAxis b.id) then none
  else do
    let first ← s.segment? a.id
    let second ← s.segment? b.id
    if first.isDegenerate || second.isDegenerate then none
    else
      let angle := first.direction.angleBetween second.direction
      return ⟨.angle a.id b.id angle, .medium, false,
        "Set the angle between " ++ a.id.name ++ " and " ++ b.id.name ++ " to " ++ fixed 2 angle ++
          "° (measured)"⟩

def all (s : Sketch α) (snap : α) : List (Suggestion α) :=
  anchors s
    ++ s.drawnLines.filterMap (alignment? s snap)
    ++ s.drawnLines.filterMap (length? s)
    ++ s.drawnCurves.filterMap (fun (curve, radius) => radius? s curve radius)
    ++ (pairs s.drawnLines).filterMap fun (a, b) => angle? s a b

end Suggestion

/-- The suggestions for a sketch: the most important first, otherwise in the order of the rules, and
no more than asked for. -/
def Sketch.suggestions [NumberText α] (s : Sketch α) (c : DiagnosisConfig α) :
    List (Suggestion α) :=
  ((Suggestion.all s c.axisSnap).mergeSort fun a b => a.priority.rank ≤ b.priority.rank).take
    c.maxSuggestions

def Sketch.applySuggestion (s : Sketch α) (suggestion : Suggestion α) : ConstraintId × Sketch α :=
  s.addConstraint suggestion.proposed

end PlaneSketch
