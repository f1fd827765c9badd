import PlaneSketch.Diagnosis.Conflict.Basic

/-!
# Conflicts of axes

A horizontal line has the first axis and a vertical line the second. A parallel line has the same
axis and a perpendicular line the other one, so axes travel from line to line. Where they meet, a
relation between two lines may contradict the axes that the lines already have (`axis_conflicts`).
-/

namespace PlaneSketch

variable {α : Type} [Scalar α]

open Scalar

inductive Axis where
  | x
  | y
deriving DecidableEq

def Axis.other : Axis → Axis
  | .x => .y
  | .y => .x

inductive AxisRelation (α : Type) where
  | same
  | turned
  | angle (degrees : α)

/-- A relation between the axes of two lines, and the constraint that it comes from. -/
structure AxisLink (α : Type) where
  first : LineId
  second : LineId
  relation : AxisRelation α
  id : ConstraintId

structure Oriented where
  axis : Axis
  because : List ConstraintId
deriving DecidableEq

/-- The lines with an axis; no line is there twice. -/
abbrev Axes := List (LineId × Oriented)

namespace Conflict

def axisOf? (c : Constraint α) : Option (LineId × Oriented) :=
  match c.requirement with
  | .horizontal line => some (line, ⟨.x, [c.id]⟩)
  | .vertical line => some (line, ⟨.y, [c.id]⟩)
  | _ => none

/-- The relation that a constraint puts between the axes of two lines. -/
def linkOf? (c : Constraint α) : Option (AxisLink α) :=
  match c.requirement with
  | .parallel k l => some ⟨k, l, .same, c.id⟩
  | .perpendicular k l => some ⟨k, l, .turned, c.id⟩
  | .angle k l degrees => some ⟨k, l, .angle degrees, c.id⟩
  | _ => none

/-- The axes that constraints give lines on their own; the first one on a line counts. -/
def givenAxes (active : List (Constraint α)) : Axes :=
  (active.filterMap axisOf?).foldl
    (fun axes (line, oriented) =>
      if (axes.lookup line).isSome then axes else axes ++ [(line, oriented)]) []

/-- Hands an axis on to a line that a relation links to. -/
def handOn (axes : Axes) (link : AxisLink α) (turns : Bool) : Axes :=
  let onward := fun (source : Oriented) (line : LineId) =>
    let axis := if turns then source.axis.other else source.axis
    axes ++ [(line, ⟨axis, insertAscending ConstraintId.lt link.id source.because⟩)]
  match axes.lookup link.first, axes.lookup link.second with
  | some source, none => onward source link.second
  | none, some source => onward source link.first
  | _, _ => axes

/-- Lets an axis pass over a link. An angle hands nothing on. -/
def follow (axes : Axes) (link : AxisLink α) : Axes :=
  match link.relation with
  | .same => handOn axes link false
  | .turned => handOn axes link true
  | .angle _ => axes

/-- The axes of all lines that can be reached. Each link hands on at most once, so as many rounds
over the links as there are links reach everything. -/
def spreadAxes (links : List (AxisLink α)) (axes : Axes) : Axes :=
  Nat.repeat (fun axes => links.foldl follow axes) links.length axes

/-- Whether an angle is a given one, to within a millionth of a degree. -/
def isNear (degrees target : α) : Bool := abs (degrees - target) ≤ 1e-6

def AxisRelation.holds (r : AxisRelation α) (a b : Axis) : Bool :=
  match r with
  | .same => a = b
  | .turned => a ≠ b
  | .angle degrees =>
    if a = b then isNear degrees 0.0 || isNear degrees 180.0 else isNear degrees 90.0

/-- The conflict of a link with the axes of its lines, if there is one. -/
def ofLink? (s : Sketch α) (axes : Axes) (link : AxisLink α) : Option Conflict := do
  let a ← axes.lookup link.first
  let b ← axes.lookup link.second
  if AxisRelation.holds link.relation a.axis b.axis then none
  else
    let members := ascendingIds (a.because ++ b.because ++ [link.id])
    let names := s.labelsOf members
    return {
      members
      subject := .axes link.id
      category := .orientationConflict
      severity := .high
      explanation :=
        "Axis orientations forced by " ++ names ++ " contradict each other on " ++
          link.first.name ++ " and " ++ link.second.name
      resolution := "Remove or change one of " ++ names
      autoFixable := false }

def ofAxes (s : Sketch α) (active : List (Constraint α)) : List Conflict :=
  let links := active.filterMap linkOf?
  links.filterMap (ofLink? s (spreadAxes links (givenAxes active)))

end Conflict

end PlaneSketch
