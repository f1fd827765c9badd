import PlaneSketch.Diagnosis.Ascending
import PlaneSketch.Diagnosis.Config
import PlaneSketch.Sketch.Validity

/-!
# Conflicts

A conflict is a group of constraints that cannot hold together, with what it is about, how certain
it is, and what can be done (`ConflictInfo`; `categorize` for what solving finds).
-/

namespace PlaneSketch

inductive Severity where
  /-- No geometry satisfies the constraints. -/
  | critical
  /-- The constraints only hold on collapsed geometry, or no solution was found. -/
  | high
  | medium
  | low
deriving DecidableEq

namespace Severity

def name : Severity → String
  | .critical => "CRITICAL"
  | .high => "HIGH"
  | .medium => "MEDIUM"
  | .low => "LOW"

/-- The most certain comes first. -/
def rank : Severity → Nat
  | .critical => 0
  | .high => 1
  | .medium => 2
  | .low => 3

end Severity

inductive Category where
  /-- Different targets for one measured quantity. -/
  | conflictingDimensions
  /-- Constraints that only hold on collapsed geometry. -/
  | degenerateGeometry
  /-- Orientations that contradict each other. -/
  | orientationConflict
  /-- Constraints that held points do not satisfy. -/
  | fixedPositionConflict
  | unsatisfiableSubset
deriving DecidableEq

def Category.name : Category → String
  | .conflictingDimensions => "conflicting_dimensions"
  | .degenerateGeometry => "degenerate_geometry"
  | .orientationConflict => "orientation_conflict"
  | .fixedPositionConflict => "fixed_position_conflict"
  | .unsatisfiableSubset => "unsatisfiable_subset"

/-- Two things of which the order does not matter, the one with the smaller raw id first. -/
def orderedPair {β : Type} (raw : β → Nat) (a b : β) : β × β :=
  if raw a ≤ raw b then (a, b) else (b, a)

def orderedPoints (p q : PointId) : PointId × PointId := orderedPair PointId.raw p q

def orderedLines (k l : LineId) : LineId × LineId := orderedPair LineId.raw k l

/-- A quantity that can be measured on a sketch and that several constraints may have a target
for. Pairs are ordered. -/
inductive Quantity where
  | separation (p q : PointId)
  | horizontalGap (p q : PointId)
  | verticalGap (p q : PointId)
  | angle (k l : LineId)
  | radius (c : CurveId)
  | position (p : PointId)
deriving DecidableEq

inductive Subject where
  | quantity (q : Quantity)
  | held (id : ConstraintId)
  | collapsedLine (line : LineId)
  | crossedLines (pair : LineId × LineId)
  | axes (relation : ConstraintId)
  | unsolved
deriving DecidableEq

/-- A group of constraints that cannot hold together. -/
structure Conflict where
  members : List ConstraintId
  subject : Subject
  category : Category
  severity : Severity
  explanation : String
  resolution : String
  /-- Whether taking the newest member out resolves the conflict. -/
  autoFixable : Bool
deriving DecidableEq

namespace Conflict

/-- The member that was added last. -/
def newest? (c : Conflict) : Option ConstraintId :=
  c.members.foldl
    (fun best id => match best with
      | none => some id
      | some other => if other.raw ≤ id.raw then some id else best) none

/-- Adds a conflict to others, unless all members of one of them are among its members. -/
def keep (conflicts : List Conflict) (c : Conflict) : List Conflict :=
  if conflicts.any fun other => other.members.all (· ∈ c.members) then conflicts
  else conflicts ++ [c]

end Conflict

namespace Sketch

variable {α : Type}

/-- The label of a constraint, or its bare id when it is not there. -/
def labelOf (s : Sketch α) (id : ConstraintId) : String :=
  ((s.constraint? id).map (·.label)).getD id.name

def labelsOf (s : Sketch α) (ids : List ConstraintId) : String :=
  ", ".intercalate (ids.map s.labelOf)

end Sketch

end PlaneSketch
