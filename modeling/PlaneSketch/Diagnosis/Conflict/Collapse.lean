import PlaneSketch.Diagnosis.Conflict.Basic

/-!
# Conflicts by collapse

Pairs of constraints that only hold when a line has no length: horizontal with vertical on one line,
parallel with perpendicular on one pair of lines. Together with constraints that ask the lines for a
length (`length_requirements`) they cannot hold at all (`degenerate_conflicts`).
-/

namespace PlaneSketch

variable {α : Type} [Scalar α]

namespace Conflict

/-- The constraints that ask a line for a length above the tolerance. -/
def lengthening (s : Sketch α) (active : List (Constraint α)) (tolerance : α) (line : LineId) :
    List (Constraint α) :=
  match s.line? line with
  | none => []
  | some l => active.filter fun c =>
    match c.requirement with
    | .length other value => other = line && tolerance < value
    | .distance p q value =>
      orderedPoints p q = orderedPoints l.start l.stop && tolerance < value
    | _ => false

/-- A conflict by collapse. Taking either constraint of the pair out resolves it; taking the ones
that ask for a length out does not. -/
def collapse (s : Sketch α) (subject : Subject) (members : List ConstraintId)
    (first second : ConstraintId) (severity : Severity) (explanation : String) : Conflict :=
  let newest := if first.raw ≤ second.raw then second else first
  { members, subject, severity, explanation
    category := .degenerateGeometry
    resolution := "Remove " ++ s.labelOf newest
    autoFixable := members.getLast? = some newest }

def labels (constraints : List (Constraint α)) : String :=
  ", ".intercalate (constraints.map (·.label))

/-- The conflict of a horizontal and a vertical constraint on one line, if both are there. -/
def ofCollapsedLine? (s : Sketch α) (active : List (Constraint α)) (tolerance : α) (line : LineId) :
    Option Conflict := do
  let h ← active.find? fun c => match c.requirement with
    | .horizontal l => l = line
    | _ => false
  let v ← active.find? fun c => match c.requirement with
    | .vertical l => l = line
    | _ => false
  let lengths := lengthening s active tolerance line
  let members := ascendingIds (h.id :: v.id :: lengths.map (·.id))
  let collapsed :=
    h.label ++ " and " ++ v.label ++ " on " ++ line.name ++ " collapse it to a single point"
  return if lengths.isEmpty then
    collapse s (.collapsedLine line) members h.id v.id .high collapsed
  else
    collapse s (.collapsedLine line) members h.id v.id .critical
      (collapsed ++ ", but " ++ labels lengths ++ " require a non-zero length")

/-- The conflict of a parallel constraint between two lines with a perpendicular one. -/
def ofCrossedLines (s : Sketch α) (active : List (Constraint α)) (tolerance : α)
    (parallel perpendicular : Constraint α) (k l : LineId) : Conflict :=
  let first := lengthening s active tolerance k
  let second := lengthening s active tolerance l
  let pair := [parallel.id, perpendicular.id]
  let crossed :=
    parallel.label ++ " and " ++ perpendicular.label ++ " on " ++ k.name ++ " and " ++ l.name ++
      " only hold if one of the lines has zero length"
  let conflict := fun members severity explanation =>
    collapse s (.crossedLines (orderedLines k l)) members parallel.id perpendicular.id severity
      explanation
  if first.isEmpty || second.isEmpty then conflict (ascendingIds pair) .high crossed
  else
    let lengths := first ++ second
    conflict (ascendingIds (pair ++ lengths.map (·.id))) .critical
      (crossed ++ ", but " ++ labels lengths ++ " require both to have length")

/-- The conflicts of one constraint, if it is a parallel one, with the perpendicular ones on the
same lines. -/
def withPerpendicular (s : Sketch α) (active : List (Constraint α)) (tolerance : α)
    (c : Constraint α) : List Conflict :=
  match c.requirement with
  | .parallel k l => active.filterMap fun other =>
    match other.requirement with
    | .perpendicular m n =>
      if orderedLines m n = orderedLines k l then
        some (ofCrossedLines s active tolerance c other k l)
      else none
    | _ => none
  | _ => []

def byCollapse (s : Sketch α) (active : List (Constraint α)) (tolerance : α) : List Conflict :=
  s.lines.filterMap (fun line => ofCollapsedLine? s active tolerance line.id)
    ++ active.flatMap (withPerpendicular s active tolerance)

end Conflict

end PlaneSketch
