import PlaneSketch.Diagnosis.Conflict.Basic

/-!
# Conflicting targets

Constraints that give one measured quantity different targets (`dimension_conflicts`, with
`target_of`). A length is the separation of the endpoints of its line, coincident points have the
separation zero, and a diameter is a radius twice.
-/

namespace PlaneSketch

variable {α : Type} [Scalar α]

open Scalar

namespace Quantity

/-- The rank of the kind and the ids, which decide the order of the quantities. -/
def key : Quantity → Nat × Nat × Nat
  | .separation p q => (0, p.raw, q.raw)
  | .horizontalGap p q => (1, p.raw, q.raw)
  | .verticalGap p q => (2, p.raw, q.raw)
  | .angle k l => (3, k.raw, l.raw)
  | .radius (.circle id) => (4, 0, id.raw)
  | .radius (.arc id) => (4, 1, id.raw)
  | .position p => (5, p.raw, 0)

/-- Kinds in their order, then ids. -/
def lt (a b : Quantity) : Bool :=
  let (k, x, y) := a.key
  let (l, u, v) := b.key
  k < l || k = l && (x < u || x = u && y < v)

def description : Quantity → String
  | .separation p q => "the distance between " ++ p.name ++ " and " ++ q.name
  | .horizontalGap p q => "the horizontal distance between " ++ p.name ++ " and " ++ q.name
  | .verticalGap p q => "the vertical distance between " ++ p.name ++ " and " ++ q.name
  | .angle k l => "the angle between " ++ k.name ++ " and " ++ l.name
  | .radius c => "the radius of " ++ c.name
  | .position p => "the position of " ++ p.name

end Quantity

inductive Target (α : Type) where
  | scalar (value : α)
  | position (p : Vec α)

namespace Target

/-- Whether two targets are the same up to a tolerance, relative once they exceed one. -/
def agrees (tolerance : α) : Target α → Target α → Bool
  | .scalar a, .scalar b =>
    abs (a - b) ≤ tolerance * larger (larger (abs a) (abs b)) 1.0
  | .position a, .position b =>
    (a - b).length ≤ tolerance * larger (larger a.length b.length) 1.0
  | _, _ => false

def text [NumberText α] : Target α → String
  | .scalar v => NumberText.shortest v
  | .position p => "(" ++ NumberText.shortest p.x ++ ", " ++ NumberText.shortest p.y ++ ")"

end Target

def Sketch.target? (s : Sketch α) : Requirement α → Option (Quantity × Target α)
  | .fixed p position => some (.position p, .position position)
  | .coincident p q =>
    let (a, b) := orderedPoints p q
    some (.separation a b, .scalar 0.0)
  | .length l value => do
    let line ← s.line? l
    let (a, b) := orderedPoints line.start line.stop
    return (.separation a b, .scalar value)
  | .distance p q value =>
    let (a, b) := orderedPoints p q
    some (.separation a b, .scalar value)
  | .horizontalDistance p q value =>
    let (a, b) := orderedPoints p q
    some (.horizontalGap a b, .scalar value)
  | .verticalDistance p q value =>
    let (a, b) := orderedPoints p q
    some (.verticalGap a b, .scalar value)
  | .angle k l value =>
    let (a, b) := orderedLines k l
    some (.angle a b, .scalar value)
  | .radius c value => some (.radius c, .scalar value)
  | .diameter c value => some (.radius c, .scalar (value / 2.0))
  | _ => none

namespace Conflict

/-- The constraints with a target for a quantity, with the target. -/
def targeting (s : Sketch α) (active : List (Constraint α)) (q : Quantity) :
    List (Constraint α × Target α) :=
  active.filterMap fun c =>
    match s.target? c.requirement with
    | some (other, target) => if other = q then some (c, target) else none
    | none => none

/-- The quantities that some constraints have targets for, in order. -/
def targetedQuantities (s : Sketch α) (active : List (Constraint α)) : List Quantity :=
  ascending Quantity.lt (active.filterMap fun c => (s.target? c.requirement).map (·.1))

def allAgree (tolerance : α) : List (Target α) → Bool
  | [] => true
  | first :: rest => (first :: rest).all (·.agrees tolerance first)

variable [NumberText α]

/-- The conflict about one quantity, if its targets do not agree. -/
def ofQuantity? (s : Sketch α) (active : List (Constraint α)) (tolerance : α) (q : Quantity) :
    Option Conflict :=
  let targets := targeting s active q
  if allAgree tolerance (targets.map (·.2)) then none
  else do
    let members := ascendingIds (targets.map (·.1.id))
    let newest ← members.getLast?
    let rest := targets.filter (·.1.id ≠ newest)
    let texts := targets.map fun (c, t) => c.label ++ " = " ++ t.text
    return {
      members
      subject := .quantity q
      category := match q with
        | .position _ => .fixedPositionConflict
        | _ => .conflictingDimensions
      severity := .critical
      explanation :=
        "Different targets for " ++ q.description ++ ": " ++ ", ".intercalate texts
      resolution := "Remove " ++ s.labelOf newest ++ " or change its value to match"
      autoFixable := allAgree tolerance (rest.map (·.2)) }

def betweenTargets (s : Sketch α) (active : List (Constraint α)) (tolerance : α) :
    List Conflict :=
  (targetedQuantities s active).filterMap (ofQuantity? s active tolerance)

end Conflict

end PlaneSketch
