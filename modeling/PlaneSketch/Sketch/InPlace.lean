import PlaneSketch.Sketch.Edit

/-!
# Editing in place

The edits that can be refused (`add_line`, `add_circle`, `add_arc`, the setters and the removals),
as they go about it on one sketch: look something up, take an id, check a number, write. A check
stops the edit where it stands, and nothing takes back what the steps before it have done.
-/

namespace PlaneSketch

variable {α β : Type}

/-- An edit in steps. A fault ends it and leaves the sketch as the steps before it made it. -/
abbrev Edit (α β : Type) := ExceptT (Fault α) (StateM (Sketch α)) β

namespace Edit

open Sketch

/-- The answer of an edit, and the sketch it leaves. -/
def on (edit : Edit α β) (s : Sketch α) : Except (Fault α) β × Sketch α :=
  edit.run.run s

/-! ### Steps -/

def require (e : EntityRef) : Edit α Unit := do
  unless (← get).contains e do throw (.entityNotFound e)

/-- Takes the next raw id of an entity. -/
def allocate : Edit α Nat := do
  let s ← get
  set { s with nextEntity := s.nextEntity + 1 }
  return s.nextEntity

/-- Puts an entity at the end and where it is into the index. -/
def pushEntity (e : Entity α) : Edit α Unit :=
  modify fun s => { s with
    index := s.index.insert e.raw s.entities.length
    entities := s.entities ++ [e] }

def reindex : Edit α Unit :=
  modify fun s => { s with index := indexOf s.entities }

/-- Remembers raw ids as removed. -/
def forget (raws : List Nat) : Edit α Unit :=
  modify fun s => { s with removed := noteRemoved s.removed raws }

def requireConstraint (id : ConstraintId) : Edit α (Constraint α) := do
  let some c := (← get).constraint? id | throw (.constraintNotFound id)
  return c

/-- Writes a constraint over the one with its id. -/
def store (c : Constraint α) : Edit α Unit :=
  modify fun s => { s with constraints := modifyConstraint c.id (fun _ => c) s.constraints }

/-! ### Edits -/

def setPosition (id : PointId) (position : Vec α) : Edit α Unit := do
  let some s := (← get).editPoint? id fun p => { p with position := position }
    | throw (.entityNotFound (.point id))
  set s

def setEnabled (id : ConstraintId) (enabled : Bool) : Edit α Unit := do
  let c ← requireConstraint id
  store { c with enabled := enabled }

def setDriving (id : ConstraintId) (driving : Bool) : Edit α Unit := do
  let c ← requireConstraint id
  store { c with driving := driving }

def setValue (id : ConstraintId) (value : α) : Edit α Unit := do
  let c ← requireConstraint id
  match c.requirement.withValue? value with
  | some r => store { c with requirement := r }
  | none => throw (.notDimensional id)

/-- Takes the first constraint with an id out, if there is one. -/
def removeConstraint (id : ConstraintId) : Edit α (Option (Constraint α)) := do
  let s ← get
  let some place := s.constraints.findIdx? (·.id = id) | return none
  set { s with constraints := s.constraints.eraseIdx place }
  return s.constraints[place]?

def removePoint (id : PointId) : Edit α (Point α) := do
  let some p := (← get).point? id | throw (.entityNotFound (.point id))
  let dependents := (← get).dependents id
  forget [id.raw]
  forget dependents
  modify fun s => { s with
    entities := s.entities.filter fun e => e.raw ≠ id.raw && e.raw ∉ dependents }
  reindex
  return p

def removeEntity (e : EntityRef) : Edit α Unit := do
  let some place := (← get).index[e.raw]? | throw (.entityNotFound e)
  require e
  modify fun s => { s with entities := s.entities.eraseIdx place }
  forget [e.raw]
  reindex

/-! ### Additions -/

variable [Scalar α]

def addLine (start stop : PointId) : Edit α LineId := do
  require (.point start)
  require (.point stop)
  let id : LineId := ⟨← allocate⟩
  pushEntity (.line ⟨id, start, stop, false⟩)
  return id

/-- The id is taken before the radius is looked at, so that a fault can name it. -/
def addCircle (center : PointId) (radius : α) : Edit α CircleId := do
  require (.point center)
  let id : CircleId := ⟨← allocate⟩
  ofExcept (checkRadius (.circle id) radius)
  pushEntity (.circle ⟨id, center, radius, false⟩)
  return id

def addArc (center : PointId) (radius startAngle stopAngle : α) : Edit α ArcId := do
  require (.point center)
  let id : ArcId := ⟨← allocate⟩
  ofExcept (checkRadius (.arc id) radius)
  ofExcept (checkFinite (.arc id) .startAngle startAngle)
  ofExcept (checkFinite (.arc id) .stopAngle stopAngle)
  pushEntity (.arc ⟨id, center, radius, startAngle, stopAngle, false⟩)
  return id

def addConstraint (r : Requirement α) : Edit α ConstraintId := do
  let s ← get
  let id : ConstraintId := ⟨s.nextConstraint⟩
  set { s with nextConstraint := s.nextConstraint + 1 }
  modify fun s => { s with constraints := s.constraints ++ [⟨id, r, true, true, 1.0⟩] }
  return id

def fixPoint (id : PointId) : Edit α ConstraintId := do
  let some position := (← get).position? id | throw (.entityNotFound (.point id))
  addConstraint (.fixed id position)

end Edit

end PlaneSketch
