import PlaneSketch.Sketch.Basic

/-!
# Editing a sketch

Changes to what is already there (`set_point_position`, `set_constraint_value`), and removal
(`remove_point`, `remove_curve`). A refused edit leaves the sketch as it was.

A removed point takes every line and curve that is built on it along; the constraints on removed
entities stay until they are purged (`purge_dangling`).
-/

namespace PlaneSketch

namespace Sketch

variable {α : Type}

/-! ### Entities -/

def editPoint? (s : Sketch α) (id : PointId) (f : Point α → Point α) : Option (Sketch α) :=
  (s.point? id).map fun _ => s.modifyEntity id.raw fun
    | .point p => .point (f p)
    | e => e

/-- Changes a line, if the id belongs to one. Its new endpoints are not checked. -/
def editLine? (s : Sketch α) (id : LineId) (f : Line → Line) : Option (Sketch α) :=
  (s.line? id).map fun _ => s.modifyEntity id.raw fun
    | .line l => .line (f l)
    | e => e

def setPosition (s : Sketch α) (id : PointId) (position : Vec α) :
    Except (Fault α) (Sketch α) :=
  match s.editPoint? id fun p => { p with position := position } with
  | some s => .ok s
  | none => .error (.entityNotFound (.point id))

/-! ### Constraints -/

def modifyConstraint (id : ConstraintId) (f : Constraint α → Constraint α) :
    List (Constraint α) → List (Constraint α)
  | [] => []
  | c :: cs => if c.id = id then f c :: cs else c :: modifyConstraint id f cs

def editConstraint? (s : Sketch α) (id : ConstraintId) (f : Constraint α → Constraint α) :
    Option (Sketch α) :=
  (s.constraint? id).map fun _ => { s with constraints := modifyConstraint id f s.constraints }

def editConstraint (s : Sketch α) (id : ConstraintId) (f : Constraint α → Constraint α) :
    Except (Fault α) (Sketch α) :=
  match s.editConstraint? id f with
  | some s => .ok s
  | none => .error (.constraintNotFound id)

def setEnabled (s : Sketch α) (id : ConstraintId) (enabled : Bool) :
    Except (Fault α) (Sketch α) :=
  s.editConstraint id fun c => { c with enabled := enabled }

def setDriving (s : Sketch α) (id : ConstraintId) (driving : Bool) :
    Except (Fault α) (Sketch α) :=
  s.editConstraint id fun c => { c with driving := driving }

def setValue (s : Sketch α) (id : ConstraintId) (value : α) : Except (Fault α) (Sketch α) :=
  match s.constraint? id with
  | none => .error (.constraintNotFound id)
  | some c =>
    match c.requirement.withValue? value with
    | none => .error (.notDimensional id)
    | some r => s.editConstraint id fun c => { c with requirement := r }

def removeConstraint? (s : Sketch α) (id : ConstraintId) : Option (Constraint α × Sketch α) :=
  (s.constraint? id).map fun c =>
    (c, { s with constraints := s.constraints.eraseP (·.id = id) })

/-! ### Removal -/

def noteRemoved (removed raws : List Nat) : List Nat :=
  raws.foldl (fun removed raw => if raw ∈ removed then removed else removed ++ [raw]) removed

def dependents (s : Sketch α) (id : PointId) : List Nat :=
  (s.entities.filter (id ∈ ·.basePoints)).map Entity.raw

def removePoint (s : Sketch α) (id : PointId) : Except (Fault α) (Point α × Sketch α) :=
  match s.point? id with
  | none => .error (.entityNotFound (.point id))
  | some p =>
    let gone := id.raw :: s.dependents id
    let s := { s with removed := noteRemoved s.removed gone }
    .ok (p, s.withEntities (s.entities.filter (·.raw ∉ gone)))

/-- Removes one entity. The points of a line or a curve stay. -/
def removeEntity (s : Sketch α) (e : EntityRef) : Except (Fault α) (Sketch α) :=
  match s.index[e.raw]? with
  | none => .error (.entityNotFound e)
  | some place =>
    if s.contains e then
      let s := { s with removed := noteRemoved s.removed [e.raw] }
      .ok (s.withEntities (s.entities.eraseIdx place))
    else .error (.entityNotFound e)

def removeLine (s : Sketch α) (id : LineId) : Except (Fault α) (Sketch α) :=
  s.removeEntity (.line id)

def removeCircle (s : Sketch α) (id : CircleId) : Except (Fault α) (Sketch α) :=
  s.removeEntity (.circle id)

def removeArc (s : Sketch α) (id : ArcId) : Except (Fault α) (Sketch α) :=
  s.removeEntity (.arc id)

def isDangling (s : Sketch α) (c : Constraint α) : Bool :=
  c.requirement.references.any (·.raw ∈ s.removed)

/-- Drops the constraints that name removed entities, and gives them in their order. -/
def purge (s : Sketch α) : List (Constraint α) × Sketch α :=
  let (dangling, kept) := s.constraints.partition s.isDangling
  (dangling, { s with constraints := kept })

end Sketch

end PlaneSketch
