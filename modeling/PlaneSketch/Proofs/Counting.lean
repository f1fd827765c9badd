import Mathlib.Algebra.GroupWithZero.Nat
import PlaneSketch.Proofs.References
import PlaneSketch.Proofs.View

/-!
# The count of degrees of freedom

Which numbers of a sketch are counted (`DofAnalysis`), said without the order in which they are
collected: those of the entities that take part in the drawing, except the coordinates of held
points. Helper geometry takes part when an active constraint names it, and a helper point also when
it carries a line or a curve that takes part. Each number is listed once, so the degrees of freedom
are two for each counted point, one for each circle and three for each arc, without what the
constraints take.
-/

namespace PlaneSketch

variable {α : Type}

namespace Sketch

variable {s : Sketch α}

/-! ### Taking part -/

/-- An active constraint names the raw id, as an entity of whatever kind. -/
def IsNamed (s : Sketch α) (raw : Nat) : Prop :=
  ∃ c ∈ s.constraints, (c.enabled = true ∧ c.driving = true) ∧
    ∃ e ∈ c.requirement.references, e.raw = raw

/-- The entity is drawn, or a constraint is about it. -/
def TakesPart (s : Sketch α) (e : Entity α) : Prop :=
  e.isConstruction = false ∨ s.IsNamed e.raw

/-- A line, a circle or an arc that takes part is built on the point. -/
def IsCarrier (s : Sketch α) (id : PointId) : Prop :=
  ∃ e ∈ s.entities, s.TakesPart e ∧ id ∈ e.basePoints

instance (s : Sketch α) : DecidablePred s.IsNamed := fun raw =>
  inferInstanceAs (Decidable (∃ c ∈ s.constraints, (c.enabled = true ∧ c.driving = true) ∧
    ∃ e ∈ c.requirement.references, e.raw = raw))

instance (s : Sketch α) : DecidablePred s.TakesPart := fun e =>
  inferInstanceAs (Decidable (e.isConstruction = false ∨ s.IsNamed e.raw))

instance (s : Sketch α) : DecidablePred s.IsCarrier := fun id =>
  inferInstanceAs (Decidable (∃ e ∈ s.entities, s.TakesPart e ∧ id ∈ e.basePoints))

/-- The entity is a point whose coordinates are counted. -/
def CountsPoint (s : Sketch α) : Entity α → Prop
  | .point p => s.pins.holds p.id = false ∧ (s.TakesPart (.point p) ∨ s.IsCarrier p.id)
  | _ => False

/-- The entity is a circle whose radius is counted. -/
def CountsCircle (s : Sketch α) : Entity α → Prop
  | .circle c => s.TakesPart (.circle c)
  | _ => False

/-- The entity is an arc whose radius and angles are counted. -/
def CountsArc (s : Sketch α) : Entity α → Prop
  | .arc a => s.TakesPart (.arc a)
  | _ => False

instance (s : Sketch α) : DecidablePred s.CountsPoint
  | .point p => inferInstanceAs (Decidable
    (s.pins.holds p.id = false ∧ (s.TakesPart (.point p) ∨ s.IsCarrier p.id)))
  | .line _ | .circle _ | .arc _ => inferInstanceAs (Decidable False)

instance (s : Sketch α) : DecidablePred s.CountsCircle
  | .circle c => inferInstanceAs (Decidable (s.TakesPart (.circle c)))
  | .point _ | .line _ | .arc _ => inferInstanceAs (Decidable False)

instance (s : Sketch α) : DecidablePred s.CountsArc
  | .arc a => inferInstanceAs (Decidable (s.TakesPart (.arc a)))
  | .point _ | .line _ | .circle _ => inferInstanceAs (Decidable False)

theorem isConstrained_iff {raw : Nat} : s.isConstrained raw = true ↔ s.IsNamed raw := by
  simp only [isConstrained, active, Constraint.isActive, IsNamed, List.any_eq_true,
    List.mem_filter, Bool.and_eq_true, decide_eq_true_eq, and_assoc]

theorem isLive_iff {e : Entity α} : s.isLive e = true ↔ s.TakesPart e := by
  simp only [isLive, TakesPart, Bool.or_eq_true, Bool.not_eq_true', isConstrained_iff]

theorem carriesCurve_iff {id : PointId} : s.carriesCurve id = true ↔ s.IsCarrier id := by
  simp only [carriesCurve, IsCarrier, List.any_eq_true, Bool.and_eq_true, isLive_iff,
    decide_eq_true_eq]

/-! ### The listing -/

theorem pointSlots_eq (s : Sketch α) (e : Entity α) (place : Nat) : s.pointSlots s.pins (e, place) =
    if s.CountsPoint e then [.pointX place, .pointY place] else [] := by
  cases e with
  | point p =>
    refine if_congr ?_ rfl rfl
    rw [Bool.and_eq_true, Bool.not_eq_true', Bool.or_eq_true, isLive_iff, carriesCurve_iff]
    exact Iff.rfl
  | line | circle | arc => rfl

theorem circleSlots_eq (s : Sketch α) (e : Entity α) (place : Nat) : s.circleSlots (e, place) =
    if s.CountsCircle e then [.circleRadius place] else [] := by
  cases e with
  | circle c => exact if_congr isLive_iff rfl rfl
  | point | line | arc => rfl

theorem arcSlots_eq (s : Sketch α) (e : Entity α) (place : Nat) : s.arcSlots (e, place) =
    if s.CountsArc e then [.arcRadius place, .arcStart place, .arcStop place] else [] := by
  cases e with
  | arc a => exact if_congr isLive_iff rfl rfl
  | point | line | circle => rfl

/-- What is collected from the entities that count is collected from their places. -/
theorem flatMap_zipIdx_eq_flatMap_findIdxs {f : Entity α × Nat → List Slot}
    {counts : Entity α → Prop} [DecidablePred counts] {listed : Nat → List Slot}
    (hf : ∀ e place, f (e, place) = if counts e then listed place else [])
    (entities : List (Entity α)) (first : Nat) :
    (entities.zipIdx first).flatMap f = (entities.findIdxs (counts ·) first).flatMap listed := by
  induction entities generalizing first with
  | nil => rfl
  | cons e rest ih =>
    rw [List.zipIdx_cons, List.flatMap_cons, hf, ih, List.findIdxs_cons]
    by_cases he : counts e
    · rw [if_pos he, if_pos (decide_eq_true he), List.flatMap_cons]
    · rw [if_neg he, if_neg (by simpa using he), List.nil_append]

/-- The variables are the coordinates of the points that count, then the radii of the circles, then
the radius and both angles of each arc, each in the order of the sketch. -/
theorem WellFormed.slots_eq_counted (hs : s.WellFormed) :
    s.slots =
      (s.entities.findIdxs (s.CountsPoint ·)).flatMap (fun place => [.pointX place, .pointY place])
      ++ (s.entities.findIdxs (s.CountsCircle ·)).flatMap (fun place => [.circleRadius place])
      ++ (s.entities.findIdxs (s.CountsArc ·)).flatMap
        (fun place => [.arcRadius place, .arcStart place, .arcStop place]) := by
  have hpoints := flatMap_zipIdx_eq_flatMap_findIdxs s.pointSlots_eq s.entities 0
  have hcircles := flatMap_zipIdx_eq_flatMap_findIdxs s.circleSlots_eq s.entities 0
  have harcs := flatMap_zipIdx_eq_flatMap_findIdxs s.arcSlots_eq s.entities 0
  simp only [slots, hs.firstVisits_eq, hpoints, hcircles, harcs]

/-- The number of variables. -/
theorem WellFormed.length_slots (hs : s.WellFormed) :
    s.slots.length = 2 * s.entities.countP (s.CountsPoint ·) +
      s.entities.countP (s.CountsCircle ·) + 3 * s.entities.countP (s.CountsArc ·) := by
  have hlength (n : Nat) {listed : Nat → List Slot} (hlisted : ∀ place, (listed place).length = n)
      (places : List Nat) : (places.flatMap listed).length = n * places.length := by
    induction places with
    | nil => rfl
    | cons place rest ih =>
      rw [List.flatMap_cons, List.length_append, hlisted, ih, List.length_cons, Nat.mul_succ,
        Nat.add_comm]
  rw [hs.slots_eq_counted, List.length_append, List.length_append, hlength 2 fun _ => rfl,
    hlength 1 fun _ => rfl, hlength 3 fun _ => rfl, Nat.one_mul]
  simp only [List.length_findIdxs]

/-! ### Held points -/

theorem Pins.mem_keys_foldl_hold {pins : Pins α} {held : List (PointId × Vec α)} {id : PointId} :
    id ∈ (held.foldl (fun pins (id, position) => pins.hold id position) pins).map Prod.fst ↔
      id ∈ pins.map Prod.fst ∨ id ∈ held.map Prod.fst := by
  induction held generalizing pins with
  | nil => simp
  | cons pin rest ih =>
    rw [List.foldl_cons, ih, keys_hold, List.map_cons, List.mem_cons]
    split
    next hin =>
      constructor
      · rintro (hold | hrest)
        · exact Or.inl hold
        · exact Or.inr (Or.inr hrest)
      · rintro (hold | rfl | hrest)
        · exact Or.inl hold
        · exact Or.inl hin
        · exact Or.inr hrest
    next => rw [List.mem_append, List.mem_singleton, or_assoc]

theorem heldBy?_eq_some_iff {c : Constraint α} {id : PointId} {position : Vec α} :
    s.heldBy? c = some (id, position) ↔ c.requirement = .fixed id position ∧
      (c.enabled = true ∧ c.driving = true) ∧ ∃ p, s.point? id = some p ∧ p.fixed = false := by
  constructor
  · intro h
    obtain ⟨p, hp, hfree⟩ := not_fixed_of_heldBy? h
    unfold heldBy? at h
    split at h
    next hrequirement =>
      split at h
      next hcond =>
        cases h
        rw [Bool.and_eq_true, Constraint.isActive, Bool.and_eq_true] at hcond
        exact ⟨hrequirement, hcond.1, p, hp, hfree⟩
      next => cases h
    next => cases h
  · rintro ⟨hrequirement, ⟨henabled, hdriving⟩, p, hp, hfree⟩
    simp [heldBy?, hrequirement, Constraint.isActive, henabled, hdriving, hp, hfree]

/-- A point is held if it is fixed or an active constraint fixes it. -/
theorem WellFormed.holds_pins_iff (hs : s.WellFormed) {p : Point α} (hp : .point p ∈ s.entities) :
    s.pins.holds p.id = true ↔ p.fixed = true ∨ ∃ c ∈ s.constraints,
      (c.enabled = true ∧ c.driving = true) ∧ ∃ position, c.requirement = .fixed p.id position := by
  have hpoint : s.point? p.id = some p := hs.point?_eq_some_iff.mpr ⟨hp, rfl⟩
  constructor
  · intro hholds
    obtain ⟨⟨_, position⟩, hpin, rfl⟩ := List.mem_map.mp ((Pins.holds_iff ..).mp hholds)
    rcases Pins.mem_foldl_hold hpin with hfixed | hheld
    · left
      obtain ⟨q, hq, heq⟩ := List.mem_map.mp hfixed
      obtain ⟨hq, hqfixed⟩ := List.mem_filter.mp hq
      have hq : s.point? p.id = some q :=
        hs.point?_eq_some_iff.mpr ⟨mem_points_iff.mp hq, (Prod.mk.inj heq).1⟩
      obtain rfl := Option.some.inj (hq.symm.trans hpoint)
      exact hqfixed
    · right
      obtain ⟨c, hc, hheld⟩ := List.mem_filterMap.mp hheld
      obtain ⟨hrequirement, hactive, -⟩ := heldBy?_eq_some_iff.mp hheld
      exact ⟨c, hc, hactive, position, hrequirement⟩
  · intro h
    cases hfixed : p.fixed with
    | true =>
      exact (Pins.holds_iff ..).mpr (List.mem_map_of_mem (f := Prod.fst)
        (hs.mem_pins_of_fixed hp hfixed))
    | false =>
      rw [hfixed] at h
      obtain ⟨c, hc, hactive, position, hrequirement⟩ := h.resolve_left nofun
      have hheld := heldBy?_eq_some_iff.mpr ⟨hrequirement, hactive, p, hpoint, hfixed⟩
      refine (Pins.holds_iff ..).mpr (Pins.mem_keys_foldl_hold.mpr (Or.inr ?_))
      exact List.mem_map_of_mem (f := Prod.fst) (List.mem_filterMap.mpr ⟨c, hc, hheld⟩)

end Sketch

/-! ### The count -/

open Sketch

/-- In every sketch that can be reached the variables are the coordinates of the points that count,
the radii of the circles and the radii and angles of the arcs, in this order, each once; points are
held by being fixed or by an active constraint. So the degrees of freedom are two for each point
that counts, one for each circle and three for each arc, without what the active constraints take
that hold no point, and there are too many constraints exactly when that is negative. -/
theorem Operation.freedom_run_empty [Scalar α] (ops : List (Operation α)) (name : String) :
    let s := run ops (empty name)
    let points := s.entities.findIdxs (s.CountsPoint ·)
    let circles := s.entities.findIdxs (s.CountsCircle ·)
    let arcs := s.entities.findIdxs (s.CountsArc ·)
    s.slots = points.flatMap (fun place => [.pointX place, .pointY place]) ++
      circles.flatMap (fun place => [.circleRadius place]) ++
      arcs.flatMap (fun place => [.arcRadius place, .arcStart place, .arcStop place]) ∧
    s.slots.Nodup ∧
    (∀ p, .point p ∈ s.entities → (s.pins.holds p.id = true ↔ p.fixed = true ∨
      ∃ c ∈ s.constraints, (c.enabled = true ∧ c.driving = true) ∧
        ∃ position, c.requirement = .fixed p.id position)) ∧
    s.freedom.dof = 2 * points.length + circles.length + 3 * arcs.length -
      ((s.constraints.filter fun c => c.enabled && c.driving && !c.requirement.isFixed).map
        (·.requirement.dofWeight)).sum ∧
    (s.freedom.isOverConstrained = true ↔ s.freedom.dof < 0) := by
  intro s points circles arcs
  have hs : s.WellFormed := wellFormed_run_empty ops name
  refine ⟨hs.slots_eq_counted, s.slots_nodup, fun p hp => hs.holds_pins_iff hp, ?_, ?_⟩
  · have hunknowns : s.slots.length = 2 * points.length + circles.length + 3 * arcs.length := by
      simp only [hs.length_slots, points, circles, arcs, List.length_findIdxs]
    have hequations : s.freedom.equations = ((s.constraints.filter fun c =>
        c.enabled && c.driving && !c.requirement.isFixed).map (·.requirement.dofWeight)).sum := rfl
    show (s.slots.length : Int) - s.freedom.equations = _
    rw [hequations]
    omega
  · show decide (s.freedom.unknowns < s.freedom.equations) = true ↔
      (s.freedom.unknowns : Int) - s.freedom.equations < 0
    rw [decide_eq_true_eq]
    omega

/-- A helper point counts as the center of a drawn circle: two coordinates and a radius. -/
example : (Operation.run [.addPoint ⟨0.0, 0.0⟩, .addCircle ⟨0⟩ 2.0,
    .editPoint ⟨0⟩ fun p => { p with construction := true }]
      (empty "" : Sketch Float)).freedom.dof = 3 := by
  decide +kernel

end PlaneSketch
