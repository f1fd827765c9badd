import PlaneSketch.Proofs.Frame

/-!
# Finite numbers and positive radii

A solve looks at the numbers of a sketch before it starts (`check_finite`) and at the errors of the
active constraints when it ends, but not at the values that it writes. So a success keeps the
numbers finite and the radii positive exactly when the minimizer's last values are: the numbers that
are not written were finite before, and so are the places at which valid constraints hold points.
-/

namespace PlaneSketch

variable {α σ : Type} [Scalar α]

open Scalar

/-! ### Checks and numbers -/

def Slot.isRadius : Slot → Bool
  | .circleRadius _ | .arcRadius _ => true
  | _ => false

/-- Whether a value may stand in a slot: it is finite, and positive if it is a radius. -/
def Slot.admits (slot : Slot) (v : α) : Bool := isFinite v && (!slot.isRadius || 0.0 < v)

theorem Slot.admits_iff (slot : Slot) (v : α) :
    slot.admits v = true ↔ isFinite v = true ∧ (slot.isRadius = true → 0.0 < v) := by
  unfold admits
  cases slot.isRadius <;> simp

namespace Sketch

/-- All circles and arcs have positive radii. -/
def RadiiPositive (s : Sketch α) : Prop :=
  (∀ circle ∈ s.circles, 0.0 < circle.radius) ∧ ∀ arc ∈ s.arcs, 0.0 < arc.radius

instance (s : Sketch α) : Decidable s.RadiiPositive :=
  inferInstanceAs (Decidable (_ ∧ _))

theorem radiiPositive_iff (s : Sketch α) :
    s.RadiiPositive ↔ ∀ slot v, slot.isRadius = true → s.number? slot = some v → 0.0 < v := by
  constructor
  · rintro ⟨hcircles, harcs⟩ slot v hradius hv
    obtain ⟨e, he, hread⟩ := Option.bind_eq_some_iff.mp hv
    have hmem := List.mem_of_getElem? he
    cases slot <;> cases e <;> simp only [Slot.isRadius, Slot.read?, reduceCtorEq] at hradius hread
    case circleRadius.circle circle =>
      exact Option.some.inj hread ▸ hcircles circle (List.mem_filterMap.mpr ⟨_, hmem, rfl⟩)
    case arcRadius.arc arc =>
      exact Option.some.inj hread ▸ harcs arc (List.mem_filterMap.mpr ⟨_, hmem, rfl⟩)
  · intro h
    constructor
    · intro circle hcircle
      obtain ⟨e, hmem, he⟩ := List.mem_filterMap.mp hcircle
      obtain ⟨place, hplace⟩ := List.getElem?_of_mem hmem
      cases e <;> cases he
      exact h (.circleRadius place) _ rfl (Option.bind_eq_some_iff.mpr ⟨_, hplace, rfl⟩)
    · intro arc harc
      obtain ⟨e, hmem, he⟩ := List.mem_filterMap.mp harc
      obtain ⟨place, hplace⟩ := List.getElem?_of_mem hmem
      cases e <;> cases he
      exact h (.arcRadius place) _ rfl (Option.bind_eq_some_iff.mpr ⟨_, hplace, rfl⟩)

theorem checkFinite_eq_ok_iff (e : EntityRef) (quality : Quality) (v : α) :
    checkFinite e quality v = .ok () ↔ isFinite v = true := by
  unfold checkFinite
  split
  next h => exact iff_of_true rfl h
  next h => exact iff_of_false nofun h

theorem bind_eq_ok_iff {ε : Type} (first second : Except ε Unit) :
    (do first; second) = .ok () ↔ first = .ok () ∧ second = .ok () := by
  cases first with
  | error => exact iff_of_false nofun fun h => nomatch h.1
  | ok => exact ⟨fun h => ⟨rfl, h⟩, fun h => h.2⟩

theorem checkEntity_eq_ok_iff (e : Entity α) (place : Nat) :
    checkEntity e = .ok () ↔ ∀ slot : Slot, slot.place = place →
      ∀ v, slot.read? e = some v → isFinite v = true := by
  cases e with
  | point p =>
    show (do checkFinite _ _ p.position.x; checkFinite _ _ p.position.y) = .ok () ↔ _
    rw [bind_eq_ok_iff, checkFinite_eq_ok_iff, checkFinite_eq_ok_iff]
    constructor
    · rintro ⟨hx, hy⟩ slot - v hread
      cases slot <;> cases hread
      · exact hx
      · exact hy
    · intro h
      exact ⟨h (.pointX place) rfl _ rfl, h (.pointY place) rfl _ rfl⟩
  | line l =>
    refine iff_of_true rfl ?_
    intro slot _ v hread
    cases slot <;> cases hread
  | circle c =>
    show checkFinite _ _ c.radius = .ok () ↔ _
    rw [checkFinite_eq_ok_iff]
    constructor
    · intro hr slot _ v hread
      cases slot <;> cases hread
      exact hr
    · intro h
      exact h (.circleRadius place) rfl _ rfl
  | arc a =>
    show (do
      checkFinite _ _ a.radius
      (do checkFinite _ _ a.startAngle; checkFinite _ _ a.stopAngle)) = .ok () ↔ _
    rw [bind_eq_ok_iff, bind_eq_ok_iff, checkFinite_eq_ok_iff, checkFinite_eq_ok_iff,
      checkFinite_eq_ok_iff]
    constructor
    · rintro ⟨hr, hstart, hstop⟩ slot - v hread
      cases slot <;> cases hread
      · exact hr
      · exact hstart
      · exact hstop
    · intro h
      exact ⟨h (.arcRadius place) rfl _ rfl, h (.arcStart place) rfl _ rfl,
        h (.arcStop place) rfl _ rfl⟩

theorem forM_eq_ok_iff {β ε : Type} (check : β → Except ε Unit) (xs : List β) :
    xs.forM check = .ok () ↔ ∀ x ∈ xs, check x = .ok () := by
  induction xs with
  | nil => exact iff_of_true rfl nofun
  | cons x rest ih =>
    show (do check x; rest.forM check) = .ok () ↔ _
    rw [bind_eq_ok_iff, ih, List.forall_mem_cons]

/-- The numbers that are checked are those in the slots. -/
theorem checkNumbers_eq_ok_iff (s : Sketch α) :
    s.checkNumbers = .ok () ↔ ∀ slot v, s.number? slot = some v → isFinite v = true := by
  unfold checkNumbers
  rw [forM_eq_ok_iff]
  constructor
  · intro h slot v hv
    obtain ⟨e, he, hread⟩ := Option.bind_eq_some_iff.mp hv
    exact (checkEntity_eq_ok_iff e slot.place).mp (h e (List.mem_of_getElem? he)) slot rfl v hread
  · intro h e hmem
    obtain ⟨place, hplace⟩ := List.getElem?_of_mem hmem
    rw [checkEntity_eq_ok_iff e place]
    rintro slot rfl v hread
    exact h slot v (Option.bind_eq_some_iff.mpr ⟨e, hplace, hread⟩)

/-- A sketch passes the checks when every number of it may stand in its slot. -/
theorem checks_iff (s : Sketch α) :
    s.checkNumbers = .ok () ∧ s.RadiiPositive ↔
      ∀ slot v, s.number? slot = some v → slot.admits v = true := by
  rw [checkNumbers_eq_ok_iff, radiiPositive_iff]
  simp only [Slot.admits_iff]
  constructor
  · rintro ⟨hfinite, hpositive⟩ slot v hv
    exact ⟨hfinite slot v hv, fun hradius => hpositive slot v hradius hv⟩
  · intro h
    exact ⟨fun slot v hv => (h slot v hv).1, fun slot v hradius hv => (h slot v hv).2 hradius⟩

/-! ### Held positions -/

/-- The defects that stop a solve are those of the active constraints. -/
theorem WellFormed.invalidActive_eq_nil_iff {s : Sketch α} (h : s.WellFormed) :
    s.invalidActive = [] ↔ ∀ c ∈ s.active, c.defect? s = none := by
  constructor
  · intro hempty c hc
    obtain ⟨hmem, hactive⟩ := List.mem_filter.mp hc
    by_contra hdefect
    obtain ⟨d, hd⟩ := Option.ne_none_iff_exists'.mp hdefect
    have henabled : c.enabled = true := by
      unfold Constraint.isActive at hactive
      rw [Bool.and_eq_true] at hactive
      exact hactive.1
    have hinvalid : (c.id, d) ∈ s.invalidActive := by
      refine List.mem_filter.mpr ⟨List.mem_filterMap.mpr ⟨c, hmem, ?_⟩, ?_⟩
      · rw [if_pos henabled, hd]
        rfl
      · simp only [h.constraint?_of_mem hmem, Option.any_some, hactive]
    rw [hempty] at hinvalid
    cases hinvalid
  · intro hfits
    rw [List.eq_nil_iff_forall_not_mem]
    rintro ⟨id, d⟩ hinvalid
    obtain ⟨hdefect, hactive⟩ := List.mem_filter.mp hinvalid
    obtain ⟨c, hmem, hc⟩ := List.mem_filterMap.mp hdefect
    split at hc
    next =>
      obtain ⟨_, hd, hid⟩ := Option.map_eq_some_iff.mp hc
      obtain ⟨rfl, rfl⟩ := Prod.mk.inj hid
      simp only [h.constraint?_of_mem hmem, Option.any_some] at hactive
      rw [hfits c (List.mem_filter.mpr ⟨hmem, hactive⟩)] at hd
      cases hd
    next => cases hc

omit [Scalar α] in
theorem equations_le_iff (f : Freedom) :
    f.equations ≤ f.unknowns ↔ f.isOverConstrained = false := by
  rw [Freedom.isOverConstrained, decide_eq_false_iff_not, Nat.not_lt]

theorem WellFormed.obstacle?_eq_none_iff {s : Sketch α} (h : s.WellFormed) :
    s.obstacle? = none ↔
      (∀ c ∈ s.active, c.defect? s = none) ∧ s.freedom.equations ≤ s.freedom.unknowns := by
  rw [← h.invalidActive_eq_nil_iff, equations_le_iff, obstacle?]
  cases s.invalidActive with
  | nil => cases s.freedom.isOverConstrained <;> simp
  | cons => simp

/-- Active constraints of a drawing that can be tried fit it. -/
theorem WellFormed.defect?_of_obstacle? {s : Sketch α} (h : s.WellFormed)
    (hobstacle : s.obstacle? = none) {c : Constraint α} (hc : c ∈ s.constraints)
    (hactive : c.isActive = true) : c.defect? s = none :=
  (h.obstacle?_eq_none_iff.mp hobstacle).1 c (List.mem_filter.mpr ⟨hc, hactive⟩)

theorem isFinite_of_defect? {s : Sketch α} {c : Constraint α} (h : c.defect? s = none)
    {id : PointId} {position : Vec α} (hreq : c.requirement = .fixed id position) :
    position.isFinite = true := by
  unfold Constraint.defect? at h
  rw [hreq] at h
  split at h
  · cases h
  · split at h
    · cases h
    · cases hfinite : position.isFinite with
      | true => rfl
      | false =>
        have hposition : (Requirement.fixed id position).positionDefect? =
            some .positionNotFinite := by
          simp only [Requirement.positionDefect?, hfinite, Bool.false_eq_true, if_false]
        rw [hposition] at h
        cases h

/-- A drawing that can be tried holds its points at finite positions. -/
theorem WellFormed.isFinite_of_mem_pins {s : Sketch α} (h : s.WellFormed)
    (hnumbers : s.checkNumbers = .ok ()) (hobstacle : s.obstacle? = none) {id : PointId}
    {position : Vec α} (hin : (id, position) ∈ s.pins) : position.isFinite = true := by
  rcases mem_pins hin with ⟨p, hp, -, rfl⟩ | ⟨c, hc, hactive, hreq, -⟩
  · obtain ⟨place, hplace⟩ := List.getElem?_of_mem hp
    have hfinite := (checkNumbers_eq_ok_iff s).mp hnumbers
    have hx := hfinite (.pointX place) _ (Option.bind_eq_some_iff.mpr ⟨_, hplace, rfl⟩)
    have hy := hfinite (.pointY place) _ (Option.bind_eq_some_iff.mpr ⟨_, hplace, rfl⟩)
    exact Bool.and_eq_true_iff.mpr ⟨hx, hy⟩
  · exact isFinite_of_defect? (h.defect?_of_obstacle? hobstacle hc hactive) hreq

omit [Scalar α] in
/-- A held point carries the coordinates of the place where it is held. -/
theorem WellFormed.number?_pinned_of_isHeld {s : Sketch α} (h : s.WellFormed) {slot : Slot}
    (hheld : s.isHeld slot = true) {v : α} (hv : s.pinned.number? slot = some v) :
    slot.isRadius = false ∧
      ∃ id position, (id, position) ∈ s.pins ∧ (v = position.x ∨ v = position.y) := by
  obtain ⟨e, he, hread⟩ := Option.bind_eq_some_iff.mp hv
  have houtline : (s.pinned.entities[slot.place]?).map Entity.outline =
      (s.entities[slot.place]?).map Entity.outline := by
    have hentities := congrArg Outline.entities s.outline_pinned
    simpa only [outline, List.getElem?_map] using congrArg (·[slot.place]?) hentities
  unfold isHeld at hheld
  split at hheld
  next p hp =>
    rw [he, hp] at houtline
    have hpoint : e.outline = (Entity.point p).outline := Option.some.inj houtline
    obtain ⟨⟨id, position⟩, hin, hid⟩ := List.mem_map.mp ((Pins.holds_iff _ _).mp hheld)
    have hid' : id = p.id := hid
    subst hid'
    cases e with
    | point q =>
      have hq : q.id = p.id := (Point.mk.inj (Entity.point.inj hpoint)).1
      have hplaced : s.pinned.position? p.id = some position := h.position?_pinned hin
      have hpinned : s.pinned.WellFormed := h.of_outline s.outline_pinned.symm
      have hsame : s.pinned.position? p.id = some q.position :=
        hpinned.position?_eq_some_iff.mpr ⟨q, List.mem_of_getElem? he, hq, rfl⟩
      obtain rfl : position = q.position := Option.some.inj (hplaced.symm.trans hsame)
      cases slot <;> cases hread
      · exact ⟨rfl, p.id, _, hin, Or.inl rfl⟩
      · exact ⟨rfl, p.id, _, hin, Or.inr rfl⟩
    | line | circle | arc => cases hpoint
  next => cases hheld

end Sketch

/-! ### What a success leaves in the numbers -/

omit [Scalar α] in
/-- A written variable holds the last value for it. -/
theorem Sketch.number?_finished_of_mem {s : Sketch α} {rounds : List (Round α)} {last : Round α}
    (hlast : rounds.getLast? = some last) (hlength : last.run.x.length = s.slots.length)
    {slot : Slot} {v : α} (h : (slot, v) ∈ s.slots.zip last.run.x) :
    (s.finished rounds).number? slot = some v := by
  have hslot := (List.of_mem_zip h).1
  unfold finished
  rw [hlast]
  exact s.number?_withValuesAt_of_mem s.slots_nodup hlength (number?_isSome_of_mem_slots hslot) h

omit [Scalar α] in
/-- Where a number of a solved sketch comes from: the last round's values, or what was there. -/
theorem Sketch.number?_solved {s : Sketch α} {rounds : List (Round α)}
    (hlength : ∀ last, rounds.getLast? = some last → last.run.x.length = s.slots.length)
    {slot : Slot} {v : α} (hv : (s.pinned.finished rounds).number? slot = some v) :
    (∃ last, rounds.getLast? = some last ∧ (slot, v) ∈ s.slots.zip last.run.x) ∨
      s.pinned.number? slot = some v := by
  by_cases hslot : slot ∈ s.slots
  · cases hlast : rounds.getLast? with
    | none =>
      right
      unfold finished at hv
      rwa [hlast] at hv
    | some last =>
      left
      have hx := hlength last hlast
      have hzip : slot ∈ (s.slots.zip last.run.x).map Prod.fst := by
        rw [List.map_fst_zip (Nat.le_of_eq hx.symm)]
        exact hslot
      obtain ⟨⟨_, w⟩, hw, rfl⟩ := List.mem_map.mp hzip
      rw [← s.slots_pinned] at hx hw
      rw [number?_finished_of_mem hlast hx hw] at hv
      obtain rfl := Option.some.inj hv
      rw [s.slots_pinned] at hw
      exact ⟨last, rfl, hw⟩
  · right
    rw [← s.slots_pinned] at hslot
    rwa [s.pinned.number?_finished_of_not_mem rounds hslot] at hv

/-- The numbers that are in place before the first round are as good as those of the drawing. -/
theorem Sketch.WellFormed.admits_pinned {s : Sketch α} (h : s.WellFormed)
    (hnumbers : s.checkNumbers = .ok ()) (hradii : s.RadiiPositive) (hobstacle : s.obstacle? = none)
    {slot : Slot} {v : α} (hv : s.pinned.number? slot = some v) : slot.admits v = true := by
  cases hheld : s.isHeld slot with
  | true =>
    obtain ⟨hradius, id, position, hin, hposition⟩ := h.number?_pinned_of_isHeld hheld hv
    have hfinite := h.isFinite_of_mem_pins hnumbers hobstacle hin
    rw [Vec.isFinite, Bool.and_eq_true] at hfinite
    rw [Slot.admits_iff, hradius]
    rcases hposition with rfl | rfl
    · exact ⟨hfinite.1, nofun⟩
    · exact ⟨hfinite.2, nofun⟩
  | false =>
    rw [h.number?_pinned hheld] at hv
    exact (checks_iff s).mp ⟨hnumbers, hradii⟩ slot v hv

/-- A success leaves finite numbers and positive radii exactly when the last values of the minimizer
are finite, and positive for radii. Nothing else in the sketch can spoil it, and nothing in the
solve makes up for it. -/
theorem Sketch.solve_success_checks_iff {s : Sketch α} (hs : s.WellFormed)
    (hradii : s.RadiiPositive) {m : Minimizer α σ} (hm : m.KeepsLength) {c : SolveConfig α}
    {state : σ} {r : SolveResult α} (h : (s.solveFrom m c state).outcome = .ok r)
    (hr : r.isSuccess = true) :
    ((s.solveFrom m c state).sketch.checkNumbers = .ok () ∧
      (s.solveFrom m c state).sketch.RadiiPositive) ↔
    ∀ last, (s.solveFrom m c state).rounds.getLast? = some last →
      ∀ slot v, (slot, v) ∈ s.purge.2.slots.zip last.run.x → slot.admits v = true := by
  have hsuccess := solve_success h hr
  have hlength := hsuccess.length hm
  rw [hsuccess.sketch, checks_iff]
  constructor
  · intro hgood last hlast slot v hin
    have hx := hlength last hlast
    rw [← slots_pinned] at hx hin
    exact hgood slot v (number?_finished_of_mem hlast hx hin)
  · intro hgood slot v hv
    rcases number?_solved hlength hv with ⟨last, hlast, hin⟩ | hplaced
    · exact hgood last hlast slot v hin
    · have hpurged := s.evolves_purge.wellFormed hs
      exact hpurged.admits_pinned hsuccess.numbers hradii hsuccess.obstacle hplaced

theorem Sketch.solve_success_checks_slanted :
    (slanted.solveFrom (.answering [1.0, 0.0, 5.0]) .standard ()).sketch.checkNumbers = .ok () ∧
      (slanted.solveFrom (.answering [1.0, 0.0, 5.0]) .standard ()).sketch.RadiiPositive := by
  have hsuccess :
      (slanted.solveFrom (.answering [1.0, 0.0, 5.0]) .standard ()).isSuccess = true := by
    decide +kernel
  obtain ⟨r, h, hr⟩ := Solved.exists_of_isSuccess hsuccess
  refine (solve_success_checks_iff wellFormed_slanted (by decide +kernel)
    (Minimizer.keepsLength_answering _) h hr).mpr ?_
  have hvalues : (slanted.solveFrom (.answering [1.0, 0.0, 5.0]) .standard ()).rounds.getLast?.all
      (fun last => (slanted.purge.2.slots.zip last.run.x).all fun (slot, v) => slot.admits v) =
      true := by
    decide +kernel
  intro last hlast slot v hin
  rw [hlast, Option.all_some, List.all_eq_true] at hvalues
  exact hvalues (slot, v) hin

/-- Two successes that spoil a good drawing: no active error reads the radius of the circle or the
first coordinate of the movable point. -/
theorem Sketch.solve_success_spoils_slanted :
    slanted.WellFormed ∧ slanted.checkNumbers = .ok () ∧ slanted.RadiiPositive ∧
      (∀ answer : List Float, (Minimizer.answering answer).KeepsLength) ∧
      ((slanted.solveFrom (.answering [1.0, 0.0, -5.0]) .standard ()).isSuccess = true ∧
        ¬(slanted.solveFrom (.answering [1.0, 0.0, -5.0]) .standard ()).sketch.RadiiPositive) ∧
      (slanted.solveFrom (.answering [0.0 / 0.0, 0.0, 5.0]) .standard ()).isSuccess = true ∧
        (slanted.solveFrom (.answering [0.0 / 0.0, 0.0, 5.0]) .standard ()).sketch.checkNumbers ≠
          .ok () := by
  refine ⟨wellFormed_slanted, rfl, by decide +kernel, Minimizer.keepsLength_answering,
    ⟨?_, ?_⟩, ?_, ?_⟩
  · decide +kernel
  · decide +kernel
  · decide +kernel
  · intro h
    have hfails : (slanted.solveFrom (.answering [0.0 / 0.0, 0.0, 5.0]) .standard
      ()).sketch.checkNumbers.toOption = none := by decide +kernel
    rw [h] at hfails
    cases hfails

end PlaneSketch
