import PlaneSketch.Proofs.References
import PlaneSketch.Proofs.Removal
import PlaneSketch.Proofs.Residuals

/-!
# Locating what a constraint names

A requirement has residuals exactly where each entity that it names can be located: a point by its
position, a line by the positions of both ends, a curve by its center and radius. Whether a
constraint is valid (`validate`) is asked of the entities that it names alone. Curves never lose
their center, so the two agree but for lines that were given ends which are not there.
-/

namespace PlaneSketch

variable {α : Type}

theorem bind_eq_error_iff_exists {ε β γ : Type} {first : Except ε β} {next : β → Except ε γ}
    {e : ε} : (first >>= next) = .error e ↔
      first = .error e ∨ ∃ b, first = .ok b ∧ next b = .error e := by
  constructor
  · intro h
    cases first with
    | error => exact Or.inl (congrArg Except.error (Except.error.inj h))
    | ok b => exact Or.inr ⟨b, rfl, h⟩
  · rintro (rfl | ⟨b, rfl, h⟩)
    · rfl
    · exact h

namespace Sketch

/-- The position of a point, the segment of a line or the circle under a curve can be looked up. -/
def Locates (s : Sketch α) : EntityRef → Prop
  | .point id => ∃ position, s.position? id = some position
  | .line id => ∃ segment, s.segment? id = some segment
  | .circle id => ∃ shape, s.shape? (.circle id) = some shape
  | .arc id => ∃ shape, s.shape? (.arc id) = some shape

variable {s : Sketch α} {e : EntityRef}

theorem resolvePoint_eq_error_iff {id : PointId} :
    s.resolvePoint id = .error e ↔ e = .point id ∧ ¬ s.Locates (.point id) := by
  simp only [resolvePoint, Locates]
  cases s.position? id <;> simp [eq_comm]

theorem resolveLine_eq_error_iff {id : LineId} :
    s.resolveLine id = .error e ↔ e = .line id ∧ ¬ s.Locates (.line id) := by
  simp only [resolveLine, Locates]
  cases s.segment? id <;> simp [eq_comm]

theorem resolveCurve_eq_error_iff {id : CurveId} :
    s.resolveCurve id = .error e ↔ e = id.toRef ∧ ¬ s.Locates id.toRef := by
  cases id with
  | circle id =>
    simp only [resolveCurve, CurveId.toRef, Locates]
    cases s.shape? (.circle id) <;> simp [eq_comm]
  | arc id =>
    simp only [resolveCurve, CurveId.toRef, Locates]
    cases s.shape? (.arc id) <;> simp [eq_comm]

theorem locates_of_resolvePoint {id : PointId} {position : Vec α}
    (h : s.resolvePoint id = .ok position) : s.Locates (.point id) :=
  ⟨position, resolvePoint_eq_ok_iff.mp h⟩

theorem locates_of_resolveLine {id : LineId} {segment : Segment α}
    (h : s.resolveLine id = .ok segment) : s.Locates (.line id) :=
  ⟨segment, resolveLine_eq_ok_iff.mp h⟩

theorem locates_of_resolveCurve {id : CurveId} {shape : CircleShape α}
    (h : s.resolveCurve id = .ok shape) : s.Locates id.toRef := by
  cases id with
  | circle | arc => exact ⟨shape, resolveCurve_eq_ok_iff.mp h⟩

variable [Scalar α] {r : Requirement α}

theorem of_components_eq_error (h : s.components r = .error e) :
    e ∈ r.references ∧ ¬ s.Locates e := by
  cases r <;>
    simp only [components, bind_eq_error_iff_exists, resolvePoint_eq_error_iff,
      resolveLine_eq_error_iff, resolveCurve_eq_error_iff, pure, Except.pure, reduceCtorEq,
      and_false, exists_false, or_false, exists_and_right] at h <;>
    simp only [Requirement.references, List.mem_cons, List.not_mem_nil, or_false]
  all_goals grind

theorem locates_of_components_eq_ok {residuals : List α} (h : s.components r = .ok residuals) :
    ∀ e ∈ r.references, s.Locates e := by
  cases r <;>
    simp only [components, bind_eq_ok_iff_exists] at h <;>
    simp only [Requirement.references, List.forall_mem_cons, List.not_mem_nil, false_implies,
      implies_true, and_true]
  all_goals grind [locates_of_resolvePoint, locates_of_resolveLine, locates_of_resolveCurve]

theorem exists_components_iff :
    (∃ residuals, s.components r = .ok residuals) ↔ ∀ e ∈ r.references, s.Locates e := by
  constructor
  · rintro ⟨_, h⟩
    exact locates_of_components_eq_ok h
  · intro h
    cases hcomponents : s.components r with
    | ok residuals => exact ⟨residuals, rfl⟩
    | error e =>
      obtain ⟨he, hlost⟩ := of_components_eq_error hcomponents
      exact absurd (h e he) hlost

/-! ### Valid constraints -/

omit [Scalar α] in
theorem WellFormed.resolves_iff_position? (hs : s.WellFormed) {id : PointId} :
    s.Resolves id ↔ ∃ position, s.position? id = some position := by
  constructor
  · rintro ⟨p, -, -, hp⟩
    exact ⟨p.position, by rw [position?, hp, Option.map_some]⟩
  · rintro ⟨position, hposition⟩
    obtain ⟨p, hp, -⟩ := Option.map_eq_some_iff.mp hposition
    obtain ⟨hmem, hid⟩ := hs.point?_eq_some_iff.mp hp
    exact ⟨p, mem_points_iff.mpr hmem, hid, hp⟩

omit [Scalar α] in
/-- A curve of the sketch is located by its center. -/
theorem exists_shape?_iff {id : CurveId} {center : PointId} {radius : α}
    (hcenter : s.center? id = some center) (hradius : s.radius? id = some radius) :
    (∃ shape, s.shape? id = some shape) ↔ ∃ position, s.position? center = some position := by
  simp only [shape?, hcenter, hradius, Option.bind_eq_bind, Option.bind_some]
  cases s.position? center <;> simp

omit [Scalar α] in
/-- An entity of the sketch is located by the points that it is built on. -/
theorem WellFormed.locates_ref_iff (hs : s.WellFormed) {d : Entity α} (hd : d ∈ s.entities) :
    s.Locates d.ref ↔ ∀ id ∈ d.basePoints, s.Resolves id := by
  simp only [hs.resolves_iff_position?]
  cases d with
  | point p =>
    have hp : s.point? p.id = some p := hs.point?_eq_some_iff.mpr ⟨hd, rfl⟩
    exact iff_of_true ⟨p.position, by rw [position?, hp, Option.map_some]⟩ nofun
  | line l =>
    have hl : s.line? l.id = some l := hs.line?_eq_some_iff.mpr ⟨hd, rfl⟩
    simp only [Entity.ref, Locates, segment?_eq_some_iff, hl, Option.some.injEq, exists_eq_left',
      Entity.basePoints, List.forall_mem_cons, List.not_mem_nil, false_implies, implies_true,
      and_true]
    constructor
    · rintro ⟨segment, hstart, hstop⟩
      exact ⟨⟨_, hstart⟩, ⟨_, hstop⟩⟩
    · rintro ⟨⟨start, hstart⟩, ⟨stop, hstop⟩⟩
      exact ⟨⟨start, stop⟩, hstart, hstop⟩
  | circle c =>
    have hc : s.circle? c.id = some c := hs.circle?_eq_some_iff.mpr ⟨hd, rfl⟩
    simp only [Entity.basePoints, List.forall_mem_singleton]
    exact exists_shape?_iff (by rw [center?, hc, Option.map_some])
      (by rw [radius?, hc, Option.map_some])
  | arc a =>
    have ha : s.arc? a.id = some a := hs.arc?_eq_some_iff.mpr ⟨hd, rfl⟩
    simp only [Entity.basePoints, List.forall_mem_singleton]
    exact exists_shape?_iff (by rw [center?, ha, Option.map_some])
      (by rw [radius?, ha, Option.map_some])

omit [Scalar α] in
theorem WellFormed.locates_line_iff (hs : s.WellFormed) {l : Line} (hl : l ∈ s.lines) :
    s.Locates (.line l.id) ↔ s.Resolves l.start ∧ s.Resolves l.stop := by
  refine (hs.locates_ref_iff (mem_lines_iff.mp hl)).trans ?_
  simp [Entity.basePoints]

omit [Scalar α] in
/-- What stands on points that are there can be located. -/
theorem GroundedFor.locates {kinds : EntityRef → Prop} (h : s.GroundedFor kinds)
    (hs : s.WellFormed) (he : s.contains e = true) (hkind : kinds e) : s.Locates e := by
  obtain ⟨d, hd, rfl⟩ := hs.contains_iff.mp he
  exact (hs.locates_ref_iff hd).mpr fun id hid => h.resolves hs hd hkind hid

theorem contains_of_isValid {c : Constraint α} (hc : c.isValid s = true) :
    ∀ e ∈ c.requirement.references, s.contains e = true := by
  rw [Constraint.isValid, Option.isNone_iff_eq_none] at hc
  unfold Constraint.defect? at hc
  split at hc
  next => cases hc
  next =>
    split at hc
    next => cases hc
    next hfind =>
      intro e he
      simpa using List.find?_eq_none.mp hfind e he

/-- Where curves have their centers, a valid constraint that has no residuals is about a line
without one of its ends. -/
theorem GroundedFor.of_components_eq_error (h : s.GroundedFor fun e => ∀ id, e ≠ .line id)
    (hs : s.WellFormed) {c : Constraint α} (hc : c.isValid s = true)
    (hcomponents : s.components c.requirement = .error e) :
    ∃ l ∈ s.lines, e = .line l.id ∧ .line l.id ∈ c.requirement.references ∧
      ¬ (s.Resolves l.start ∧ s.Resolves l.stop) := by
  obtain ⟨hnamed, hlost⟩ := Sketch.of_components_eq_error hcomponents
  have hfound := contains_of_isValid hc e hnamed
  cases e with
  | line id =>
    obtain ⟨d, hd, href⟩ := hs.contains_iff.mp hfound
    cases d with
    | line l =>
      obtain rfl : l.id = id := EntityRef.line.inj href
      have hl : l ∈ s.lines := mem_lines_iff.mpr hd
      exact ⟨l, hl, rfl, hnamed, fun hends => hlost ((hs.locates_line_iff hl).mpr hends)⟩
    | point | circle | arc => cases href
  | point | circle | arc => exact absurd (h.locates hs hfound nofun) hlost

end Sketch

variable [Scalar α]

namespace Operation

open Sketch

/-- In every sketch that can be reached a valid constraint has residuals unless it names a line
one of whose ends is not there. It then counts as unresolved, and that line is reported. Edits
that leave each line on points of the sketch never lead there. -/
theorem components_run_empty (ops : List (Operation α)) (name : String) :
    let s := run ops (empty name)
    ∀ c : Constraint α, c.isValid s = true →
      ((∃ residuals, s.components c.requirement = .ok residuals) ↔
        ∀ l ∈ s.lines, .line l.id ∈ c.requirement.references →
          s.Resolves l.start ∧ s.Resolves l.stop) ∧
      (∀ e, s.components c.requirement = .error e →
        s.errorOf c.requirement = unresolvedError ∧
        ∃ l ∈ s.lines, e = .line l.id ∧ .line l.id ∈ c.requirement.references ∧
          ¬ (s.Resolves l.start ∧ s.Resolves l.stop)) ∧
      (AllFindEnds ops (empty name) → ∃ residuals, s.components c.requirement = .ok residuals) := by
  intro s c hc
  have hs : s.WellFormed := wellFormed_run_empty ops name
  have hcurves : s.GroundedFor fun e => ∀ id, e ≠ .line id :=
    groundedFor_run_empty (Or.inr fun id h => h id rfl)
  have hmeasured : (∃ residuals, s.components c.requirement = .ok residuals) ↔
      ∀ l ∈ s.lines, .line l.id ∈ c.requirement.references →
        s.Resolves l.start ∧ s.Resolves l.stop := by
    constructor
    · intro hok l hl hnamed
      exact (hs.locates_line_iff hl).mp (exists_components_iff.mp hok _ hnamed)
    · intro hends
      cases hcomponents : s.components c.requirement with
      | ok residuals => exact ⟨residuals, rfl⟩
      | error e =>
        obtain ⟨l, hl, -, hnamed, hlost⟩ := hcurves.of_components_eq_error hs hc hcomponents
        exact absurd (hends l hl hnamed) hlost
  refine ⟨hmeasured, ?_, ?_⟩
  · intro e he
    refine ⟨?_, hcurves.of_components_eq_error hs hc he⟩
    rw [errorOf, he]
  · intro hops
    refine exists_components_iff.mpr fun e he => ?_
    exact (grounded_iff.mp hops.grounded).locates hs (contains_of_isValid hc e he) trivial

/-- A horizontal line between two points that gets other ends. -/
def redrawn (start stop : PointId) : List (Operation Float) :=
  [.addPoint ⟨0.0, 0.0⟩, .addPoint ⟨1.0, 0.0⟩, .addLine ⟨0⟩ ⟨1⟩, .addConstraint (.horizontal ⟨2⟩),
    .editLine ⟨2⟩ fun l => { l with start := start, stop := stop }]

theorem components_run_redrawn :
    ∃ c ∈ (run (redrawn ⟨1⟩ ⟨0⟩) (empty "")).constraints,
      c.isValid (run (redrawn ⟨1⟩ ⟨0⟩) (empty "")) = true ∧
      AllFindEnds (redrawn ⟨1⟩ ⟨0⟩) (empty "") ∧
      ∃ residuals, (run (redrawn ⟨1⟩ ⟨0⟩) (empty "")).components c.requirement = .ok residuals := by
  have hvalid : ∃ c ∈ (run (redrawn ⟨1⟩ ⟨0⟩) (empty "")).constraints,
      c.isValid (run (redrawn ⟨1⟩ ⟨0⟩) (empty "")) = true := by decide +kernel
  let s := run ((redrawn ⟨1⟩ ⟨0⟩).take 4) (empty "")
  have hs : s.WellFormed := wellFormed_run_empty _ ""
  have hstart : s.Resolves ⟨1⟩ := hs.resolves_iff.mpr (by decide +kernel)
  have hstop : s.Resolves ⟨0⟩ := hs.resolves_iff.mpr (by decide +kernel)
  have hops : AllFindEnds (redrawn ⟨1⟩ ⟨0⟩) (empty "") :=
    ⟨trivial, trivial, trivial, trivial, fun _ _ => ⟨hstart, hstop⟩, trivial⟩
  obtain ⟨c, hc, hvalid⟩ := hvalid
  exact ⟨c, hc, hvalid, hops, (components_run_empty _ "" c hvalid).2.2 hops⟩

/-- A line that was given an end which is not there is still there itself, so a constraint on it is
valid; but it has no residuals. -/
theorem exists_valid_unresolved :
    ∃ (ops : List (Operation Float)) (name : String),
      ∃ c ∈ (run ops (empty name)).constraints, c.isValid (run ops (empty name)) = true ∧
        (run ops (empty name)).components c.requirement = .error (.line ⟨2⟩) ∧
        (run ops (empty name)).errorOf c.requirement = unresolvedError := by
  have hvalid : ∃ c ∈ (run (redrawn ⟨0⟩ ⟨7⟩) (empty "")).constraints,
      c.isValid (run (redrawn ⟨0⟩ ⟨7⟩) (empty "")) = true ∧ c.requirement = .horizontal ⟨2⟩ := by
    decide +kernel
  have hsegment : ((run (redrawn ⟨0⟩ ⟨7⟩) (empty "")).segment? ⟨2⟩).isNone = true := by
    decide +kernel
  obtain ⟨c, hc, hvalid, hrequirement⟩ := hvalid
  have hcomponents : (run (redrawn ⟨0⟩ ⟨7⟩) (empty "")).components c.requirement =
      .error (.line ⟨2⟩) := by
    rw [hrequirement, components, resolveLine, Option.isNone_iff_eq_none.mp hsegment]
    rfl
  refine ⟨redrawn ⟨0⟩ ⟨7⟩, "", c, hc, hvalid, hcomponents, ?_⟩
  rw [errorOf, hcomponents]

end Operation

end PlaneSketch
