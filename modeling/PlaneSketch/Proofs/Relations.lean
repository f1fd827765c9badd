import PlaneSketch.Proofs.Euclid

/-!
# Requirements as geometric relations

What each requirement says of the drawing, in terms of positions, lines and circles alone. Without
rounding, the error of a requirement vanishes exactly when the drawing is so. A requirement on an
entity that is not there never holds, and has an error.
-/

namespace PlaneSketch

open Scalar

namespace Sketch

variable (s : Sketch ℝ)

def AtPoint (p : PointId) (relation : Vec ℝ → Prop) : Prop :=
  ∃ a, s.position? p = some a ∧ relation a

def AtLine (l : LineId) (relation : Segment ℝ → Prop) : Prop :=
  ∃ segment, s.segment? l = some segment ∧ relation segment

def AtCurve (c : CurveId) (relation : CircleShape ℝ → Prop) : Prop :=
  ∃ shape, s.shape? c = some shape ∧ relation shape

end Sketch

/-- The relation between the entities of the sketch that the requirement asks for. -/
def Requirement.Holds (s : Sketch ℝ) : Requirement ℝ → Prop
  | .fixed p position => s.AtPoint p fun a => a = position
  | .coincident p q => s.AtPoint p fun a => s.AtPoint q fun b => a = b
  | .horizontal l => s.AtLine l fun k => k.start.y = k.stop.y
  | .vertical l => s.AtLine l fun k => k.start.x = k.stop.x
  | .parallel k l => s.AtLine k fun k => s.AtLine l fun l => k.vector.cross l.vector = 0
  | .perpendicular k l => s.AtLine k fun k => s.AtLine l fun l => k.vector.dot l.vector = 0
  | .equalLength k l => s.AtLine k fun k => s.AtLine l fun l => k.length = l.length
  | .pointOnLine p l => s.AtPoint p fun a => s.AtLine l fun l => l.Covers a
  | .midpoint p l => s.AtPoint p fun a => s.AtLine l fun l => a.IsHalfway l.start l.stop
  | .tangent l c => s.AtLine l fun l => s.AtCurve c fun c => l.IsLineDistance c.center c.radius
  | .concentric c d => s.AtCurve c fun c => s.AtCurve d fun d => c.center = d.center
  | .equalRadius c d => s.AtCurve c fun c => s.AtCurve d fun d => c.radius = d.radius
  | .pointOnCircle p c => s.AtPoint p fun a => s.AtCurve c fun c => a.distance c.center = c.radius
  | .symmetric p q l => s.AtLine l fun l => s.AtPoint p fun a => s.AtPoint q fun b => l.Mirrors a b
  | .length l value => s.AtLine l fun l => l.start.distance l.stop = value
  | .distance p q value => s.AtPoint q fun b => s.AtPoint p fun a => a.distance b = value
  | .horizontalDistance p q value => s.AtPoint q fun b => s.AtPoint p fun a => |b.x - a.x| = value
  | .verticalDistance p q value => s.AtPoint q fun b => s.AtPoint p fun a => |b.y - a.y| = value
  | .angle k l value => s.AtLine k fun k => s.AtLine l fun l =>
      k.vector.degreesBetween l.vector = value
  | .radius c value => s.AtCurve c fun c => c.radius = value
  | .diameter c value => s.AtCurve c fun c => c.radius + c.radius = value

namespace Sketch

variable {s : Sketch ℝ}

theorem atPoint_congr {p : PointId} {first second : Vec ℝ → Prop}
    (h : ∀ a, first a ↔ second a) : s.AtPoint p first ↔ s.AtPoint p second :=
  exists_congr fun a => and_congr_right fun _ => h a

theorem atLine_congr {l : LineId} {first second : Segment ℝ → Prop}
    (h : ∀ k, s.segment? l = some k → (first k ↔ second k)) :
    s.AtLine l first ↔ s.AtLine l second :=
  exists_congr fun k => and_congr_right (h k)

theorem atCurve_congr {c : CurveId} {first second : CircleShape ℝ → Prop}
    (h : ∀ d, s.shape? c = some d → (first d ↔ second d)) :
    s.AtCurve c first ↔ s.AtCurve c second :=
  exists_congr fun d => and_congr_right (h d)

/-! ### Residuals that vanish -/

/-- All entities are there, and all residuals are zero. -/
def Vanishes (residuals : Except EntityRef (List ℝ)) : Prop :=
  ∃ values, residuals = .ok values ∧ ∀ v ∈ values, v = 0

theorem errorOf_eq_zero_iff_vanishes (r : Requirement ℝ) :
    s.errorOf r = 0 ↔ Vanishes (s.components r) :=
  s.errorOf_eq_zero_iff r

theorem vanishes_bind {β : Type} {first : Except EntityRef β}
    {next : β → Except EntityRef (List ℝ)} :
    Vanishes (first >>= next) ↔ ∃ b, first = .ok b ∧ Vanishes (next b) := by
  unfold Vanishes
  simp only [bind_eq_ok_iff_exists]
  constructor
  · rintro ⟨values, ⟨b, hb, hnext⟩, hzero⟩
    exact ⟨b, hb, values, hnext, hzero⟩
  · rintro ⟨b, hb, values, hnext, hzero⟩
    exact ⟨values, ⟨b, hb, hnext⟩, hzero⟩

theorem vanishes_resolvePoint {p : PointId} {next : Vec ℝ → Except EntityRef (List ℝ)} :
    Vanishes (s.resolvePoint p >>= next) ↔ s.AtPoint p fun a => Vanishes (next a) := by
  simp only [vanishes_bind, resolvePoint_eq_ok_iff, AtPoint]

theorem vanishes_resolveLine {l : LineId} {next : Segment ℝ → Except EntityRef (List ℝ)} :
    Vanishes (s.resolveLine l >>= next) ↔ s.AtLine l fun k => Vanishes (next k) := by
  simp only [vanishes_bind, resolveLine_eq_ok_iff, AtLine]

theorem vanishes_resolveCurve {c : CurveId} {next : CircleShape ℝ → Except EntityRef (List ℝ)} :
    Vanishes (s.resolveCurve c >>= next) ↔ s.AtCurve c fun d => Vanishes (next d) := by
  simp only [vanishes_bind, resolveCurve_eq_ok_iff, AtCurve]

theorem vanishes_single {v : ℝ} : Vanishes (pure [v]) ↔ v = 0 := by
  constructor
  · rintro ⟨values, hvalues, hzero⟩
    cases hvalues
    exact hzero v (List.mem_singleton_self v)
  · rintro rfl
    exact ⟨[0], rfl, fun v hv => List.mem_singleton.mp hv⟩

/-- The residuals of two positions vanish where the positions are one. -/
theorem vanishes_difference {a b : Vec ℝ} : Vanishes (pure (a - b).toList) ↔ a = b := by
  rw [← Vec.sub_toList_eq_zero_iff]
  constructor
  · rintro ⟨values, hvalues, hzero⟩
    cases hvalues
    exact hzero
  · intro hzero
    exact ⟨_, rfl, hzero⟩

/-! ### Requirements -/

/-- The lines and curves that the requirement names are large enough to have a direction. -/
structure HasExtent (s : Sketch ℝ) (r : Requirement ℝ) : Prop where
  lines : ∀ l segment, .line l ∈ r.references → s.segment? l = some segment →
    degenerateLength ≤ segment.length
  curves : ∀ (c : CurveId) shape, c.toRef ∈ r.references → s.shape? c = some shape →
    degenerateLength ≤ shape.radius

/-- Without rounding, a requirement on lines and curves of some extent has no error exactly when the
drawing is as it asks: the entities are there, and the relation holds between them. -/
theorem errorOf_eq_zero_iff_holds (s : Sketch ℝ) (r : Requirement ℝ) (h : s.HasExtent r) :
    s.errorOf r = 0 ↔ r.Holds s := by
  obtain ⟨hline, hcurve⟩ := h
  rw [errorOf_eq_zero_iff_vanishes]
  -- a requirement that compares positions, lengths or radii as they are is done with the look-ups
  cases r <;> simp only [components, vanishes_resolvePoint, vanishes_resolveLine,
    vanishes_resolveCurve, vanishes_difference, vanishes_single, sub_eq_zero, Requirement.Holds]
  case horizontal l =>
    refine atLine_congr fun k _ => ?_
    exact sub_eq_zero.trans eq_comm
  case vertical l =>
    refine atLine_congr fun k _ => ?_
    exact sub_eq_zero.trans eq_comm
  case parallel k l =>
    refine atLine_congr fun first hfirst => atLine_congr fun second hsecond => ?_
    exact Vec.direction_cross_eq_zero_iff (hline k first (.head _) hfirst)
      (hline l second (.tail _ (.head _)) hsecond)
  case perpendicular k l =>
    refine atLine_congr fun first hfirst => atLine_congr fun second hsecond => ?_
    exact Vec.direction_dot_eq_zero_iff (hline k first (.head _) hfirst)
      (hline l second (.tail _ (.head _)) hsecond)
  case pointOnLine p l =>
    refine atPoint_congr fun a => atLine_congr fun k hk => ?_
    exact (Segment.covers_iff (hline l k (.tail _ (.head _)) hk)).symm
  case midpoint p l =>
    exact atPoint_congr fun a => atLine_congr fun k _ => Segment.eq_midpoint_iff
  case tangent l c =>
    refine atLine_congr fun k hk => atCurve_congr fun d _ => ?_
    exact (Segment.isLineDistance_iff (hline l k (.head _) hk)).symm
  case pointOnCircle p c =>
    refine atPoint_congr fun a => atCurve_congr fun d hd => ?_
    exact CircleShape.signedDistance_eq_zero_iff (hcurve c d (.tail _ (.head _)) hd)
  case symmetric p q l =>
    refine atLine_congr fun k hk => atPoint_congr fun a => atPoint_congr fun b => ?_
    exact (Segment.mirrors_iff (hline l k (.tail _ (.tail _ (.head _))) hk)).symm
  case angle k l value =>
    refine atLine_congr fun first hfirst => atLine_congr fun second hsecond => ?_
    rw [← Vec.angleBetween_direction (hline k first (.head _) hfirst)
      (hline l second (.tail _ (.head _)) hsecond)]
    rfl
  case diameter c value =>
    refine atCurve_congr fun d _ => ?_
    have htwo : (2.0 : ℝ) = 2 := by norm_num
    rw [htwo, two_mul]
  -- distances are measured in the same terms
  all_goals rfl

/-- The diagonal, and two points on either side of it. -/
noncomputable def mirrored : Sketch ℝ :=
  let s := ((empty "").addPoint ⟨0, 0⟩).2
  let s := ((s.addPoint ⟨1, 1⟩).2.addLine ⟨0⟩ ⟨1⟩).2
  ((s.addPoint ⟨1, 0⟩).2.addPoint ⟨0, 1⟩).2

theorem errorOf_eq_zero_iff_holds_mirrored :
    mirrored.HasExtent (.symmetric ⟨3⟩ ⟨4⟩ ⟨2⟩) ∧
      (Requirement.symmetric ⟨3⟩ ⟨4⟩ ⟨2⟩).Holds mirrored ∧
      mirrored.errorOf (.symmetric ⟨3⟩ ⟨4⟩ ⟨2⟩) = 0 := by
  have hsegment : mirrored.segment? ⟨2⟩ = some ⟨⟨0, 0⟩, ⟨1, 1⟩⟩ := rfl
  have hextent : mirrored.HasExtent (.symmetric ⟨3⟩ ⟨4⟩ ⟨2⟩) := by
    constructor
    · intro l segment hl hfound
      obtain rfl : l = ⟨2⟩ := by simpa [Requirement.references] using hl
      obtain rfl := Option.some.inj (hfound.symm.trans hsegment)
      refine Real.le_sqrt_of_sq_le ?_
      show (1e-12 : ℝ) ^ 2 ≤ (1 - 0) * (1 - 0) + (1 - 0) * (1 - 0)
      norm_num
    · intro c shape hc
      cases c <;> simp [Requirement.references, CurveId.toRef] at hc
  have hholds : (Requirement.symmetric ⟨3⟩ ⟨4⟩ ⟨2⟩).Holds mirrored := by
    refine ⟨_, hsegment, ⟨1, 0⟩, rfl, ⟨0, 1⟩, rfl, ⟨⟨1 / 2, 1 / 2⟩, ⟨1 / 2, ?_⟩, ?_⟩, ?_⟩
    · norm_num [Segment.DividesAt]
    · norm_num [Vec.IsHalfway]
    · show ((0 : ℝ) - 1) * (1 - 0) + (1 - 0) * (1 - 0) = 0
      norm_num
  exact ⟨hextent, hholds, (errorOf_eq_zero_iff_holds _ _ hextent).mpr hholds⟩

end Sketch

end PlaneSketch
