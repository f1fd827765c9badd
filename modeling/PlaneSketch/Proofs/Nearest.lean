import PlaneSketch.Proofs.Euclid

/-!
# Nearest points

Without rounding, no point of a segment or a circle is closer than the one that is called the
nearest (`nearest_point`), so the measured distances are the least ones. Along a segment all that
counts is how far its parameter is from that of the foot of the perpendicular, and clamping goes no
further than it has to. For a circle the triangle inequality says so, inside it and outside.
-/

namespace PlaneSketch

open Scalar

namespace Vec

/-- The second point is in the region, and no other point there is closer to the first. -/
structure IsNearest (p : Vec ℝ) (region : Vec ℝ → Prop) (q : Vec ℝ) : Prop where
  mem : region q
  least : ∀ other, region other → p.distance q ≤ p.distance other

theorem IsNearest.isLeast {p q : Vec ℝ} {region : Vec ℝ → Prop} (h : p.IsNearest region q) :
    IsLeast {d | ∃ other, region other ∧ d = p.distance other} (p.distance q) := by
  refine ⟨⟨q, h.mem, rfl⟩, ?_⟩
  rintro d ⟨other, hother, rfl⟩
  exact h.least other hother

theorem distance_nonneg (p q : Vec ℝ) : 0 ≤ p.distance q := length_nonneg _

theorem dot_le (a b : Vec ℝ) : a.dot b ≤ a.length * b.length := by
  refine le_of_abs_le (abs_le_of_sq_le_sq ?_ (mul_nonneg a.length_nonneg b.length_nonneg))
  have hidentity := dot_mul_self_add_cross_mul_self a b
  have hcross := mul_self_nonneg (a.cross b)
  have hlengths : (a.length * b.length) ^ 2 = a.dot a * b.dot b := by
    rw [mul_pow, sq, sq, length_mul_self, length_mul_self]
    rfl
  rw [hlengths, sq]
  linarith

theorem abs_length_sub_le (a b : Vec ℝ) : |a.length - b.length| ≤ (a - b).length := by
  refine abs_le_of_sq_le_sq ?_ (length_nonneg _)
  have ha := a.length_mul_self
  have hb := b.length_mul_self
  have hdot : a.x * b.x + a.y * b.y ≤ a.length * b.length := dot_le a b
  have hdifference : (a - b).length ^ 2 =
      (a.x - b.x) * (a.x - b.x) + (a.y - b.y) * (a.y - b.y) := by
    rw [sq]
    exact (a - b).length_mul_self
  rw [hdifference]
  linear_combination 2 * hdot + ha + hb

end Vec

/-! ### Segments -/

namespace Segment

variable {s : Segment ℝ}

/-- The parameter of the foot of the perpendicular, before it is clamped. -/
noncomputable def share (s : Segment ℝ) (p : Vec ℝ) : ℝ :=
  (p - s.start).dot s.vector / s.vector.lengthSquared

theorem pointAt_sub_dot (h : degenerateLength ≤ s.length) (p : Vec ℝ) (t : ℝ) :
    (s.pointAt t - p).dot s.direction = s.length * (t - s.share p) := by
  have hshare : s.share p * (s.length * s.length) = (p - s.start).dot s.vector := by
    rw [share, lengthSquared_eq]
    exact div_mul_cancel₀ _ (mul_pos (length_pos h) (length_pos h)).ne'
  have hvector : s.vector.dot s.vector = s.length * s.length := s.lengthSquared_eq
  have hpoint : (s.pointAt t - p).dot s.vector =
      t * s.vector.dot s.vector - (p - s.start).dot s.vector := by
    show (s.start.x + s.vector.x * t - p.x) * s.vector.x +
        (s.start.y + s.vector.y * t - p.y) * s.vector.y =
      t * (s.vector.x * s.vector.x + s.vector.y * s.vector.y) -
        ((p.x - s.start.x) * s.vector.x + (p.y - s.start.y) * s.vector.y)
    ring
  rw [dot_vector h, hvector, ← hshare] at hpoint
  refine mul_right_cancel₀ (length_pos h).ne' ?_
  rw [hpoint]
  ring

/-- Of two points of the line the one is closer whose parameter is closer to that of the foot. -/
theorem distance_pointAt_le (h : degenerateLength ≤ s.length) {p : Vec ℝ} {t u : ℝ}
    (htu : |t - s.share p| ≤ |u - s.share p|) :
    p.distance (s.pointAt t) ≤ p.distance (s.pointAt u) := by
  have hcarries (v : ℝ) : s.Carries (s.pointAt v) := ⟨v, dividesAt_iff.mpr rfl⟩
  -- across the line both are equally far
  have hsquare (v : ℝ) : p.distance (s.pointAt v) * p.distance (s.pointAt v) =
      s.length ^ 2 * (v - s.share p) ^ 2 +
        s.direction.cross (p - s.start) * s.direction.cross (p - s.start) := by
    rw [distance_mul_self, pointAt_sub_dot h, ← cross_of_carries h (hcarries v)]
    ring
  rw [mul_self_le_mul_self_iff (Vec.distance_nonneg ..) (Vec.distance_nonneg ..), hsquare, hsquare]
  have hshares : (t - s.share p) ^ 2 ≤ (u - s.share p) ^ 2 := sq_le_sq.mpr htu
  have hscaled := mul_le_mul_of_nonneg_left hshares (sq_nonneg s.length)
  linarith

/-- Nothing between 0 and 1 is closer to a number than the number clamped. -/
theorem abs_clamp_sub_le (v : ℝ) {t : ℝ} (h0 : 0 ≤ t) (h1 : t ≤ 1) :
    |clamp 0.0 1.0 v - v| ≤ |t - v| := by
  rw [clamp_eq]
  rcases le_total v 0 with hlow | hlow
  · rw [max_eq_left hlow, min_eq_right zero_le_one, abs_of_nonneg (by linarith),
      abs_of_nonneg (by linarith)]
    linarith
  · rw [max_eq_right hlow]
    rcases le_total v 1 with hhigh | hhigh
    · rw [min_eq_right hhigh, sub_self, abs_zero]
      exact abs_nonneg _
    · rw [min_eq_left hhigh, abs_of_nonpos (by linarith), abs_of_nonpos (by linarith)]
      linarith

theorem isNearest_nearestPoint (h : degenerateLength ≤ s.length) (p : Vec ℝ) :
    p.IsNearest s.Covers (s.nearestPoint p) := by
  refine ⟨covers_nearestPoint h p, ?_⟩
  rintro other ⟨t, h0, h1, ht⟩
  obtain rfl := dividesAt_iff.mp ht
  refine distance_pointAt_le h ?_
  rw [project_eq h]
  exact abs_clamp_sub_le (s.share p) h0 h1

theorem lineDistance_le_distanceTo (h : degenerateLength ≤ s.length) (p : Vec ℝ) :
    s.lineDistance p ≤ s.distanceTo p := by
  obtain ⟨t, -, -, ht⟩ := covers_nearestPoint h p
  exact (isLineDistance_lineDistance h p).2 ⟨s.nearestPoint p, ⟨t, ht⟩, rfl⟩

end Segment

/-! ### Circles -/

namespace CircleShape

variable {c : CircleShape ℝ}

/-- The point lies on the circle. -/
def Carries (c : CircleShape ℝ) (p : Vec ℝ) : Prop := p.distance c.center = c.radius

theorem carries_nearestPoint (h : 0 ≤ c.radius) (p : Vec ℝ) : c.Carries (c.nearestPoint p) := by
  have hback : c.nearestPoint p - c.center = (p - c.center).direction.scale c.radius :=
    Vec.eq_iff.mpr ⟨add_sub_cancel_left .., add_sub_cancel_left ..⟩
  show (c.center - c.nearestPoint p).length = c.radius
  rw [Vec.length_sub_comm, hback, length_direction_scale, abs_of_nonneg h]

theorem distanceTo_eq {p : Vec ℝ} (h : degenerateLength ≤ p.distance c.center) :
    c.distanceTo p = |p.distance c.center - c.radius| := by
  have hback : p.distance c.center = (p - c.center).length := Vec.length_sub_comm ..
  rw [hback] at h ⊢
  obtain ⟨hx, hy⟩ := Vec.direction_scale_length h
  have hway : p - c.nearestPoint p =
      (p - c.center).direction.scale ((p - c.center).length - c.radius) := by
    refine Vec.eq_iff.mpr ⟨?_, ?_⟩
    · show p.x - (c.center.x + (p - c.center).direction.x * c.radius) =
        (p - c.center).direction.x * ((p - c.center).length - c.radius)
      rw [mul_sub, hx]
      exact sub_add_eq_sub_sub ..
    · show p.y - (c.center.y + (p - c.center).direction.y * c.radius) =
        (p - c.center).direction.y * ((p - c.center).length - c.radius)
      rw [mul_sub, hy]
      exact sub_add_eq_sub_sub ..
  show (c.nearestPoint p - p).length = _
  rw [Vec.length_sub_comm, hway, length_direction_scale]

theorem isNearest_nearestPoint (hr : 0 ≤ c.radius) {p : Vec ℝ}
    (h : degenerateLength ≤ p.distance c.center) :
    p.IsNearest c.Carries (c.nearestPoint p) := by
  refine ⟨carries_nearestPoint hr p, ?_⟩
  intro other hother
  have htriangle := Vec.abs_length_sub_le (c.center - p) (c.center - other)
  have hway : c.center - p - (c.center - other) = other - p :=
    Vec.eq_iff.mpr ⟨sub_sub_sub_cancel_left .., sub_sub_sub_cancel_left ..⟩
  rw [hway] at htriangle
  calc p.distance (c.nearestPoint p)
      = |p.distance c.center - c.radius| := distanceTo_eq h
    _ = |p.distance c.center - other.distance c.center| := by rw [show _ = c.radius from hother]
    _ ≤ p.distance other := htriangle

theorem signedDistance_eq {p : Vec ℝ} (h : degenerateLength ≤ p.distance c.center) :
    c.signedDistance p = p.distance c.center - c.radius := by
  have hback : p.distance c.center = (p - c.center).length := Vec.length_sub_comm ..
  rw [signedDistance, distanceTo_eq h, ← hback]
  split
  next hinside => rw [abs_of_neg (sub_neg.mpr hinside), neg_neg]
  next houtside => rw [abs_of_nonneg (sub_nonneg.mpr (not_lt.mp houtside))]

end CircleShape

/-! ### Queries -/

/-- Without rounding, the nearest point of a segment or circle is a point of it than which none is
closer, and the distance is the least one. The distance to the line through a segment is the least
one there and never more than that to the segment. A point on a circle is missed by its distance
from the center less the radius, whichever of the two is larger. -/
theorem nearestPoint_minimizes (p : Vec ℝ) :
    (∀ s : Segment ℝ, degenerateLength ≤ s.length →
      p.IsNearest s.Covers (s.nearestPoint p) ∧
      IsLeast {d | ∃ q, s.Covers q ∧ d = p.distance q} (s.distanceTo p) ∧
      s.lineDistance p ≤ s.distanceTo p ∧
      s.IsLineDistance p (s.lineDistance p)) ∧
    ∀ c : CircleShape ℝ, 0 ≤ c.radius → degenerateLength ≤ p.distance c.center →
      p.IsNearest c.Carries (c.nearestPoint p) ∧
      IsLeast {d | ∃ q, c.Carries q ∧ d = p.distance q} (c.distanceTo p) ∧
      c.distanceTo p = |p.distance c.center - c.radius| ∧
      ∀ (s : Sketch ℝ) (id : PointId) (curve : CurveId), s.position? id = some p →
        s.shape? curve = some c →
        s.components (.pointOnCircle id curve) = .ok [p.distance c.center - c.radius] := by
  constructor
  · intro s hs
    have hnearest := Segment.isNearest_nearestPoint hs p
    exact ⟨hnearest, hnearest.isLeast, Segment.lineDistance_le_distanceTo hs p,
      Segment.isLineDistance_lineDistance hs p⟩
  · intro c hr hp
    have hnearest := CircleShape.isNearest_nearestPoint hr hp
    refine ⟨hnearest, hnearest.isLeast, CircleShape.distanceTo_eq hp, ?_⟩
    intro s id curve hposition hshape
    have hpoint := Sketch.resolvePoint_eq_ok_iff.mpr hposition
    have hcurve := Sketch.resolveCurve_eq_ok_iff.mpr hshape
    rw [Sketch.components, hpoint, hcurve, ← CircleShape.signedDistance_eq hp]
    rfl

/-- A point beyond the end of a segment and inside a circle. -/
noncomputable def Sketch.encircled : Sketch ℝ :=
  let s := (((empty "").addPoint ⟨2, 1⟩).2.addPoint ⟨0, 0⟩).2
  let s := ((s.addPoint ⟨1, 0⟩).2.addLine ⟨1⟩ ⟨2⟩).2
  (s.addPoint ⟨2, 0⟩).2.push fun raw => .circle ⟨⟨raw⟩, ⟨4⟩, 3, false⟩

theorem nearestPoint_minimizes_encircled :
    ∃ p s c, Sketch.encircled.position? ⟨0⟩ = some p ∧ Sketch.encircled.segment? ⟨3⟩ = some s ∧
      Sketch.encircled.shape? (.circle ⟨5⟩) = some c ∧ degenerateLength ≤ s.length ∧
      0 ≤ c.radius ∧ degenerateLength ≤ p.distance c.center ∧
      p.IsNearest s.Covers (s.nearestPoint p) ∧ p.IsNearest c.Carries (c.nearestPoint p) ∧
      Sketch.encircled.components (.pointOnCircle ⟨0⟩ (.circle ⟨5⟩)) =
        .ok [p.distance c.center - c.radius] := by
  have hs : degenerateLength ≤ (⟨⟨0, 0⟩, ⟨1, 0⟩⟩ : Segment ℝ).length := by
    refine Real.le_sqrt_of_sq_le ?_
    show (1e-12 : ℝ) ^ 2 ≤ (1 - 0) * (1 - 0) + (0 - 0) * (0 - 0)
    norm_num
  have hp : degenerateLength ≤ (⟨2, 1⟩ : Vec ℝ).distance ⟨2, 0⟩ := by
    refine Real.le_sqrt_of_sq_le ?_
    show (1e-12 : ℝ) ^ 2 ≤ (2 - 2) * (2 - 2) + (0 - 1) * (0 - 1)
    norm_num
  have hr : (0 : ℝ) ≤ 3 := by norm_num
  have hsegment := (nearestPoint_minimizes ⟨2, 1⟩).1 _ hs
  have hcircle := (nearestPoint_minimizes ⟨2, 1⟩).2 ⟨⟨2, 0⟩, 3⟩ hr hp
  exact ⟨_, _, _, rfl, rfl, rfl, hs, hr, hp, hsegment.1, hcircle.1,
    hcircle.2.2.2 Sketch.encircled _ _ rfl rfl⟩

end PlaneSketch
