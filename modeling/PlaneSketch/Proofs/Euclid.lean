import PlaneSketch.Proofs.Exact

/-!
# Exact geometry

What the measurements of plane geometry mean without rounding. The nearest point of a segment is the
point itself where the segment covers it, the distance to a line is the least distance to one of its
points, and a reflection is the mirror image. A circle is met where the distance to its center is
the radius. All this needs a direction to measure along, which a segment has from the least length
on at which it counts as one.
-/

namespace PlaneSketch

open Scalar

/-! ### Vectors -/

namespace Vec

theorem eq_iff {a b : Vec ℝ} : a = b ↔ a.x = b.x ∧ a.y = b.y := by
  cases a
  cases b
  rw [Vec.mk.injEq]

@[simp] theorem add_x (a b : Vec ℝ) : (a + b).x = a.x + b.x := rfl

@[simp] theorem add_y (a b : Vec ℝ) : (a + b).y = a.y + b.y := rfl

@[simp] theorem sub_x (a b : Vec ℝ) : (a - b).x = a.x - b.x := rfl

@[simp] theorem sub_y (a b : Vec ℝ) : (a - b).y = a.y - b.y := rfl

theorem sub_toList_eq_zero_iff {a b : Vec ℝ} : (∀ v ∈ (a - b).toList, v = 0) ↔ a = b := by
  refine ⟨eq_of_sub_toList, ?_⟩
  rintro rfl v hv
  rcases List.mem_pair.mp hv with rfl | rfl
  · exact sub_self a.x
  · exact sub_self a.y

theorem length_nonneg (v : Vec ℝ) : 0 ≤ v.length := Real.sqrt_nonneg _

theorem length_mul_self (v : Vec ℝ) : v.length * v.length = v.x * v.x + v.y * v.y :=
  Real.mul_self_sqrt (add_nonneg (mul_self_nonneg _) (mul_self_nonneg _))

theorem degenerateLength_pos : (0 : ℝ) < degenerateLength := by
  show (0 : ℝ) < 1e-12
  norm_num

theorem length_pos {v : Vec ℝ} (h : degenerateLength ≤ v.length) : 0 < v.length :=
  lt_of_lt_of_le degenerateLength_pos h

/-- A vector that is long enough is its direction times its length. -/
theorem direction_scale_length {v : Vec ℝ} (h : degenerateLength ≤ v.length) :
    v.direction.x * v.length = v.x ∧ v.direction.y * v.length = v.y := by
  have hne : v.length ≠ 0 := (length_pos h).ne'
  rw [direction, if_neg (not_lt.mpr h)]
  exact ⟨div_mul_cancel₀ v.x hne, div_mul_cancel₀ v.y hne⟩

theorem direction_cross {a b : Vec ℝ} (ha : degenerateLength ≤ a.length)
    (hb : degenerateLength ≤ b.length) :
    a.cross b = a.direction.cross b.direction * (a.length * b.length) := by
  obtain ⟨hax, hay⟩ := direction_scale_length ha
  obtain ⟨hbx, hby⟩ := direction_scale_length hb
  show a.x * b.y - a.y * b.x =
    (a.direction.x * b.direction.y - a.direction.y * b.direction.x) * (a.length * b.length)
  rw [← hax, ← hay, ← hbx, ← hby]
  ring

theorem direction_dot {a b : Vec ℝ} (ha : degenerateLength ≤ a.length)
    (hb : degenerateLength ≤ b.length) :
    a.dot b = a.direction.dot b.direction * (a.length * b.length) := by
  obtain ⟨hax, hay⟩ := direction_scale_length ha
  obtain ⟨hbx, hby⟩ := direction_scale_length hb
  show a.x * b.x + a.y * b.y =
    (a.direction.x * b.direction.x + a.direction.y * b.direction.y) * (a.length * b.length)
  rw [← hax, ← hay, ← hbx, ← hby]
  ring

theorem direction_cross_eq_zero_iff {a b : Vec ℝ} (ha : degenerateLength ≤ a.length)
    (hb : degenerateLength ≤ b.length) :
    a.direction.cross b.direction = 0 ↔ a.cross b = 0 := by
  have hproduct : a.length * b.length ≠ 0 := mul_ne_zero (length_pos ha).ne' (length_pos hb).ne'
  rw [direction_cross ha hb, mul_eq_zero, or_iff_left hproduct]

theorem direction_dot_eq_zero_iff {a b : Vec ℝ} (ha : degenerateLength ≤ a.length)
    (hb : degenerateLength ≤ b.length) :
    a.direction.dot b.direction = 0 ↔ a.dot b = 0 := by
  have hproduct : a.length * b.length ≠ 0 := mul_ne_zero (length_pos ha).ne' (length_pos hb).ne'
  rw [direction_dot ha hb, mul_eq_zero, or_iff_left hproduct]

theorem distance_eq_zero_iff {a b : Vec ℝ} : a.distance b = 0 ↔ a = b := by
  constructor
  · intro h
    have hsquares := length_mul_self (b - a)
    rw [show (b - a).length = 0 from h, zero_mul] at hsquares
    have hx : (b - a).x = 0 := by nlinarith [mul_self_nonneg (b - a).x, mul_self_nonneg (b - a).y]
    have hy : (b - a).y = 0 := by nlinarith [mul_self_nonneg (b - a).x, mul_self_nonneg (b - a).y]
    exact eq_iff.mpr ⟨(sub_eq_zero.mp hx).symm, (sub_eq_zero.mp hy).symm⟩
  · rintro rfl
    exact length_self_sub a

/-- The angle in degrees that two vectors enclose. -/
noncomputable def degreesBetween (a b : Vec ℝ) : ℝ :=
  Real.arccos (a.dot b / (a.length * b.length)) * ((180 : ℕ) / Real.pi)

theorem angleBetween_direction {a b : Vec ℝ} (ha : degenerateLength ≤ a.length)
    (hb : degenerateLength ≤ b.length) :
    a.direction.angleBetween b.direction = a.degreesBetween b := by
  have hproduct : a.length * b.length ≠ 0 := mul_ne_zero (length_pos ha).ne' (length_pos hb).ne'
  have hunit := dot_mul_self_add_cross_mul_self a.direction b.direction
  rw [dot_direction_self, dot_direction_self, one_mul] at hunit
  -- the angle is that of a number on the upper unit circle
  let z : ℂ := ⟨a.direction.dot b.direction, |a.direction.cross b.direction|⟩
  have hnorm : ‖z‖ = 1 := by
    rw [Complex.norm_eq_sqrt_sq_add_sq, Real.sqrt_eq_one]
    show a.direction.dot b.direction ^ 2 + |a.direction.cross b.direction| ^ 2 = 1
    rw [sq_abs, sq, sq]
    exact hunit
  have hne : z ≠ 0 := by
    rw [← norm_pos_iff, hnorm]
    exact one_pos
  have hangle : z.arg = Real.arccos (a.direction.dot b.direction) := by
    rw [Complex.arg_of_im_nonneg_of_ne_zero (abs_nonneg _) hne, hnorm, div_one]
  show z.arg * (180 / Real.pi) = _
  rw [hangle, degreesBetween, direction_dot ha hb, mul_div_cancel_right₀ _ hproduct,
    Nat.cast_ofNat]

/-- The first point is halfway between the other two. -/
def IsHalfway (m a b : Vec ℝ) : Prop := m.x - a.x = b.x - m.x ∧ m.y - a.y = b.y - m.y

theorem isHalfway_iff {m a b : Vec ℝ} :
    m.IsHalfway a b ↔ 2 * m.x = a.x + b.x ∧ 2 * m.y = a.y + b.y := by
  have hmiddle (u v w : ℝ) : u - v = w - u ↔ 2 * u = v + w :=
    ⟨fun h => by linear_combination h, fun h => by linear_combination h⟩
  exact and_congr (hmiddle _ _ _) (hmiddle _ _ _)

end Vec

/-! ### Segments -/

namespace Segment

/-- The point divides the segment at `t`, which is 0 at the start and 1 at the end. -/
def DividesAt (s : Segment ℝ) (t : ℝ) (p : Vec ℝ) : Prop :=
  p.x = (1 - t) * s.start.x + t * s.stop.x ∧ p.y = (1 - t) * s.start.y + t * s.stop.y

/-- The point lies on the line through the ends. -/
def Carries (s : Segment ℝ) (p : Vec ℝ) : Prop := ∃ t, s.DividesAt t p

/-- The point lies between the ends, or is one of them. -/
def Covers (s : Segment ℝ) (p : Vec ℝ) : Prop := ∃ t, 0 ≤ t ∧ t ≤ 1 ∧ s.DividesAt t p

/-- The second point is the mirror image of the first in the line through the ends: halfway
between them is a point of the line, and the way from one to the other is across the line. -/
def Mirrors (s : Segment ℝ) (p q : Vec ℝ) : Prop :=
  (∃ foot, s.Carries foot ∧ foot.IsHalfway p q) ∧ (q - p).dot s.vector = 0

/-- The distance from a point to the line through the ends. -/
def IsLineDistance (s : Segment ℝ) (p : Vec ℝ) (d : ℝ) : Prop :=
  IsLeast {d | ∃ q, s.Carries q ∧ d = p.distance q} d

variable {s : Segment ℝ}

theorem dividesAt_iff {t : ℝ} {p : Vec ℝ} : s.DividesAt t p ↔ p = s.pointAt t := by
  have hx : (s.pointAt t).x = (1 - t) * s.start.x + t * s.stop.x := by
    show s.start.x + (s.stop.x - s.start.x) * t = _
    ring
  have hy : (s.pointAt t).y = (1 - t) * s.start.y + t * s.stop.y := by
    show s.start.y + (s.stop.y - s.start.y) * t = _
    ring
  rw [Vec.eq_iff, hx, hy]
  exact Iff.rfl

theorem length_pos (h : degenerateLength ≤ s.length) : 0 < s.length := Vec.length_pos h

theorem direction_mul_self (s : Segment ℝ) :
    s.direction.x * s.direction.x + s.direction.y * s.direction.y = 1 :=
  s.vector.dot_direction_self

theorem direction_scale_length (h : degenerateLength ≤ s.length) :
    s.direction.x * s.length = s.vector.x ∧ s.direction.y * s.length = s.vector.y :=
  Vec.direction_scale_length h

theorem dot_vector (h : degenerateLength ≤ s.length) (v : Vec ℝ) :
    v.dot s.vector = v.dot s.direction * s.length := by
  obtain ⟨hx, hy⟩ := direction_scale_length h
  show v.x * s.vector.x + v.y * s.vector.y =
    (v.x * s.direction.x + v.y * s.direction.y) * s.length
  rw [← hx, ← hy]
  ring

theorem eq_midpoint_iff {p : Vec ℝ} : p = s.midpoint ↔ p.IsHalfway s.start s.stop := by
  have hx : s.midpoint.x = (s.start.x + s.stop.x) / 2 := by
    show (s.start.x + s.stop.x) * 0.5 = _
    norm_num
    ring
  have hy : s.midpoint.y = (s.start.y + s.stop.y) / 2 := by
    show (s.start.y + s.stop.y) * 0.5 = _
    norm_num
    ring
  rw [Vec.isHalfway_iff, Vec.eq_iff, hx, hy, eq_div_iff two_ne_zero, eq_div_iff two_ne_zero,
    mul_comm p.x, mul_comm p.y]

/-! ### The nearest point -/

theorem lengthSquared_eq (s : Segment ℝ) : s.vector.lengthSquared = s.length * s.length :=
  (Vec.length_mul_self s.vector).symm

theorem lengthSquared_pos (h : degenerateLength ≤ s.length) : 0 < s.vector.lengthSquared := by
  rw [lengthSquared_eq]
  exact mul_pos (length_pos h) (length_pos h)

theorem project_eq (h : degenerateLength ≤ s.length) (p : Vec ℝ) :
    s.project p = clamp 0.0 1.0 ((p - s.start).dot s.vector / s.vector.lengthSquared) := by
  have hlong : ¬s.vector.lengthSquared < degenerateLength * degenerateLength := by
    rw [lengthSquared_eq, not_lt]
    exact mul_self_le_mul_self Vec.degenerateLength_pos.le h
  exact if_neg hlong

theorem clamp_eq (t : ℝ) : clamp 0.0 1.0 t = min 1 (max 0 t) := by
  have hzero : (0.0 : ℝ) = 0 := by norm_num
  have hone : (1.0 : ℝ) = 1 := by norm_num
  rw [hzero, hone, max_comm, max_def_lt, min_def_lt]
  rfl

/-- Along the line the parameter of a point is its share of the vector. -/
theorem dot_pointAt (h : degenerateLength ≤ s.length) (t : ℝ) :
    (s.pointAt t - s.start).dot s.vector / s.vector.lengthSquared = t := by
  have hdot : (s.pointAt t - s.start).dot s.vector = t * s.vector.lengthSquared := by
    show (s.start.x + s.vector.x * t - s.start.x) * s.vector.x +
        (s.start.y + s.vector.y * t - s.start.y) * s.vector.y =
      t * (s.vector.x * s.vector.x + s.vector.y * s.vector.y)
    ring
  rw [hdot, mul_div_cancel_right₀ _ (lengthSquared_pos h).ne']

theorem covers_nearestPoint (h : degenerateLength ≤ s.length) (p : Vec ℝ) :
    s.Covers (s.nearestPoint p) := by
  refine ⟨s.project p, ?_, ?_, dividesAt_iff.mpr rfl⟩
  · rw [project_eq h, clamp_eq]
    exact le_min zero_le_one (le_max_left ..)
  · rw [project_eq h, clamp_eq]
    exact min_le_left ..

/-- The nearest point is the point itself exactly where the segment covers it. -/
theorem covers_iff (h : degenerateLength ≤ s.length) {p : Vec ℝ} :
    s.Covers p ↔ p = s.nearestPoint p := by
  constructor
  · rintro ⟨t, h0, h1, ht⟩
    obtain rfl := dividesAt_iff.mp ht
    rw [nearestPoint, project_eq h, dot_pointAt h, clamp_eq, max_eq_right h0, min_eq_right h1]
  · intro hp
    rw [hp]
    exact covers_nearestPoint h p

/-! ### The foot of a perpendicular -/

/-- The point of the line that is straight across from `p`. -/
noncomputable def foot (s : Segment ℝ) (p : Vec ℝ) : Vec ℝ :=
  s.start + s.direction.scale ((p - s.start).dot s.direction)

theorem carries_foot (h : degenerateLength ≤ s.length) (p : Vec ℝ) : s.Carries (s.foot p) := by
  obtain ⟨hx, hy⟩ := direction_scale_length h
  have hne : s.length ≠ 0 := (length_pos h).ne'
  refine ⟨(p - s.start).dot s.direction / s.length, dividesAt_iff.mpr (Vec.eq_iff.mpr ⟨?_, ?_⟩)⟩
  · show s.start.x + s.direction.x * (p - s.start).dot s.direction =
      s.start.x + s.vector.x * ((p - s.start).dot s.direction / s.length)
    rw [← hx]
    field_simp
  · show s.start.y + s.direction.y * (p - s.start).dot s.direction =
      s.start.y + s.vector.y * ((p - s.start).dot s.direction / s.length)
    rw [← hy]
    field_simp

theorem dot_foot_sub (s : Segment ℝ) (p : Vec ℝ) : (s.foot p - p).dot s.direction = 0 := by
  have hunit := s.direction_mul_self
  show (s.start.x + s.direction.x * ((p.x - s.start.x) * s.direction.x +
        (p.y - s.start.y) * s.direction.y) - p.x) * s.direction.x +
      (s.start.y + s.direction.y * ((p.x - s.start.x) * s.direction.x +
        (p.y - s.start.y) * s.direction.y) - p.y) * s.direction.y = 0
  linear_combination ((p.x - s.start.x) * s.direction.x + (p.y - s.start.y) * s.direction.y) * hunit

/-- No other point of the line is straight across from `p`. -/
theorem eq_foot (h : degenerateLength ≤ s.length) {p q : Vec ℝ} (hq : s.Carries q)
    (hacross : (q - p).dot s.direction = 0) : q = s.foot p := by
  obtain ⟨hx, hy⟩ := direction_scale_length h
  obtain ⟨t, ht⟩ := hq
  obtain rfl := dividesAt_iff.mp ht
  have hunit := s.direction_mul_self
  have hshare : s.length * t = (p - s.start).dot s.direction := by
    have hdot : (s.start.x + s.vector.x * t - p.x) * s.direction.x +
        (s.start.y + s.vector.y * t - p.y) * s.direction.y = 0 := hacross
    rw [← hx, ← hy] at hdot
    show s.length * t = (p.x - s.start.x) * s.direction.x + (p.y - s.start.y) * s.direction.y
    linear_combination hdot - s.length * t * hunit
  refine Vec.eq_iff.mpr ⟨?_, ?_⟩
  · show s.start.x + s.vector.x * t = s.start.x + s.direction.x * (p - s.start).dot s.direction
    rw [← hshare, ← hx, mul_assoc]
  · show s.start.y + s.vector.y * t = s.start.y + s.direction.y * (p - s.start).dot s.direction
    rw [← hshare, ← hy, mul_assoc]

/-! ### The distance to a line -/

theorem lineDistance_eq (h : degenerateLength ≤ s.length) (p : Vec ℝ) :
    s.lineDistance p = |s.direction.cross (p - s.start)| := by
  have hlong : s.isDegenerate = false := decide_eq_false (not_lt.mpr h)
  rw [lineDistance, hlong]
  rfl

/-- Across the line, all its points are as far from a point. -/
theorem cross_of_carries (h : degenerateLength ≤ s.length) {p q : Vec ℝ} (hq : s.Carries q) :
    s.direction.cross (p - s.start) = s.direction.cross (p - q) := by
  obtain ⟨hx, hy⟩ := direction_scale_length h
  obtain ⟨t, ht⟩ := hq
  obtain rfl := dividesAt_iff.mp ht
  show s.direction.x * (p.y - s.start.y) - s.direction.y * (p.x - s.start.x) =
    s.direction.x * (p.y - (s.start.y + s.vector.y * t)) -
      s.direction.y * (p.x - (s.start.x + s.vector.x * t))
  rw [← hx, ← hy]
  ring

/-- A distance has a part along the line and a part across it. -/
theorem distance_mul_self (s : Segment ℝ) (p q : Vec ℝ) : p.distance q * p.distance q =
    (q - p).dot s.direction * (q - p).dot s.direction +
      s.direction.cross (p - q) * s.direction.cross (p - q) := by
  have hunit := s.direction_mul_self
  rw [Vec.distance, Vec.length_mul_self]
  show (q.x - p.x) * (q.x - p.x) + (q.y - p.y) * (q.y - p.y) =
    ((q.x - p.x) * s.direction.x + (q.y - p.y) * s.direction.y) *
        ((q.x - p.x) * s.direction.x + (q.y - p.y) * s.direction.y) +
      (s.direction.x * (p.y - q.y) - s.direction.y * (p.x - q.x)) *
        (s.direction.x * (p.y - q.y) - s.direction.y * (p.x - q.x))
  linear_combination -((q.x - p.x) * (q.x - p.x) + (q.y - p.y) * (q.y - p.y)) * hunit

theorem isLineDistance_lineDistance (h : degenerateLength ≤ s.length) (p : Vec ℝ) :
    s.IsLineDistance p (s.lineDistance p) := by
  constructor
  · refine ⟨s.foot p, carries_foot h p, ?_⟩
    have hdistance := s.distance_mul_self p (s.foot p)
    rw [dot_foot_sub, mul_zero, zero_add, mul_self_eq_mul_self_iff, ← abs_eq_abs] at hdistance
    rw [lineDistance_eq h, cross_of_carries h (carries_foot h p), ← hdistance]
    exact abs_of_nonneg (Vec.length_nonneg _)
  · rintro d ⟨q, hq, rfl⟩
    rw [lineDistance_eq h, cross_of_carries h hq]
    refine abs_le_of_sq_le_sq ?_ (Vec.length_nonneg _)
    have hdistance := s.distance_mul_self p q
    have halong := mul_self_nonneg ((q - p).dot s.direction)
    rw [sq, sq]
    linarith

theorem isLineDistance_iff (h : degenerateLength ≤ s.length) {p : Vec ℝ} {d : ℝ} :
    s.IsLineDistance p d ↔ s.lineDistance p = d :=
  ⟨fun hd => (isLineDistance_lineDistance h p).unique hd,
    fun hd => hd ▸ isLineDistance_lineDistance h p⟩

/-! ### Reflection -/

theorem reflect_eq (s : Segment ℝ) (p : Vec ℝ) :
    s.reflect p = ⟨2 * (s.foot p).x - p.x, 2 * (s.foot p).y - p.y⟩ := by
  refine Vec.eq_iff.mpr ⟨?_, ?_⟩
  · show s.start.x + s.direction.x * ((p - s.start).dot s.direction) * 2.0 - (p.x - s.start.x) =
      2 * (s.start.x + s.direction.x * (p - s.start).dot s.direction) - p.x
    norm_num
    ring
  · show s.start.y + s.direction.y * ((p - s.start).dot s.direction) * 2.0 - (p.y - s.start.y) =
      2 * (s.start.y + s.direction.y * (p - s.start).dot s.direction) - p.y
    norm_num
    ring

theorem reflect_iff {p q : Vec ℝ} :
    q = s.reflect p ↔ (s.foot p).IsHalfway p q := by
  rw [Vec.isHalfway_iff, Vec.eq_iff, reflect_eq]
  dsimp only
  constructor
  · rintro ⟨hqx, hqy⟩
    exact ⟨by linarith, by linarith⟩
  · rintro ⟨hqx, hqy⟩
    exact ⟨by linarith, by linarith⟩

/-- Reflecting gives the mirror image and nothing else does. -/
theorem mirrors_iff (h : degenerateLength ≤ s.length) {p q : Vec ℝ} :
    s.Mirrors p q ↔ q = s.reflect p := by
  rw [reflect_iff]
  constructor
  · rintro ⟨⟨m, hm, hhalfway⟩, hacross⟩
    obtain ⟨hmx, hmy⟩ := Vec.isHalfway_iff.mp hhalfway
    -- halfway to a point straight across is straight across too, so it is the foot
    have hright : (m - p).dot s.direction = 0 := by
      rw [dot_vector h] at hacross
      have hdot : (q.x - p.x) * s.direction.x + (q.y - p.y) * s.direction.y = 0 :=
        (mul_eq_zero.mp hacross).resolve_right (length_pos h).ne'
      show (m.x - p.x) * s.direction.x + (m.y - p.y) * s.direction.y = 0
      linear_combination hdot / 2 + s.direction.x / 2 * hmx + s.direction.y / 2 * hmy
    rw [← eq_foot h hm hright]
    exact hhalfway
  · intro hhalfway
    obtain ⟨hx, hy⟩ := Vec.isHalfway_iff.mp hhalfway
    refine ⟨⟨s.foot p, carries_foot h p, hhalfway⟩, ?_⟩
    have hright : ((s.foot p).x - p.x) * s.direction.x + ((s.foot p).y - p.y) * s.direction.y = 0 :=
      s.dot_foot_sub p
    have hdot : (q - p).dot s.direction = 0 := by
      show (q.x - p.x) * s.direction.x + (q.y - p.y) * s.direction.y = 0
      linear_combination 2 * hright - s.direction.x * hx - s.direction.y * hy
    rw [dot_vector h, hdot, zero_mul]

end Segment

/-! ### Circles -/

namespace CircleShape

theorem length_direction_scale (v : Vec ℝ) (r : ℝ) : (v.direction.scale r).length = |r| := by
  have hunit : v.direction.x * v.direction.x + v.direction.y * v.direction.y = 1 :=
    v.dot_direction_self
  have hsquare : v.direction.x * r * (v.direction.x * r) + v.direction.y * r * (v.direction.y * r) =
      r * r := by
    linear_combination r * r * hunit
  rw [Vec.length_eq]
  show Real.sqrt (v.direction.x * r * (v.direction.x * r) +
    v.direction.y * r * (v.direction.y * r)) = |r|
  rw [hsquare, Real.sqrt_mul_self_eq_abs]

/-- The signed distance vanishes on the circle and nowhere else. -/
theorem signedDistance_eq_zero_iff {c : CircleShape ℝ} (h : degenerateLength ≤ c.radius)
    {p : Vec ℝ} : c.signedDistance p = 0 ↔ p.distance c.center = c.radius := by
  have hnearest : c.signedDistance p = 0 ↔ p = c.nearestPoint p := by
    rw [← Vec.distance_eq_zero_iff]
    unfold signedDistance
    split
    · exact neg_eq_zero
    · exact Iff.rfl
  have hradius : 0 ≤ c.radius := le_trans Vec.degenerateLength_pos.le h
  have hback : p.distance c.center = (p - c.center).length := Vec.length_sub_comm ..
  rw [hnearest, hback]
  constructor
  · intro hp
    have hway : p - c.center = (p - c.center).direction.scale c.radius := by
      rw [Vec.eq_iff] at hp ⊢
      exact ⟨sub_eq_iff_eq_add'.mpr hp.1, sub_eq_iff_eq_add'.mpr hp.2⟩
    have hlength := length_direction_scale (p - c.center) c.radius
    rwa [← hway, abs_of_nonneg hradius] at hlength
  · intro hp
    obtain ⟨hx, hy⟩ := Vec.direction_scale_length (hp ▸ h)
    rw [hp] at hx hy
    exact Vec.eq_iff.mpr ⟨(sub_eq_iff_eq_add'.mp hx.symm), (sub_eq_iff_eq_add'.mp hy.symm)⟩

end CircleShape

end PlaneSketch
