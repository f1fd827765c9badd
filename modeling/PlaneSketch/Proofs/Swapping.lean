import PlaneSketch.Proofs.Euclid
import PlaneSketch.Proofs.Targets

/-!
# Swapped arguments

A requirement between two points, two lines or two curves has the same error whichever of them is
named first, also where one of them is not there or a line has no length. A mirror image taken twice
is the point itself, and mirroring keeps distances; so two points miss each other's mirror image by
the same. That is why targets may be looked up by the sorted pair (`ordered`).
-/

namespace PlaneSketch

open Scalar

/-- The requirement with its two entities of one kind in the other order, if it treats them
alike. -/
def Requirement.swapped {α : Type} : Requirement α → Requirement α
  | .coincident p q => .coincident q p
  | .parallel k l => .parallel l k
  | .perpendicular k l => .perpendicular l k
  | .equalLength k l => .equalLength l k
  | .concentric c d => .concentric d c
  | .equalRadius c d => .equalRadius d c
  | .symmetric p q l => .symmetric q p l
  | .distance p q value => .distance q p value
  | .horizontalDistance p q value => .horizontalDistance q p value
  | .verticalDistance p q value => .verticalDistance q p value
  | .angle k l value => .angle l k value
  | r => r

/-! ### Reflection -/

namespace Segment

theorem reflect_sub_start_dot (s : Segment ℝ) (p : Vec ℝ) :
    (s.reflect p - s.start).dot s.direction = (p - s.start).dot s.direction := by
  have hunit := s.direction_mul_self
  rw [reflect_eq]
  show (2 * (s.start.x + s.direction.x * (p - s.start).dot s.direction) - p.x - s.start.x) *
        s.direction.x +
      (2 * (s.start.y + s.direction.y * (p - s.start).dot s.direction) - p.y - s.start.y) *
        s.direction.y = (p - s.start).dot s.direction
  have halong : (p - s.start).dot s.direction =
      (p.x - s.start.x) * s.direction.x + (p.y - s.start.y) * s.direction.y := rfl
  linear_combination 2 * (p - s.start).dot s.direction * hunit + halong

theorem foot_reflect (s : Segment ℝ) (p : Vec ℝ) : s.foot (s.reflect p) = s.foot p := by
  rw [foot, reflect_sub_start_dot, foot]

theorem reflect_reflect (s : Segment ℝ) (p : Vec ℝ) : s.reflect (s.reflect p) = p := by
  rw [reflect_eq, foot_reflect, reflect_eq]
  exact Vec.eq_iff.mpr ⟨sub_sub_cancel .., sub_sub_cancel ..⟩

/-- Mirroring turns a way around across the axis and keeps it along the axis. -/
theorem distance_reflect (s : Segment ℝ) (p q : Vec ℝ) :
    (s.reflect p).distance (s.reflect q) = p.distance q := by
  have hunit := s.direction_mul_self
  have halong : (s.reflect q - s.reflect p).dot s.direction = (q - p).dot s.direction := by
    have hp := s.reflect_sub_start_dot p
    have hq := s.reflect_sub_start_dot q
    simp only [Vec.dot, Vec.sub_x, Vec.sub_y] at hp hq ⊢
    linear_combination hq - hp
  have hacross : s.direction.cross (s.reflect p - s.reflect q) = -s.direction.cross (p - q) := by
    rw [reflect_eq, reflect_eq]
    simp only [Vec.cross, Vec.sub_x, Vec.sub_y, foot, Vec.add_x, Vec.add_y, Vec.scale]
    ring
  refine (mul_self_inj (Vec.length_nonneg _) (Vec.length_nonneg _)).mp ?_
  show (s.reflect p).distance (s.reflect q) * (s.reflect p).distance (s.reflect q) =
    p.distance q * p.distance q
  rw [distance_mul_self, distance_mul_self, halong, hacross, neg_mul_neg]

/-- Each of two points misses the mirror image of the other by the same. -/
theorem length_sub_reflect (s : Segment ℝ) (p q : Vec ℝ) :
    (q - s.reflect p).length = (p - s.reflect q).length := by
  calc (q - s.reflect p).length
      = (s.reflect p).distance q := rfl
    _ = (s.reflect p).distance (s.reflect (s.reflect q)) := by rw [reflect_reflect]
    _ = p.distance (s.reflect q) := distance_reflect ..
    _ = (p - s.reflect q).length := Vec.length_sub_comm ..

end Segment

namespace Sketch

/-! ### Residuals as a whole -/

/-- The norm of some residuals; where they are missing, the error of what does not resolve. -/
noncomputable def overall : Except EntityRef (List ℝ) → ℝ
  | .ok residuals => sqrt (sum (residuals.map fun x => x * x))
  | .error _ => unresolvedError

theorem overall_components (s : Sketch ℝ) (r : Requirement ℝ) :
    overall (s.components r) = s.errorOf r := by
  unfold overall errorOf
  cases s.components r <;> rfl

theorem overall_single (v : ℝ) : overall (pure [v]) = |v| := by
  show Real.sqrt (sum [v * v]) = |v|
  rw [sum_eq_sum, List.sum_singleton, Real.sqrt_mul_self_eq_abs]

theorem overall_vec (v : Vec ℝ) : overall (pure v.toList) = v.length := by
  show Real.sqrt (sum [v.x * v.x, v.y * v.y]) = v.length
  rw [sum_eq_sum, Vec.length_eq, List.sum_pair]

theorem overall_bind {β : Type} {x : Except EntityRef β} {f g : β → Except EntityRef (List ℝ)}
    (h : ∀ b, overall (f b) = overall (g b)) : overall (x >>= f) = overall (x >>= g) := by
  cases x with
  | error => rfl
  | ok b => exact h b

/-- It does not matter which of two entities is looked up first. -/
theorem overall_bind_comm {β γ : Type} {x : Except EntityRef β} {y : Except EntityRef γ}
    {f : β → γ → Except EntityRef (List ℝ)} {g : γ → β → Except EntityRef (List ℝ)}
    (h : ∀ b c, overall (f b c) = overall (g c b)) :
    overall (x >>= fun b => y >>= f b) = overall (y >>= fun c => x >>= g c) := by
  cases x with
  | error => cases y <;> rfl
  | ok b =>
    cases y with
    | error => rfl
    | ok c => exact h b c

/-! ### Requirements -/

theorem errorOf_swapped (s : Sketch ℝ) (r : Requirement ℝ) : s.errorOf r.swapped = s.errorOf r := by
  rw [← overall_components, ← overall_components]
  cases r with
  | coincident | concentric =>
    refine overall_bind_comm fun a b => ?_
    rw [overall_vec, overall_vec, Vec.length_sub_comm]
  | parallel =>
    refine overall_bind_comm fun a b => ?_
    rw [overall_single, overall_single, ← abs_neg]
    congr 1
    show -(a.direction.x * b.direction.y - a.direction.y * b.direction.x) =
      b.direction.x * a.direction.y - b.direction.y * a.direction.x
    ring
  | perpendicular =>
    refine overall_bind_comm fun a b => ?_
    rw [overall_single, overall_single, Vec.dot_comm]
  | equalLength | equalRadius =>
    refine overall_bind_comm fun a b => ?_
    rw [overall_single, overall_single, abs_sub_comm]
  | symmetric =>
    refine overall_bind fun axis => overall_bind_comm fun a b => ?_
    rw [overall_vec, overall_vec, Segment.length_sub_reflect]
  | distance =>
    refine overall_bind_comm fun a b => ?_
    rw [Vec.length_sub_comm]
  | horizontalDistance | verticalDistance =>
    refine overall_bind_comm fun a b => ?_
    rw [show Scalar.abs (_ - _ : ℝ) = _ from abs_sub_comm _ _]
    rfl
  | angle =>
    refine overall_bind_comm fun a b => ?_
    rw [Vec.angleBetween_comm]
  | fixed | horizontal | vertical | pointOnLine | midpoint | tangent | pointOnCircle | length
  | radius | diameter => rfl

theorem target?_swapped (s : Sketch ℝ) (r : Requirement ℝ) : s.target? r.swapped = s.target? r := by
  cases r with
  | coincident p q | distance p q | horizontalDistance p q | verticalDistance p q =>
    simp only [Requirement.swapped, target?, orderedPoints,
      orderedPair_comm PointId.raw_injective p q]
  | angle k l =>
    simp only [Requirement.swapped, target?, orderedLines,
      orderedPair_comm LineId.raw_injective k l]
  | _ => rfl

/-- Exchanging the two entities of one kind changes neither the error of a requirement nor the
quantity that it has a target for. For the symmetric kind this rests on the mirror image, which is
its own inverse and keeps distances, whatever the axis. -/
theorem swapped_alike :
    (∀ (s : Sketch ℝ) (r : Requirement ℝ),
      s.errorOf r.swapped = s.errorOf r ∧ s.target? r.swapped = s.target? r) ∧
    ∀ (axis : Segment ℝ) (p q : Vec ℝ),
      axis.reflect (axis.reflect p) = p ∧
        (axis.reflect p).distance (axis.reflect q) = p.distance q :=
  ⟨fun s r => ⟨s.errorOf_swapped r, s.target?_swapped r⟩,
    fun axis p q => ⟨axis.reflect_reflect p, axis.distance_reflect p q⟩⟩

end Sketch

end PlaneSketch
