import Mathlib.Analysis.SpecialFunctions.Complex.Arg
import PlaneSketch.Proofs.Residuals

/-!
# Exact arithmetic

The real numbers are scalars. Over them lengths are symmetric, every direction is a unit vector,
that of a degenerate line included, and the error of a requirement vanishes exactly when it resolves
and all its residuals vanish.
-/

namespace PlaneSketch

open Scalar

noncomputable instance : Scalar ℝ where
  ltDecidable := Classical.decRel _
  leDecidable := Classical.decRel _
  sqrt := Real.sqrt
  abs v := |v|
  atan2 y x := Complex.arg ⟨x, y⟩
  degreesPerRadian := 180 / Real.pi
  isFinite _ := true

namespace Scalar

theorem larger_eq_max (a b : ℝ) : larger a b = max a b := by
  unfold larger
  split
  next h => exact (max_eq_left h).symm
  next h => rw [if_pos (le_of_not_ge h), max_eq_right (le_of_not_ge h)]

theorem foldl_add_eq (start : ℝ) (xs : List ℝ) : xs.foldl (· + ·) start = start + xs.sum := by
  induction xs generalizing start with
  | nil => exact (add_zero start).symm
  | cons x xs ih => rw [List.foldl_cons, ih, List.sum_cons, add_assoc]

theorem sum_eq_sum (xs : List ℝ) : sum xs = xs.sum := by
  unfold sum
  rw [foldl_add_eq]
  norm_num

theorem sum_squares_nonneg (xs : List ℝ) : 0 ≤ (xs.map fun x => x * x).sum := by
  refine List.sum_nonneg ?_
  intro y hy
  obtain ⟨x, -, rfl⟩ := List.mem_map.mp hy
  exact mul_self_nonneg x

theorem sum_squares_eq_zero_iff (xs : List ℝ) :
    (xs.map fun x => x * x).sum = 0 ↔ ∀ x ∈ xs, x = 0 := by
  induction xs with
  | nil => simp
  | cons x xs ih =>
    rw [List.map_cons, List.sum_cons, List.forall_mem_cons, ← ih,
      add_eq_zero_iff_of_nonneg (mul_self_nonneg x) (sum_squares_nonneg xs), mul_self_eq_zero]

end Scalar

namespace Vec

theorem length_eq (v : Vec ℝ) : v.length = Real.sqrt (v.x * v.x + v.y * v.y) := rfl

theorem length_sub_comm (a b : Vec ℝ) : (a - b).length = (b - a).length := by
  show Real.sqrt ((a.x - b.x) * (a.x - b.x) + (a.y - b.y) * (a.y - b.y)) =
    Real.sqrt ((b.x - a.x) * (b.x - a.x) + (b.y - a.y) * (b.y - a.y))
  congr 1
  ring

theorem length_eq_zero {v : Vec ℝ} (hx : v.x = 0) (hy : v.y = 0) : v.length = 0 := by
  rw [length_eq, hx, hy]
  simp

theorem length_self_sub (v : Vec ℝ) : (v - v).length = 0 :=
  length_eq_zero (sub_self v.x) (sub_self v.y)

theorem eq_of_sub_toList {a b : Vec ℝ} (h : ∀ x ∈ (a - b).toList, x = 0) : a = b := by
  have hx : a.x - b.x = 0 := h _ (List.mem_cons_self ..)
  have hy : a.y - b.y = 0 := h _ (List.mem_cons_of_mem _ (List.mem_singleton_self _))
  obtain ⟨_, _⟩ := a
  obtain ⟨_, _⟩ := b
  rw [Vec.mk.injEq]
  exact ⟨sub_eq_zero.mp hx, sub_eq_zero.mp hy⟩

theorem dot_comm (a b : Vec ℝ) : a.dot b = b.dot a := by
  show a.x * b.x + a.y * b.y = b.x * a.x + b.y * a.y
  ring

theorem dot_mul_self_add_cross_mul_self (a b : Vec ℝ) :
    a.dot b * a.dot b + a.cross b * a.cross b = a.dot a * b.dot b := by
  show (a.x * b.x + a.y * b.y) * (a.x * b.x + a.y * b.y) +
      (a.x * b.y - a.y * b.x) * (a.x * b.y - a.y * b.x) =
    (a.x * a.x + a.y * a.y) * (b.x * b.x + b.y * b.y)
  ring

/-- A direction has length one. That of a vector without a direction is an axis. -/
theorem dot_direction_self (v : Vec ℝ) : v.direction.dot v.direction = 1 := by
  unfold direction
  split
  next =>
    show (1.0 : ℝ) * 1.0 + 0.0 * 0.0 = 1
    norm_num
  next hlong =>
    have hpositive : 0 < v.length := by
      refine lt_of_lt_of_le ?_ (not_lt.mp hlong)
      show (0 : ℝ) < 1e-12
      norm_num
    have hsquare : v.length * v.length = v.x * v.x + v.y * v.y :=
      Real.mul_self_sqrt (add_nonneg (mul_self_nonneg _) (mul_self_nonneg _))
    show v.x / v.length * (v.x / v.length) + v.y / v.length * (v.y / v.length) = 1
    rw [div_mul_div_comm, div_mul_div_comm, ← add_div, ← hsquare]
    exact div_self (mul_pos hpositive hpositive).ne'

theorem direction_cross_ne_zero_or (a b : Vec ℝ) :
    a.direction.cross b.direction ≠ 0 ∨ a.direction.dot b.direction ≠ 0 := by
  by_contra hboth
  push Not at hboth
  have hidentity := dot_mul_self_add_cross_mul_self a.direction b.direction
  rw [hboth.1, hboth.2, dot_direction_self, dot_direction_self] at hidentity
  norm_num at hidentity

theorem angleBetween_comm (a b : Vec ℝ) : a.angleBetween b = b.angleBetween a := by
  have hcross : Scalar.abs (a.cross b) = Scalar.abs (b.cross a) := by
    show |a.x * b.y - a.y * b.x| = |b.x * a.y - b.y * a.x|
    rw [abs_sub_comm, mul_comm b.x, mul_comm b.y]
  unfold angleBetween
  rw [dot_comm, hcross]

end Vec

/-- Without rounding, no error means that the requirement holds. -/
theorem Sketch.errorOf_eq_zero_iff (s : Sketch ℝ) (r : Requirement ℝ) :
    s.errorOf r = 0 ↔ ∃ residuals, s.components r = .ok residuals ∧ ∀ x ∈ residuals, x = 0 := by
  unfold errorOf
  cases s.components r with
  | error =>
    refine iff_of_false ?_ (fun ⟨_, h, _⟩ => nomatch h)
    show (1.0e6 : ℝ) ≠ 0
    norm_num
  | ok residuals =>
    dsimp only
    rw [sum_eq_sum]
    show Real.sqrt _ = 0 ↔ _
    rw [Real.sqrt_eq_zero (sum_squares_nonneg residuals), sum_squares_eq_zero_iff]
    exact ⟨fun h => ⟨residuals, rfl, h⟩, fun ⟨_, h, hzero⟩ => Except.ok.inj h ▸ hzero⟩

namespace Sketch

variable {s : Sketch ℝ} {r : Requirement ℝ}

theorem exists_segment_of_errorOf_eq_zero {l : LineId} {f : Segment ℝ → ℝ}
    (hr : s.components r = (do return [f (← s.resolveLine l)])) (h : s.errorOf r = 0) :
    ∃ segment, s.segment? l = some segment ∧ f segment = 0 := by
  obtain ⟨residuals, hcomponents, hzero⟩ := (s.errorOf_eq_zero_iff r).mp h
  rw [hr, bind_eq_ok_iff_exists] at hcomponents
  obtain ⟨segment, hsegment, hresiduals⟩ := hcomponents
  cases hresiduals
  exact ⟨segment, resolveLine_eq_ok_iff.mp hsegment, hzero _ (List.mem_singleton_self _)⟩

theorem exists_segments_of_errorOf_eq_zero {k l : LineId} {f : Segment ℝ → Segment ℝ → ℝ}
    (hr : s.components r = (do return [f (← s.resolveLine k) (← s.resolveLine l)]))
    (h : s.errorOf r = 0) :
    ∃ first second, s.segment? k = some first ∧ s.segment? l = some second ∧
      f first second = 0 := by
  obtain ⟨residuals, hcomponents, hzero⟩ := (s.errorOf_eq_zero_iff r).mp h
  rw [hr, bind_eq_ok_iff_exists] at hcomponents
  obtain ⟨first, hfirst, hcomponents⟩ := hcomponents
  rw [bind_eq_ok_iff_exists] at hcomponents
  obtain ⟨second, hsecond, hresiduals⟩ := hcomponents
  cases hresiduals
  exact ⟨first, second, resolveLine_eq_ok_iff.mp hfirst, resolveLine_eq_ok_iff.mp hsecond,
    hzero _ (List.mem_singleton_self _)⟩

end Sketch

end PlaneSketch
