import PlaneSketch.Proofs.Classification
import PlaneSketch.Proofs.Descent
import PlaneSketch.Proofs.Exact
import PlaneSketch.Proofs.LeftOut
import PlaneSketch.Proofs.Locating
import PlaneSketch.Proofs.Success

/-!
# Aggregate errors

Without rounding, the error that a result states, the norm that ends the rounds (`constraint_norm`)
and the total error of the drawing (`total_error`) are one number. The error that is reported on the
way is the norm of the residuals (`aggregate_error`). It is the same number too, unless a constraint
with two components cannot be resolved: its error is counted once where errors are added up, and
once for each component among the residuals.
-/

namespace PlaneSketch

open Scalar

/-! ### Norms -/

namespace Scalar

theorem sumByEights_eq (s₀ s₁ s₂ s₃ s₄ s₅ s₆ s₇ : ℝ) (xs : List ℝ) :
    sumByEights s₀ s₁ s₂ s₃ s₄ s₅ s₆ s₇ xs = s₀ + s₁ + s₂ + s₃ + s₄ + s₅ + s₆ + s₇ + xs.sum := by
  fun_induction sumByEights s₀ s₁ s₂ s₃ s₄ s₅ s₆ s₇ xs with
  | case1 s₀ s₁ s₂ s₃ s₄ s₅ s₆ s₇ t₀ t₁ t₂ t₃ t₄ t₅ t₆ t₇ rest ih =>
    rw [ih]
    simp only [List.sum_cons]
    ring
  | case2 s₀ s₁ s₂ s₃ s₄ s₅ s₆ s₇ rest =>
    rw [foldl_add_eq]
    norm_num
    ring

theorem norm_eq (xs : List ℝ) : norm xs = Real.sqrt (xs.map fun x => x * x).sum := by
  have hzero : (0.0 : ℝ) = 0 := by norm_num
  show Real.sqrt (dot xs xs) = _
  rw [dot, sumByEights_eq, List.zipWith_self, hzero]
  congr 1
  ring

end Scalar

/-! ### One constraint -/

theorem Requirement.componentCount_cases {α : Type} (r : Requirement α) :
    r.componentCount = 1 ∨ r.componentCount = 2 := by
  cases r <;> first | exact Or.inl rfl | exact Or.inr rfl

namespace Constraint

/-- The constraint cannot be resolved, and its requirement has two components. -/
def CountsTwice {α : Type} [Scalar α] (s : Sketch α) (c : Constraint α) : Prop :=
  c.requirement.componentCount = 2 ∧ ∃ missing, s.components c.requirement = .error missing

/-- How much more the squares of the components come to than the square of the error. -/
noncomputable def excess (s : Sketch ℝ) (c : Constraint ℝ) : ℝ :=
  match s.components c.requirement with
  | .ok _ => 0
  | .error _ => (c.requirement.componentCount - 1) * (c.weight * unresolvedError) ^ 2

variable (s : Sketch ℝ) (c : Constraint ℝ)

theorem sum_sq_weightedComponents : ((c.weightedComponents s).map fun r => r * r).sum =
    c.weight * s.errorOf c.requirement * (c.weight * s.errorOf c.requirement) + c.excess s := by
  unfold weightedComponents excess Sketch.errorOf
  cases s.components c.requirement with
  | ok residuals =>
    have hsquares : ((residuals.map (· * c.weight)).map fun r => r * r).sum =
        c.weight * c.weight * (residuals.map fun r => r * r).sum := by
      rw [List.map_map, ← List.sum_map_mul_left]
      refine congrArg List.sum (List.map_congr_left fun r _ => ?_)
      exact mul_mul_mul_comm r c.weight r c.weight |>.trans (mul_comm _ _)
    have hroot : Real.sqrt (residuals.map fun r => r * r).sum *
        Real.sqrt (residuals.map fun r => r * r).sum = (residuals.map fun r => r * r).sum :=
      Real.mul_self_sqrt (sum_squares_nonneg residuals)
    show ((residuals.map (· * c.weight)).map fun r => r * r).sum =
      c.weight * Real.sqrt (sum _) * (c.weight * Real.sqrt (sum _)) + 0
    rw [hsquares, sum_eq_sum, add_zero]
    linear_combination -(c.weight * c.weight) * hroot
  | error missing =>
    dsimp only
    rw [List.map_replicate, List.map_replicate, List.sum_replicate, nsmul_eq_mul]
    ring

theorem excess_nonneg : 0 ≤ c.excess s := by
  unfold excess
  split
  · exact le_refl 0
  · rcases c.requirement.componentCount_cases with hcount | hcount
    · rw [hcount]
      simp
    · rw [hcount]
      refine mul_nonneg ?_ (sq_nonneg _)
      norm_num

theorem excess_eq_zero_iff : c.excess s = 0 ↔ (c.CountsTwice s → c.weight = 0) := by
  have hlarge : (unresolvedError : ℝ) ≠ 0 := by
    show (1.0e6 : ℝ) ≠ 0
    norm_num
  unfold excess CountsTwice
  cases s.components c.requirement with
  | ok => exact iff_of_true rfl fun ⟨_, _, h⟩ => nomatch h
  | error missing =>
    dsimp only
    rcases c.requirement.componentCount_cases with hcount | hcount
    · rw [hcount]
      simp
    · rw [hcount]
      norm_num [hlarge]

end Constraint

/-! ### All constraints -/

theorem ErrorSummary.aggregate_of (s : Sketch ℝ) (constraints : List (Constraint ℝ)) :
    (ErrorSummary.of s constraints).aggregate = s.weightedError constraints := by
  have hfold := foldl_add_eq 0.0 (constraints.map fun c =>
    c.weight * s.errorOf c.requirement * (c.weight * s.errorOf c.requirement))
  rw [List.foldl_map] at hfold
  have hzero : (0.0 : ℝ) = 0 := by norm_num
  show Real.sqrt (measured s constraints none).aggregate = Real.sqrt (sum _)
  rw [aggregate_measured s (fun _ _ => rfl) none, sum_eq_sum]
  refine congrArg Real.sqrt (hfold.trans ?_)
  rw [hzero, zero_add]

theorem Sketch.weightedError_nonneg (s : Sketch ℝ) (constraints : List (Constraint ℝ)) :
    0 ≤ s.weightedError constraints :=
  Real.sqrt_nonneg _

theorem Sketch.sq_weightedError (s : Sketch ℝ) (constraints : List (Constraint ℝ)) :
    s.weightedError constraints ^ 2 = (constraints.map fun c =>
      c.weight * s.errorOf c.requirement * (c.weight * s.errorOf c.requirement)).sum := by
  show Real.sqrt (sum _) ^ 2 = _
  rw [sum_eq_sum, Real.sq_sqrt]
  refine List.sum_nonneg fun e he => ?_
  obtain ⟨c, -, rfl⟩ := List.mem_map.mp he
  exact mul_self_nonneg _

namespace Objective

variable (o : Objective ℝ) (x : List ℝ)

/-- The norm of the residuals counts each unresolved constraint once for each component. -/
theorem aggregate_residuals : o.aggregate (o.residuals x) = Real.sqrt (o.constraintNorm x ^ 2 +
    (o.constraints.map (·.excess (o.placed x))).sum) := by
  have hsquares (s : Sketch ℝ) (constraints : List (Constraint ℝ)) :
      ((constraints.flatMap (·.weightedComponents s)).map fun r => r * r).sum =
        (constraints.map fun c =>
          c.weight * s.errorOf c.requirement * (c.weight * s.errorOf c.requirement)).sum +
        (constraints.map (·.excess s)).sum := by
    induction constraints with
    | nil => simp
    | cons c rest ih =>
      rw [List.flatMap_cons, List.map_append, List.sum_append, ih, c.sum_sq_weightedComponents]
      simp only [List.map_cons, List.sum_cons]
      ring
  rw [aggregate, take_residuals, norm_eq, constraintNorm, Sketch.sq_weightedError]
  exact congrArg Real.sqrt (hsquares (o.placed x) o.constraints)

theorem aggregate_residuals_eq_iff : o.aggregate (o.residuals x) = o.constraintNorm x ↔
    ∀ c ∈ o.constraints, c.CountsTwice (o.placed x) → c.weight = 0 := by
  have hnorm : 0 ≤ o.constraintNorm x := Sketch.weightedError_nonneg ..
  have hexcess : ∀ e ∈ o.constraints.map (·.excess (o.placed x)), 0 ≤ e := by
    intro e he
    obtain ⟨c, -, rfl⟩ := List.mem_map.mp he
    exact c.excess_nonneg _
  have hsum := List.sum_nonneg hexcess
  rw [aggregate_residuals, Real.sqrt_eq_iff_mul_self_eq (by positivity) hnorm, ← sq,
    add_eq_left]
  constructor
  · intro hzero c hc
    exact (c.excess_eq_zero_iff _).mp
      (List.all_zero_of_le_zero_le_of_sum_eq_zero hexcess hzero (List.mem_map_of_mem hc))
  · intro h
    refine List.sum_eq_zero fun e he => ?_
    obtain ⟨c, hc, rfl⟩ := List.mem_map.mp he
    exact (c.excess_eq_zero_iff _).mpr (h c hc)

end Objective

/-! ### The total error -/

/-- The norm that ends the rounds is the total error of the drawing with the values written in. -/
theorem Objective.constraintNorm_eq_totalError {α : Type} [Scalar α] (s : Sketch α)
    (slots : List Slot) (damping : α) (anchor x : List α) :
    ((Objective.of s slots s.active damping).withAnchor anchor).constraintNorm x =
      (s.withValuesAt slots x).totalError := by
  rw [Sketch.totalError, Sketch.active_of_outline (s.outline_withValuesAt slots x)]
  rfl

namespace Sketch

open Operation

/-- On lines that have their ends, valid constraints can be resolved wherever the variables are. -/
theorem Grounded.not_countsTwice {α : Type} [Scalar α] {s : Sketch α} (h : s.Grounded)
    (hs : s.WellFormed) {c : Constraint α} (hc : c.isValid s = true) (slots : List Slot)
    (x : List α) : ¬ c.CountsTwice (s.withValuesAt slots x) := by
  rintro ⟨-, missing, hmissing⟩
  have houtline := s.outline_withValuesAt slots x
  have hplaced : (s.withValuesAt slots x).WellFormed := hs.of_outline houtline.symm
  have hground := (grounded_iff.mp h).of_outline houtline.symm
  obtain ⟨hnamed, hlost⟩ := of_components_eq_error hmissing
  have hfound := contains_of_isValid hc missing hnamed
  rw [← contains_of_outline houtline] at hfound
  exact hlost (hground.locates hplaced hfound trivial)

/-- Wherever the variables of a sketch are, the norm of the constraints, the aggregate error of a
result and the total error of the drawing are one number. The norm of the residuals, which is what
is reported on the way, is larger by the components that are counted twice, and the same number
exactly when no constraint counts twice that has a weight. Where edits leave every line on points
of the sketch and the active constraints are valid, none does. -/
theorem aggregates_agree_iff (s : Sketch ℝ) (slots : List Slot) (damping : ℝ)
    (anchor x : List ℝ) :
    let o := (Objective.of s slots s.active damping).withAnchor anchor
    let placed := s.withValuesAt slots x
    o.constraintNorm x = placed.totalError ∧
    (∀ (c : SolveConfig ℝ) (freedom : Freedom) (minimizer : String) (rounds : Rounds ℝ)
      (done : Minimization ℝ), rounds.last.run.x = x → rounds.last.run.outcome = .ok done →
        (o.conclude c freedom minimizer rounds).result.errors.aggregate = placed.totalError) ∧
    (∀ (c : SolveConfig ℝ) (freedom : Freedom),
      (c.judge freedom placed).result.errors.aggregate = placed.totalError) ∧
    o.aggregate (o.residuals x) =
      Real.sqrt (placed.totalError ^ 2 + (s.active.map (·.excess placed)).sum) ∧
    (o.aggregate (o.residuals x) = placed.totalError ↔
      ∀ c ∈ s.active, c.CountsTwice placed → c.weight = 0) ∧
    (∀ ops name, s = run ops (empty name) → AllFindEnds ops (empty name) →
      (∀ c ∈ s.active, c.isValid s = true) →
        o.aggregate (o.residuals x) = placed.totalError) := by
  intro o placed
  have hnorm : o.constraintNorm x = placed.totalError :=
    Objective.constraintNorm_eq_totalError s slots damping anchor x
  have hiff := o.aggregate_residuals_eq_iff x
  rw [hnorm] at hiff
  refine ⟨hnorm, ?_, ?_, ?_, hiff, ?_⟩
  · intro c freedom minimizer rounds done hx hdone
    unfold Objective.conclude
    rw [hdone, hx, ← hnorm]
    exact ErrorSummary.aggregate_of placed s.active
  · intro c freedom
    have haggregate := ErrorSummary.aggregate_of placed placed.active
    simp only [SolveConfig.judge]
    split
    · exact haggregate
    · exact haggregate
  · rw [o.aggregate_residuals, hnorm]
    rfl
  · rintro ops name rfl hops hvalid
    have hs : (run ops (empty name)).WellFormed := wellFormed_run_empty ops name
    refine hiff.mpr fun c hc htwice => ?_
    exact absurd htwice (hops.grounded.not_countsTwice hs (hvalid c hc) slots x)

/-- A point that halves a line, which then gets an end that is not there. -/
noncomputable def halvedLost : List (Operation ℝ) :=
  [.addPoint ⟨0, 0⟩, .addPoint ⟨1, 0⟩, .addLine ⟨0⟩ ⟨1⟩, .addPoint ⟨0, 1⟩,
    .addConstraint (.midpoint ⟨3⟩ ⟨2⟩), .editLine ⟨2⟩ fun l => { l with stop := ⟨7⟩ }]

/-- What is reported on the way need not be the total error, not even where the drawing is. -/
theorem exists_aggregates_apart :
    ∃ (ops : List (Operation ℝ)) (name : String),
      let s := run ops (empty name)
      let o := Objective.of s s.slots s.active 0
      o.aggregate (o.residuals o.start) ≠ (s.withValuesAt s.slots o.start).totalError := by
  refine ⟨halvedLost, "", ?_⟩
  intro s o hsame
  let c : Constraint ℝ := ⟨⟨0⟩, .midpoint ⟨3⟩ ⟨2⟩, true, true, 1.0⟩
  have hc : c ∈ o.constraints := List.mem_singleton_self c
  have hsegment : ((o.placed o.start).segment? ⟨2⟩).isNone = true := by decide +kernel
  have htwice : c.CountsTwice (o.placed o.start) := by
    refine ⟨rfl, ?_⟩
    cases hcomponents : (o.placed o.start).components c.requirement with
    | error missing => exact ⟨missing, rfl⟩
    | ok residuals =>
      have hnamed : .line ⟨2⟩ ∈ c.requirement.references :=
        List.mem_cons_of_mem _ (List.mem_singleton_self _)
      obtain ⟨segment, hsome⟩ := locates_of_components_eq_ok hcomponents _ hnamed
      rw [hsome] at hsegment
      cases hsegment
  have hnorm : o.constraintNorm o.start = (s.withValuesAt s.slots o.start).totalError :=
    Objective.constraintNorm_eq_totalError s s.slots 0 o.anchor o.start
  have hweight : (1.0 : ℝ) = 0 :=
    (o.aggregate_residuals_eq_iff o.start).mp (hsame.trans hnorm.symm) c hc htwice
  norm_num at hweight

end Sketch

end PlaneSketch
