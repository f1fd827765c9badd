import PlaneSketch.Proofs.Order
import PlaneSketch.Proofs.Trials

/-!
# What a summary says

The summary of some errors (`ErrorSummary`) has the norm of them all, the largest one, and the first
constraint that has it; an error that is not finite is left out but never forgotten. A summary
within both tolerances says of every error that it is finite and within its own.
-/

namespace PlaneSketch

variable {α σ : Type} [Scalar α]

open Scalar

/-! ### Summaries -/

namespace ErrorSummary

/-- The summary of the errors of some constraints before the root is taken. -/
def measured (s : Sketch α) (constraints : List (Constraint α)) (summary : ErrorSummary α) :
    ErrorSummary α :=
  constraints.foldl (fun summary c => summary.add c (s.errorOf c.requirement)) summary

theorem nonFinite_add (summary : ErrorSummary α) (c : Constraint α) {error : α}
    (h : isFinite error = false) : (summary.add c error).nonFinite ≠ Option.none := by
  simp only [add, h, Bool.not_false, if_true]
  cases summary.nonFinite <;> nofun

theorem nonFinite_add_of_ne {summary : ErrorSummary α} (c : Constraint α) (error : α)
    (h : summary.nonFinite ≠ Option.none) : (summary.add c error).nonFinite ≠ Option.none := by
  obtain ⟨id, hid⟩ := Option.ne_none_iff_exists'.mp h
  simp only [add]
  split
  · simp [hid]
  · split <;> simp [hid]

theorem nonFinite_measured_of_ne (s : Sketch α) (constraints : List (Constraint α))
    {summary : ErrorSummary α} (h : summary.nonFinite ≠ Option.none) :
    (measured s constraints summary).nonFinite ≠ Option.none := by
  unfold measured
  induction constraints generalizing summary with
  | nil => exact h
  | cons c rest ih => exact ih (nonFinite_add_of_ne c _ h)

/-- No error that is not finite goes unnoticed. -/
theorem isFinite_of_measured {s : Sketch α} {constraints : List (Constraint α)}
    {summary : ErrorSummary α} (h : (measured s constraints summary).nonFinite = Option.none) :
    ∀ c ∈ constraints, isFinite (s.errorOf c.requirement) = true := by
  induction constraints generalizing summary with
  | nil => nofun
  | cons c rest ih =>
    intro d hd
    rcases List.mem_cons.mp hd with rfl | hrest
    · by_contra hinfinite
      rw [Bool.not_eq_true] at hinfinite
      exact nonFinite_measured_of_ne s rest (nonFinite_add summary d hinfinite) h
    · exact ih h d hrest

theorem nonFinite_measured_of_isFinite {s : Sketch α} {constraints : List (Constraint α)}
    (h : ∀ c ∈ constraints, isFinite (s.errorOf c.requirement) = true) (summary : ErrorSummary α) :
    (measured s constraints summary).nonFinite = summary.nonFinite := by
  unfold measured
  induction constraints generalizing summary with
  | nil => rfl
  | cons c rest ih =>
    have hc := h c (List.mem_cons_self ..)
    rw [List.foldl_cons, ih (fun d hd => h d (List.mem_cons_of_mem _ hd))]
    simp only [add, hc, Bool.not_true, Bool.false_eq_true, if_false]
    split <;> rfl

/-- A summary names an error that is not finite exactly when there is one. -/
theorem nonFinite_of_eq_none_iff (s : Sketch α) (constraints : List (Constraint α)) :
    (of s constraints).nonFinite = Option.none ↔
      ∀ c ∈ constraints, isFinite (s.errorOf c.requirement) = true :=
  ⟨isFinite_of_measured, fun h => nonFinite_measured_of_isFinite h none⟩

theorem aggregate_measured (s : Sketch α) {constraints : List (Constraint α)}
    (hfinite : ∀ c ∈ constraints, isFinite (s.errorOf c.requirement) = true)
    (summary : ErrorSummary α) :
    (measured s constraints summary).aggregate =
      constraints.foldl (fun total c => total +
        c.weight * s.errorOf c.requirement * (c.weight * s.errorOf c.requirement))
        summary.aggregate := by
  unfold measured
  induction constraints generalizing summary with
  | nil => rfl
  | cons c rest ih =>
    have hc := hfinite c (List.mem_cons_self ..)
    rw [List.foldl_cons, ih (fun d hd => hfinite d (List.mem_cons_of_mem _ hd)), List.foldl_cons]
    congr 1
    simp only [add, hc, Bool.not_true, Bool.false_eq_true, if_false]
    split <;> rfl

/-- The summary names the first of some constraints with the largest error. -/
inductive NamesWorst (s : Sketch α) (summary : ErrorSummary α) : List (Constraint α) → Prop where
  | nothing : summary.maxError = 0.0 → summary.worst = Option.none → NamesWorst s summary []
  | first (earlier : List (Constraint α)) (c : Constraint α) (later : List (Constraint α)) :
    summary.maxError = s.errorOf c.requirement → summary.worst = some c.id →
    (∀ d ∈ earlier, s.errorOf d.requirement < s.errorOf c.requirement) →
    (∀ d ∈ later, s.errorOf d.requirement ≤ s.errorOf c.requirement) →
    NamesWorst s summary (earlier ++ c :: later)

theorem NamesWorst.add [OrderedScalar α] {s : Sketch α} {summary : ErrorSummary α}
    {done : List (Constraint α)} (h : NamesWorst s summary done)
    (hdone : ∀ d ∈ done, isFinite (s.errorOf d.requirement) = true) {c : Constraint α}
    (hc : isFinite (s.errorOf c.requirement) = true) :
    NamesWorst s (summary.add c (s.errorOf c.requirement)) (done ++ [c]) := by
  simp only [ErrorSummary.add, hc, Bool.not_true, Bool.false_eq_true, if_false]
  cases h with
  | nothing hmax hworst =>
    simp only [hworst, Option.isNone_none, Bool.true_or, if_true]
    exact .first [] c [] rfl rfl nofun nofun
  | first earlier k later hmax hworst hearlier hlater =>
    have hk := hdone k (List.mem_append_right _ (List.mem_cons_self ..))
    simp only [hworst, hmax, Option.isNone_some, Bool.false_or, decide_eq_true_eq]
    split
    next hlt =>
      -- the new error is the largest so far, so all that came before are smaller
      refine .first (earlier ++ k :: later) c [] rfl rfl ?_ nofun
      intro d hd
      rcases List.mem_append.mp hd with hd | hd
      · exact OrderedScalar.lt_of_le_of_lt (OrderedScalar.le_of_lt (hearlier d hd)) hlt
      · rcases List.mem_cons.mp hd with rfl | hd
        · exact hlt
        · exact OrderedScalar.lt_of_le_of_lt (hlater d hd) hlt
    next hnot =>
      rw [List.append_assoc, List.cons_append]
      refine .first earlier k (later ++ [c]) rfl rfl hearlier ?_
      intro d hd
      rcases List.mem_append.mp hd with hd | hd
      · exact hlater d hd
      · rw [List.mem_singleton.mp hd]
        exact OrderedScalar.le_of_not_lt hk hc hnot

theorem NamesWorst.measured [OrderedScalar α] {s : Sketch α} {summary : ErrorSummary α}
    {done rest : List (Constraint α)} (h : NamesWorst s summary done)
    (hfinite : ∀ d ∈ done ++ rest, isFinite (s.errorOf d.requirement) = true) :
    NamesWorst s (measured s rest summary) (done ++ rest) := by
  induction rest generalizing summary done with
  | nil => rwa [List.append_nil]
  | cons c rest ih =>
    rw [List.append_cons] at hfinite ⊢
    refine ih (h.add ?_ ?_) hfinite
    · intro d hd
      exact hfinite d (List.mem_append_left _ (List.mem_append_left _ hd))
    · exact hfinite c (List.mem_append_left _ (List.mem_append_right _ (List.mem_singleton_self c)))

/-- A summary without an error that is not finite is about all errors. -/
theorem of_sound [OrderedScalar α] {s : Sketch α} {constraints : List (Constraint α)}
    (h : (of s constraints).nonFinite = Option.none) :
    (∀ c ∈ constraints, isFinite (s.errorOf c.requirement) = true) ∧
      (of s constraints).aggregate = sqrt (constraints.foldl (fun total c => total +
        c.weight * s.errorOf c.requirement * (c.weight * s.errorOf c.requirement)) 0.0) ∧
      NamesWorst s (of s constraints) constraints := by
  have hmeasured : (measured s constraints none).nonFinite = Option.none := h
  have hfinite := isFinite_of_measured hmeasured
  refine ⟨hfinite, congrArg sqrt (aggregate_measured s hfinite none), ?_⟩
  have hworst : NamesWorst s (measured s constraints none) ([] ++ constraints) :=
    (NamesWorst.nothing rfl rfl).measured hfinite
  cases hworst with
  | nothing hmax hworst => exact .nothing hmax hworst
  | first earlier k later hmax hworst hearlier hlater =>
    exact .first earlier k later hmax hworst hearlier hlater

/-- No error is above the largest one. -/
theorem NamesWorst.lt_of_maxError_lt [OrderedScalar α] {s : Sketch α} {summary : ErrorSummary α}
    {constraints : List (Constraint α)} (h : NamesWorst s summary constraints) {bound : α}
    (hbound : summary.maxError < bound) : ∀ c ∈ constraints, s.errorOf c.requirement < bound := by
  cases h with
  | nothing => nofun
  | first earlier k later hmax _ hearlier hlater =>
    rw [hmax] at hbound
    intro d hd
    rcases List.mem_append.mp hd with hd | hd
    · exact OrderedScalar.lt_of_le_of_lt (OrderedScalar.le_of_lt (hearlier d hd)) hbound
    · rcases List.mem_cons.mp hd with rfl | hd
      · exact hbound
      · exact OrderedScalar.lt_of_le_of_lt (hlater d hd) hbound

end ErrorSummary

/-- The errors of the active constraints are finite and within both tolerances. -/
structure Sketch.Meets (s : Sketch α) (c : SolveConfig α) : Prop where
  finite : ∀ k ∈ s.active, isFinite (s.errorOf k.requirement) = true
  weighted : sqrt (s.active.foldl (fun total k => total +
    k.weight * s.errorOf k.requirement * (k.weight * s.errorOf k.requirement)) 0.0) <
      c.aggregateTolerance
  each : ∀ k ∈ s.active, s.errorOf k.requirement < c.maxErrorTolerance
  /-- Without a constraint the largest error is zero. -/
  nothing : s.active = [] → 0.0 < c.maxErrorTolerance

theorem Sketch.meets_iff [OrderedScalar α] (s : Sketch α) (c : SolveConfig α) :
    s.Meets c ↔ (ErrorSummary.of s s.active).nonFinite = none ∧
      c.accepts (ErrorSummary.of s s.active).aggregate (ErrorSummary.of s s.active).maxError =
        true := by
  simp only [SolveConfig.accepts, Bool.and_eq_true, decide_eq_true_eq]
  constructor
  · rintro ⟨hfinite, hweighted, heach, hnothing⟩
    have hnone := (ErrorSummary.nonFinite_of_eq_none_iff s s.active).mpr hfinite
    obtain ⟨-, haggregate, hworst⟩ := ErrorSummary.of_sound hnone
    rw [haggregate]
    refine ⟨hnone, hweighted, ?_⟩
    generalize s.active = active at hworst heach hnothing
    cases hworst with
    | nothing hmax => exact hmax ▸ hnothing rfl
    | first earlier k later hmax =>
      exact hmax ▸ heach k (List.mem_append_right _ (List.mem_cons_self ..))
  · rintro ⟨hnone, hweighted, hmax⟩
    obtain ⟨hfinite, haggregate, hworst⟩ := ErrorSummary.of_sound hnone
    refine ⟨hfinite, haggregate ▸ hweighted, hworst.lt_of_maxError_lt hmax, ?_⟩
    intro hactive
    rw [hactive] at hmax
    exact hmax

/-! ### A drawing to be levelled -/

/-- A fixed point, a movable one above its level, the line between them, which is to be horizontal,
and a circle round the fixed point. -/
def Sketch.slanted : Sketch Float :=
  let s := ((empty "slanted").addFixedPoint ⟨0.0, 0.0⟩).2
  let s := (s.addPoint ⟨1.0, 0.5⟩).2
  let s := (s.addLine ⟨0⟩ ⟨1⟩).2
  let s := (s.addCircle ⟨0⟩ 5.0).2
  (s.addConstraint (.horizontal ⟨2⟩)).2

end PlaneSketch
