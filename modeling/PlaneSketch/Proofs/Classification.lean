import PlaneSketch.Proofs.Gates
import PlaneSketch.Proofs.Residuals

/-!
# Classification

What a drawing that is worth a run is called after it, told by the answers of the minimizer alone:
how the last round ended, whether another one came before it, and the errors and the gradient of the
constraints at the last values.
-/

namespace PlaneSketch

variable {α σ : Type} [Scalar α]

open Scalar

/-! ### The gradient of the constraints -/

theorem LeastSquares.jacobianColumns_eq (p : LeastSquares α) (x origin : List α) :
    p.jacobianColumns x origin =
      (probes x).map fun probe => probe.column (p.residuals probe.point) origin := by
  unfold jacobianColumns jacobianColumnsM
  simp

/-- The largest entry of the gradient of half the squared residuals at `x`. -/
def LeastSquares.steepest (p : LeastSquares α) (x : List α) : α :=
  peakAbs (gradient (p.jacobianColumns x (p.residuals x)) (p.residuals x))

theorem Constraint.length_weightedComponents (s : Sketch α) (k : Constraint α) :
    (k.weightedComponents s).length = k.requirement.componentCount := by
  unfold weightedComponents
  rw [List.length_map]
  split
  next residuals hresiduals => exact Sketch.length_components hresiduals
  next => exact List.length_replicate

namespace Objective

variable (o : Objective α)

theorem length_components (x : List α) : (o.components x).length = o.componentCount := by
  unfold components componentCount
  induction o.constraints with
  | nil => rfl
  | cons k rest ih =>
    simp only [List.flatMap_cons, List.length_append, List.map_cons, List.foldr_cons, ih,
      Constraint.length_weightedComponents]

/-- The problem without the pulls towards the anchor. -/
def constraintsAlone : LeastSquares α where
  variableCount := o.slots.length
  residualCount := o.componentCount
  residuals := o.components
  aggregate := norm

theorem take_residuals (x : List α) : (o.residuals x).take o.componentCount = o.components x := by
  rw [residuals, ← o.length_components x, List.take_left]

theorem constraintColumns_eq (x : List α) :
    o.constraintColumns x = o.constraintsAlone.jacobianColumns x (o.components x) := by
  unfold constraintColumns
  rw [LeastSquares.jacobianColumns_eq, LeastSquares.jacobianColumns_eq, List.map_map]
  refine List.map_congr_left ?_
  intro probe _
  show (probe.column (o.residuals probe.point) (o.residuals x)).take o.componentCount =
    probe.column (o.components probe.point) (o.components x)
  unfold Probe.column
  rw [List.take_zipWith, take_residuals, take_residuals]

/-- The gradient that is asked for is that of the constraints: the pulls have no part in it. -/
theorem constraintGradient_eq (x : List α) :
    o.constraintGradient x = o.constraintsAlone.steepest x := by
  unfold constraintGradient
  rw [constraintColumns_eq, take_residuals]
  rfl

end Objective

/-! ### Rounds -/

namespace Objective

variable {o : Objective α} {c : SolveConfig α} (m : Minimizer α σ)

theorem isConverged_of_carry? {carried next : Carry α} {r : Round α}
    (h : o.carry? c carried r = some next) : r.isConverged = true := by
  unfold carry? at h
  split at h
  next hconverged => exact hconverged
  next => cases h

/-- Only a converged round is followed by another. -/
theorem isConverged_earlier (more : Nat) (carried : Carry α) (state : σ) :
    ∀ r ∈ ((o.rounds m c more carried).run state).1.earlier, r.isConverged = true := by
  induction more generalizing carried state with
  | zero => nofun
  | succ more ih =>
    rw [run_rounds_succ]
    dsimp only
    cases hcarry : o.carry? c carried ((o.round m c carried).run state).1 with
    | none => nofun
    | some next =>
      intro r hr
      rcases List.mem_cons.mp hr with rfl | hr
      · exact isConverged_of_carry? hcarry
      · exact ih next _ r hr

/-- What is recorded of a round is what the minimizer answered to it. -/
theorem exists_minimize_rounds (more : Nat) (carried : Carry α) (state : σ) :
    ∀ r ∈ ((o.rounds m c more carried).run state).1.all, ∃ before,
      r.run = ((m.minimize (o.withAnchor r.anchor).problem r.start r.options).run before).1 := by
  induction more generalizing carried state with
  | zero =>
    intro r hr
    rw [List.mem_singleton.mp hr]
    exact ⟨state, rfl⟩
  | succ more ih =>
    rw [run_rounds_succ]
    dsimp only
    cases hcarry : o.carry? c carried ((o.round m c carried).run state).1 with
    | none =>
      intro r hr
      rw [List.mem_singleton.mp hr]
      exact ⟨state, rfl⟩
    | some next =>
      intro r hr
      rcases List.mem_cons.mp hr with rfl | hr
      · exact ⟨state, rfl⟩
      · exact ih next _ r hr

end Objective

omit [Scalar α] in
theorem Round.done?_eq_some_iff {r : Round α} {done : Minimization α} :
    r.done? = some done ↔ r.run.outcome = .ok done := by
  unfold done?
  cases r.run.outcome with
  | error => exact iff_of_false nofun nofun
  | ok found =>
    exact ⟨fun h => congrArg _ (Option.some.inj h), fun h => congrArg _ (Except.ok.inj h)⟩

omit [Scalar α] in
theorem Round.isConverged_iff {r : Round α} :
    r.isConverged = true ↔
      ∃ done, r.run.outcome = .ok done ∧ done.termination.isConverged = true := by
  simp only [isConverged, Option.any_eq_true, done?_eq_some_iff]

omit [Scalar α] in
theorem Rounds.eq_last_of_error {rounds : Rounds α}
    (hearlier : ∀ r ∈ rounds.earlier, r.isConverged = true) {r : Round α} (hr : r ∈ rounds.all)
    {fault : MinimizerFault} (h : r.run.outcome = .error fault) : r = rounds.last := by
  rcases List.mem_append.mp hr with hr | hr
  · obtain ⟨done, hdone, -⟩ := Round.isConverged_iff.mp (hearlier r hr)
    rw [hdone] at h
    cases h
  · exact List.mem_singleton.mp hr

omit [Scalar α] in
theorem Rounds.any_isConverged_eq_false_iff {rounds : Rounds α}
    (hearlier : ∀ r ∈ rounds.earlier, r.isConverged = true)
    (hlast : rounds.last.isConverged = false) :
    rounds.all.any (·.isConverged) = false ↔ rounds.earlier = [] := by
  unfold all
  cases hrounds : rounds.earlier with
  | nil => simp [hlast]
  | cons r rest =>
    have hr := hearlier r (hrounds ▸ List.mem_cons_self ..)
    simp [hr]

/-! ### Classification -/

open Classical in
theorem SolveConfig.status_causeOf [OrderedScalar α] (c : SolveConfig α) {freedom : Freedom}
    (hfree : freedom.isOverConstrained = false) (last : Termination) (settled : Bool)
    (evaluations : Nat) (final : Sketch α) :
    (c.causeOf freedom last settled evaluations (.of final final.active)).status =
      if last = .nonFinite ∨ ∃ k ∈ final.active, isFinite (final.errorOf k.requirement) = false then
        .inconsistent
      else if last = .maxEvaluations ∧ settled = false then .didntConverge
      else if final.Meets c then
        if freedom.dof = 0 then .fullyConstrained else .underConstrained
      else .inconsistent := by
  have hinfinite : (ErrorSummary.of final final.active).nonFinite.isSome = true ↔
      ∃ k ∈ final.active, isFinite (final.errorOf k.requirement) = false := by
    rw [← Option.ne_none_iff_isSome, ne_eq, ErrorSummary.nonFinite_of_eq_none_iff]
    push Not
    simp only [ne_eq, Bool.not_eq_true]
  unfold causeOf
  simp only [Bool.or_eq_true, decide_eq_true_eq, hinfinite, Bool.and_eq_true, Bool.not_eq_true']
  by_cases hbroken : last = .nonFinite ∨
      ∃ k ∈ final.active, isFinite (final.errorOf k.requirement) = false
  · rw [if_pos hbroken, if_pos hbroken]
    rfl
  rw [if_neg hbroken, if_neg hbroken]
  by_cases hspent : last = .maxEvaluations ∧ settled = false
  · rw [if_pos hspent, if_pos hspent]
    rfl
  rw [if_neg hspent, if_neg hspent]
  have hfinite : (ErrorSummary.of final final.active).nonFinite = none :=
    Option.not_isSome_iff_eq_none.mp fun h => hbroken (Or.inr (hinfinite.mp h))
  have hmeets : final.Meets c ↔ c.accepts (ErrorSummary.of final final.active).aggregate
      (ErrorSummary.of final final.active).maxError = true := by
    rw [Sketch.meets_iff, and_iff_right hfinite]
  rw [← Freedom.classify_true hfree]
  by_cases haccepted : final.Meets c
  · rw [if_pos haccepted, if_pos (hmeets.mp haccepted)]
    rfl
  · rw [if_neg haccepted, if_neg (fun h => haccepted (hmeets.mpr h))]
    rfl

open Classical in
/-- What the end of some rounds is called. Another round is no part of it but for one thing: after a
converged round, running out of evaluations is no failure to converge. -/
theorem Objective.status_conclude [OrderedScalar α] {o : Objective α} (c : SolveConfig α)
    {freedom : Freedom} (hfree : freedom.isOverConstrained = false) (minimizer : String)
    {rounds : Rounds α} (hearlier : ∀ r ∈ rounds.earlier, r.isConverged = true)
    (hactive : o.constraints = o.drawing.active) {done : Minimization α}
    (hdone : rounds.last.run.outcome = .ok done) :
    let x := rounds.last.run.x
    let final := o.placed x
    (o.conclude c freedom minimizer rounds).result.status =
      if done.termination = .nonFinite ∨
          ∃ k ∈ final.active, isFinite (final.errorOf k.requirement) = false then
        .inconsistent
      else if done.termination = .maxEvaluations ∧ rounds.earlier = [] ∧
          ¬o.constraintsAlone.steepest x ≤ 1e-2 * larger (final.weightedError final.active) 1.0 then
        .didntConverge
      else if final.Meets c then
        if freedom.dof = 0 then .fullyConstrained else .underConstrained
      else .inconsistent := by
  intro x final
  have hconstraints : o.constraints = final.active :=
    hactive.trans (Sketch.active_of_outline (o.drawing.outline_withValuesAt _ _)).symm
  have hstationary : o.isStationary x = false ↔
      ¬o.constraintsAlone.steepest x ≤ 1e-2 * larger (final.weightedError final.active) 1.0 := by
    rw [← hconstraints, ← o.constraintGradient_eq]
    exact decide_eq_false_iff_not
  have hsettled : (done.termination = .maxEvaluations ∧
      (rounds.all.any (·.isConverged) || done.termination = .maxEvaluations && o.isStationary x) =
        false) ↔
      (done.termination = .maxEvaluations ∧ rounds.earlier = [] ∧
        ¬o.constraintsAlone.steepest x ≤
          1e-2 * larger (final.weightedError final.active) 1.0) := by
    refine and_congr_right ?_
    intro hspent
    -- a round that ran out of evaluations has not converged, so an earlier one has or none has
    have hlast : rounds.last.isConverged = false := by
      rw [← Bool.not_eq_true, Round.isConverged_iff, hdone]
      rintro ⟨_, hsame, hconverged⟩
      rw [← Except.ok.inj hsame, hspent] at hconverged
      cases hconverged
    rw [Bool.or_eq_false_iff, Rounds.any_isConverged_eq_false_iff hearlier hlast, ← hstationary]
    simp only [hspent, decide_true, Bool.true_and]
  simp only [← hsettled]
  rw [← c.status_causeOf hfree _ _ ((rounds.all.map Round.evaluations).foldr (· + ·) 0) final]
  unfold conclude
  simp only [hdone, SolveResult.status, ← hconstraints]
  rfl

theorem Objective.status_conclude_of_error {o : Objective α} {c : SolveConfig α}
    {freedom : Freedom} {minimizer : String} {rounds : Rounds α} {fault : MinimizerFault}
    (hfault : rounds.last.run.outcome = .error fault) :
    (o.conclude c freedom minimizer rounds).result.status =
      (Cause.failed fault : Cause α).status := by
  unfold conclude
  rw [hfault]
  rfl

namespace Sketch

/-- The rounds of the trial that a solve makes of a purged drawing. -/
def roundsFrom (s : Sketch α) (m : Minimizer α σ) (c : SolveConfig α) (state : σ) : Rounds α :=
  (((s.objective c).rounds m c (c.maxRounds - 1) ⟨(s.objective c).start, 0, none⟩).run state).1

/-- Either something is in the way of the minimizer and there are no rounds, or the trial of the
purged drawing is concluded from its rounds. -/
theorem solveFrom_rounds_cases (s : Sketch α) (m : Minimizer α σ) (c : SolveConfig α) (state : σ) :
    (¬(s.checkNumbers = .ok () ∧ s.purge.2.obstacle? = none ∧ s.purge.2.isIdle = false ∧
        m.isAvailable = true) ∧
      (s.solveFrom m c state).rounds = []) ∨
    (s.solveFrom m c state).outcome = .ok ((s.purge.2.objective c).conclude c s.purge.2.freedom
        m.name (s.purge.2.roundsFrom m c state)).result ∧
      (s.solveFrom m c state).rounds = (s.purge.2.roundsFrom m c state).all := by
  rcases s.solve_cases m c state with ⟨_, hfault, hsolve⟩ | ⟨-, _, hsome, hsolve⟩ |
    ⟨-, -, t, ht, hsolve⟩
  · rw [hfault, hsolve]
    exact Or.inl ⟨fun h => (nomatch h.1), rfl⟩
  · rw [hsome, hsolve]
    exact Or.inl ⟨fun h => (nomatch h.2.1), rfl⟩
  · rcases s.purge.2.trial_cases m c state with ⟨hidle, hrun⟩ | ⟨-, hunavailable, hrun⟩ |
      ⟨-, -, hrun⟩
    · rw [isIdle_pinned] at hidle
      rw [hidle, hsolve, ← ht, hrun, SolveConfig.rounds_judge]
      exact Or.inl ⟨fun h => (nomatch h.2.2.1), rfl⟩
    · rw [hunavailable, hsolve, ← ht, hrun]
      exact Or.inl ⟨fun h => (nomatch h.2.2.2), rfl⟩
    · rw [hsolve, ← ht, hrun, freedom_of_outline s.purge.2.outline_pinned]
      exact Or.inr ⟨rfl, Objective.rounds_conclude ..⟩

theorem WellFormed.solveFrom_of_isTried {s : Sketch α} (hs : s.WellFormed) {m : Minimizer α σ}
    (h : s.purge.2.IsTried m) (c : SolveConfig α) (state : σ) :
    (s.solveFrom m c state).outcome = .ok ((s.purge.2.objective c).conclude c s.purge.2.freedom
        m.name (s.purge.2.roundsFrom m c state)).result ∧
      (s.solveFrom m c state).rounds = (s.purge.2.roundsFrom m c state).all := by
  rcases s.solveFrom_rounds_cases m c state with ⟨hstopped, -⟩ | hrun
  · exact absurd ((hs.isTried_iff m).mp h) hstopped
  · exact hrun

open Classical in
/-- The status of a run is decided by how its last round ended, by what that round left, and by
whether it was the first. The rounds are the answers of the minimizer, and only a converged one is
followed by another. -/
theorem solve_classified [OrderedScalar α] {s : Sketch α} (hs : s.WellFormed)
    {m : Minimizer α σ} (h : s.purge.2.IsTried m) (c : SolveConfig α) (state : σ) :
    let solved := s.solveFrom m c state
    let o := s.purge.2.objective c
    ∃ (r : SolveResult α) (earlier : List (Round α)) (last : Round α),
      solved.outcome = .ok r ∧ solved.rounds = earlier ++ [last] ∧
      (∀ round ∈ solved.rounds, ∃ before, round.run = ((m.minimize
        (o.withAnchor round.anchor).problem round.start round.options).run before).1) ∧
      (∀ round ∈ earlier, round.isConverged = true) ∧
      (∀ round ∈ solved.rounds, ∀ reason,
        round.run.outcome = .error (.notAvailable reason) → r.status = .noSolver) ∧
      (∀ round ∈ solved.rounds, ∀ reason,
        round.run.outcome = .error (.linearSolve reason) → r.status = .didntConverge) ∧
      ∀ done, last.run.outcome = .ok done →
        let x := last.run.x
        let final := o.placed x
        (r.status =
          if done.termination = .nonFinite ∨
              ∃ k ∈ final.active, isFinite (final.errorOf k.requirement) = false then
            .inconsistent
          else if done.termination = .maxEvaluations ∧ earlier = [] ∧
              ¬o.constraintsAlone.steepest x ≤
                1e-2 * larger (final.weightedError final.active) 1.0 then
            .didntConverge
          else if final.Meets c then
            if s.purge.2.freedom.dof = 0 then .fullyConstrained else .underConstrained
          else .inconsistent) ∧
        (done.termination = .maxEvaluations → earlier ≠ [] → r.status ≠ .didntConverge) := by
  intro solved o
  let rounds := s.purge.2.roundsFrom m c state
  obtain ⟨houtcome, hrounds⟩ : solved.outcome =
      .ok (o.conclude c s.purge.2.freedom m.name rounds).result ∧ solved.rounds = rounds.all :=
    hs.solveFrom_of_isTried h c state
  have hearlier : ∀ r ∈ rounds.earlier, r.isConverged = true :=
    Objective.isConverged_earlier m _ _ state
  have hfailed : ∀ round ∈ solved.rounds, ∀ fault, round.run.outcome = .error fault →
      (o.conclude c s.purge.2.freedom m.name rounds).result.status =
        (Cause.failed fault : Cause α).status := by
    intro round hround fault hfault
    rw [hrounds] at hround
    rw [Rounds.eq_last_of_error hearlier hround hfault] at hfault
    exact Objective.status_conclude_of_error hfault
  refine ⟨_, rounds.earlier, rounds.last, houtcome, hrounds, ?_, hearlier, ?_, ?_, ?_⟩
  · rw [hrounds]
    exact Objective.exists_minimize_rounds m _ _ state
  · intro round hround reason hfault
    exact hfailed round hround _ hfault
  · intro round hround reason hfault
    exact hfailed round hround _ hfault
  · intro done hdone x final
    have hfree : s.purge.2.freedom.isOverConstrained = false :=
      (equations_le_iff _).mp h.balanced
    have hactive : o.constraints = o.drawing.active := rfl
    have hstatus := Objective.status_conclude c hfree m.name hearlier hactive hdone
    refine ⟨hstatus, ?_⟩
    intro _ hmore
    rw [hstatus]
    split_ifs with _ hspent
    · nofun
    · exact absurd hspent.2.1 hmore
    all_goals nofun

end Sketch

/-- A minimizer that converges once, somewhere, and from then on runs out of evaluations. -/
def Minimizer.tiring (somewhere : List α) : Minimizer α Bool where
  name := "tiring"
  isAvailable := true
  minimize _ x _ := fun tired =>
    if tired then (⟨.ok ⟨.maxEvaluations, 1, 1, 0.0⟩, x, []⟩, true)
    else (⟨.ok ⟨.converged .step, 1, 1, 0.0⟩, somewhere, []⟩, true)

/-- A run that ends so has converged before, although the line is still slanted. -/
theorem Sketch.solve_classified_slanted :
    let m : Minimizer Float Bool := .tiring [1.0, 0.25, 5.0]
    slanted.purge.2.IsTried m ∧
      ((slanted.solveFrom m .standard false).rounds.getLast?.bind Round.done?).map
        (·.termination) = some .maxEvaluations ∧
      ∃ r, (slanted.solveFrom m .standard false).outcome = .ok r ∧ r.status ≠ .didntConverge := by
  intro m
  have htried : slanted.purge.2.IsTried m :=
    (wellFormed_slanted.isTried_iff m).mpr (by decide +kernel)
  have hlength : (slanted.solveFrom m .standard false).rounds.length = 2 := by decide +kernel
  have hended : ((slanted.solveFrom m .standard false).rounds.getLast?.bind Round.done?).map
      (·.termination) = some .maxEvaluations := by
    decide +kernel
  obtain ⟨r, earlier, last, hr, hrounds, -, -, -, -, hstatus⟩ :=
    solve_classified wellFormed_slanted htried .standard false
  refine ⟨htried, hended, r, hr, ?_⟩
  rw [hrounds, List.getLast?_concat, Option.map_eq_some_iff] at hended
  obtain ⟨done, hdone, htermination⟩ := hended
  refine (hstatus done (Round.done?_eq_some_iff.mp hdone)).2 htermination ?_
  rintro rfl
  rw [hrounds] at hlength
  cases hlength

end PlaneSketch
