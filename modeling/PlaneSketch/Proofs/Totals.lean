import Mathlib.Algebra.GroupWithZero.Nat
import PlaneSketch.Proofs.Classification

/-!
# Totals

What a result (`SolverResult`) tells about all rounds of a solve together: the steps and evaluations
that they took, and the errors that are left where the last one ended. A round that the minimizer
fails in leaves nothing of this in the result, not even what the rounds before it took.
-/

namespace PlaneSketch

variable {α σ : Type} [Scalar α]

open Scalar

/-! ### Errors that are not finite -/

namespace ErrorSummary

/-- The summary has the norm of the errors of some constraints, the largest of these errors and the
first constraint that has it. -/
structure Describes (summary : ErrorSummary α) (s : Sketch α) (constraints : List (Constraint α)) :
    Prop where
  aggregate : summary.aggregate = sqrt (constraints.foldl (fun total k => total +
    k.weight * s.errorOf k.requirement * (k.weight * s.errorOf k.requirement)) 0.0)
  worst : NamesWorst s summary constraints

theorem withoutCulprit_add (summary : ErrorSummary α) (k : Constraint α) {error : α}
    (h : isFinite error = true) :
    { summary.add k error with nonFinite := Option.none } =
      { summary with nonFinite := Option.none }.add k error := by
  simp only [add, h, Bool.not_true, Bool.false_eq_true, if_false]
  split <;> rfl

theorem withoutCulprit_add_of_not (summary : ErrorSummary α) (k : Constraint α) {error : α}
    (h : isFinite error = false) :
    { summary.add k error with nonFinite := Option.none } =
      { summary with nonFinite := Option.none } := by
  simp only [add, h, Bool.not_false, if_true]

/-- An error that is not finite changes nothing but the culprit. -/
theorem withoutCulprit_measured (s : Sketch α) (constraints : List (Constraint α))
    (summary : ErrorSummary α) :
    { measured s constraints summary with nonFinite := Option.none } =
      measured s (constraints.filter fun k => isFinite (s.errorOf k.requirement))
        { summary with nonFinite := Option.none } := by
  induction constraints generalizing summary with
  | nil => rfl
  | cons k rest ih =>
    have hrest := ih (summary.add k (s.errorOf k.requirement))
    cases hk : isFinite (s.errorOf k.requirement) with
    | true =>
      rw [withoutCulprit_add summary k hk] at hrest
      rw [List.filter_cons, if_pos hk]
      exact hrest
    | false =>
      rw [withoutCulprit_add_of_not summary k hk] at hrest
      rw [List.filter_cons, if_neg (Bool.eq_false_iff.mp hk)]
      exact hrest

theorem NamesWorst.of_eq {s : Sketch α} {a b : ErrorSummary α} {constraints : List (Constraint α)}
    (h : NamesWorst s a constraints) (hmax : b.maxError = a.maxError) (hworst : b.worst = a.worst) :
    NamesWorst s b constraints := by
  cases h with
  | nothing hm hw => exact .nothing (hmax.trans hm) (hworst.trans hw)
  | first earlier k later hm hw hearlier hlater =>
    exact .first earlier k later (hmax.trans hm) (hworst.trans hw) hearlier hlater

/-- A summary is about the finite errors, also when there are others. -/
theorem describes_of [OrderedScalar α] (s : Sketch α) (constraints : List (Constraint α)) :
    (of s constraints).Describes s
      (constraints.filter fun k => isFinite (s.errorOf k.requirement)) := by
  let finite := constraints.filter fun k => isFinite (s.errorOf k.requirement)
  have hfinite : ∀ k ∈ finite, isFinite (s.errorOf k.requirement) = true :=
    fun k hk => (List.mem_filter.mp hk).2
  obtain ⟨-, haggregate, hworst⟩ := of_sound ((nonFinite_of_eq_none_iff s finite).mpr hfinite)
  have hsame := withoutCulprit_measured s constraints none
  have htotal : (of s constraints).aggregate = (of s finite).aggregate :=
    congrArg (fun summary => sqrt summary.aggregate) hsame
  have hmax : (of s constraints).maxError = (of s finite).maxError :=
    congrArg (fun summary => summary.maxError) hsame
  have hfirst : (of s constraints).worst = (of s finite).worst :=
    congrArg (fun summary => summary.worst) hsame
  exact ⟨htotal.trans haggregate, hworst.of_eq hmax hfirst⟩

end ErrorSummary

/-! ### Rounds -/

omit [Scalar α] in
/-- What the completed ones of some rounds report, added up. -/
theorem Round.foldr_add_eq_sum (report : Minimization α → Nat) (rounds : List (Round α)) :
    (rounds.map fun r => (r.done?.map report).getD 0).foldr (· + ·) 0 =
      ((rounds.filterMap Round.done?).map report).sum := by
  induction rounds with
  | nil => rfl
  | cons r rest ih =>
    rw [List.map_cons, List.foldr_cons, ih]
    cases hr : r.done? with
    | none => simp [hr]
    | some done => simp [hr]

namespace Objective

variable (o : Objective α) (c : SolveConfig α) (freedom : Freedom) (minimizer : String)
  {rounds : Rounds α}

theorem totals_conclude {done : Minimization α} (hdone : rounds.last.run.outcome = .ok done) :
    let result := (o.conclude c freedom minimizer rounds).result
    result.iterations = ((rounds.all.filterMap Round.done?).map (·.iterations)).sum ∧
    result.evaluations = ((rounds.all.filterMap Round.done?).map (·.evaluations)).sum ∧
    result.errors = .of (o.placed rounds.last.run.x) o.constraints := by
  intro result
  rw [← Round.foldr_add_eq_sum, ← Round.foldr_add_eq_sum]
  unfold result conclude
  rw [hdone]
  exact ⟨rfl, rfl, rfl⟩

theorem totals_conclude_of_error {fault : MinimizerFault}
    (hfault : rounds.last.run.outcome = .error fault) :
    let result := (o.conclude c freedom minimizer rounds).result
    result.iterations = 0 ∧ result.evaluations = 0 ∧ result.errors = .none := by
  intro result
  unfold result conclude
  rw [hfault]
  exact ⟨rfl, rfl, rfl⟩

end Objective

namespace Sketch

theorem solveFrom_of_called {s : Sketch α} {m : Minimizer α σ} {c : SolveConfig α} {state : σ}
    (h : 0 < s.callsFrom m c state) :
    (s.solveFrom m c state).outcome = .ok ((s.purge.2.objective c).conclude c s.purge.2.freedom
        m.name (s.purge.2.roundsFrom m c state)).result ∧
      (s.solveFrom m c state).rounds = (s.purge.2.roundsFrom m c state).all := by
  rcases s.solveFrom_rounds_cases m c state with ⟨-, hnone⟩ | hrun
  · rw [callsFrom_eq_length, hnone] at h
    cases h
  · exact hrun

/-- When the minimizer was called and never failed, the result has the steps and evaluations of all
rounds, and the errors are those of the active constraints where the last round ended, however the
solve came out. When it failed, in whatever round, all of them are zero. -/
theorem solve_totals [OrderedScalar α] {s : Sketch α} {m : Minimizer α σ} {c : SolveConfig α}
    {state : σ} (h : 0 < s.callsFrom m c state) :
    let solved := s.solveFrom m c state
    let completed := solved.rounds.filterMap Round.done?
    let final := s.purge.2.pinned.finished solved.rounds
    ∃ r, solved.outcome = .ok r ∧ (r.isSuccess = true → solved.sketch = final) ∧
      ((∀ round ∈ solved.rounds, ∃ done, round.run.outcome = .ok done) →
        r.iterations = (completed.map (·.iterations)).sum ∧
        r.evaluations = (completed.map (·.evaluations)).sum ∧
        r.errors.Describes final
          (final.active.filter fun k => isFinite (final.errorOf k.requirement))) ∧
      ((∃ round ∈ solved.rounds, ∃ fault, round.run.outcome = .error fault) →
        r.iterations = 0 ∧ r.evaluations = 0 ∧ r.errors = .none) := by
  intro solved completed final
  let rounds := s.purge.2.roundsFrom m c state
  let o := s.purge.2.objective c
  obtain ⟨houtcome, hrounds⟩ : solved.outcome =
      .ok (o.conclude c s.purge.2.freedom m.name rounds).result ∧ solved.rounds = rounds.all :=
    solveFrom_of_called h
  have hfinal : final = o.placed rounds.last.run.x := by
    show s.purge.2.pinned.finished solved.rounds = _
    rw [hrounds, Rounds.all, finished, List.getLast?_concat]
    rfl
  have hactive : o.constraints = final.active := by
    rw [hfinal]
    exact (active_of_outline (o.drawing.outline_withValuesAt _ _)).symm
  refine ⟨_, houtcome, fun hr => (solve_success houtcome hr).sketch, ?_, ?_⟩
  · intro hcompleted
    have hlast : rounds.last ∈ solved.rounds := hrounds ▸ List.mem_concat_self ..
    obtain ⟨done, hdone⟩ := hcompleted _ hlast
    obtain ⟨hiterations, hevaluations, herrors⟩ :=
      o.totals_conclude c s.purge.2.freedom m.name hdone
    rw [← hrounds] at hiterations hevaluations
    refine ⟨hiterations, hevaluations, ?_⟩
    rw [herrors, ← hfinal, hactive]
    exact ErrorSummary.describes_of final final.active
  · rintro ⟨round, hround, fault, hfault⟩
    -- only a converged round is followed by another, so the failed one is the last
    have hearlier : ∀ r ∈ rounds.earlier, r.isConverged = true :=
      Objective.isConverged_earlier m _ _ state
    rw [hrounds] at hround
    rw [Rounds.eq_last_of_error hearlier hround hfault] at hfault
    exact o.totals_conclude_of_error c s.purge.2.freedom m.name hfault

/-- A minimizer that runs out of evaluations after a converged round: both rounds count. -/
theorem solve_totals_slanted :
    let m : Minimizer Float Bool := .tiring [1.0, 0.25, 5.0]
    0 < slanted.callsFrom m .standard false ∧
      ∃ r, (slanted.solveFrom m .standard false).outcome = .ok r ∧
        r.iterations = 2 ∧ r.evaluations = 2 := by
  intro m
  let completed := (slanted.solveFrom m .standard false).rounds.filterMap Round.done?
  have hcalled : 0 < slanted.callsFrom m .standard false := by decide +kernel
  have hdone : (slanted.solveFrom m .standard false).rounds.all (·.done?.isSome) = true := by
    decide +kernel
  have hiterations : (completed.map (·.iterations)).sum = 2 := by decide +kernel
  have hevaluations : (completed.map (·.evaluations)).sum = 2 := by decide +kernel
  obtain ⟨r, hr, -, htotals, -⟩ := solve_totals hcalled
  obtain ⟨hsteps, hcalls, -⟩ := htotals fun round hround => by
    obtain ⟨done, h⟩ := Option.isSome_iff_exists.mp (List.all_eq_true.mp hdone round hround)
    exact ⟨done, Round.done?_eq_some_iff.mp h⟩
  exact ⟨hcalled, r, hr, hsteps.trans hiterations, hcalls.trans hevaluations⟩

end Sketch

/-- A minimizer that converges once, somewhere, and from then on fails. -/
def Minimizer.breaking (somewhere : List α) : Minimizer α Bool where
  name := "breaking"
  isAvailable := true
  minimize _ x _ := fun broken =>
    if broken then (⟨.error (.linearSolve "singular"), x, []⟩, true)
    else (⟨.ok ⟨.converged .step, 3, 5, 0.0⟩, somewhere, []⟩, true)

/-- What a completed round took, and the error that it left, are lost when the next one fails. -/
theorem Sketch.solve_lost_totals_slanted :
    let m : Minimizer Float Bool := .breaking [1.0, 0.25, 5.0]
    let solved := slanted.solveFrom m .standard false
    let completed := solved.rounds.filterMap Round.done?
    let final := slanted.purge.2.pinned.finished solved.rounds
    0 < slanted.callsFrom m .standard false ∧
      ((completed.map (·.iterations)).sum, (completed.map (·.evaluations)).sum) = (3, 5) ∧
      0.0 < (ErrorSummary.of final final.active).maxError ∧
      solved.outcome.toOption.map (fun r => (r.iterations, r.evaluations, r.errors)) =
        some (0, 0, .none) := by
  decide +kernel

end PlaneSketch
