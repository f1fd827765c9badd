import PlaneSketch.Diagnosis
import PlaneSketch.Proofs.Trials

/-!
# Analyses and solves agree

An analysis and a solve pass a drawing through gates of their own (`analyze`, `solve_inner`). The
one asks for a constraint that is active and does not fit and then for the count, the other collects
all of those constraints and counts; the gates let the same drawings pass, and where one stops the
other stops too. With the same settings and a minimizer in the same state both find the same result,
and the state that an analysis measures its constraints on is the sketch that a solve leaves.
-/

namespace PlaneSketch

variable {α σ : Type}

/-- Whether the drawing was not tried at all. -/
def Cause.isObstacle : Cause α → Bool
  | .invalid _ | .overConstrained .. => true
  | _ => false

variable [Scalar α]

namespace Sketch

/-- What an analysis says when the minimizer starts in a state. -/
def diagnoseFrom [NumberText α] (s : Sketch α) (m : Minimizer α σ) (c : DiagnosisConfig α)
    (state : σ) : Except (Fault α) (Diagnosis α) :=
  ((s.diagnose m c).run state).1

/-! ### Gates -/

/-- To ask for one active constraint that does not fit comes to the same as to collect them all. -/
theorem hasInvalid_eq (s : Sketch α) : s.hasInvalid = !s.invalidActive.isEmpty := by
  rw [Bool.eq_iff_iff, Bool.not_eq_true', ← Bool.not_eq_true, List.isEmpty_iff, hasInvalid,
    invalidActive, List.any_eq_true, List.filter_eq_nil_iff]
  simp only [not_forall, exists_prop, not_not]

theorem hasInvalid_eq_false_iff {s : Sketch α} : s.hasInvalid = false ↔ s.invalidActive = [] := by
  rw [hasInvalid_eq, Bool.not_eq_false', List.isEmpty_iff]

/-- Where the gates of a solve stop a drawing, those of an analysis do, with the same status. -/
theorem examine_of_obstacle? {s : Sketch α} {cause : Cause α} (h : s.obstacle? = some cause)
    (m : Minimizer α σ) (c : SolveConfig α) : s.examine m c = pure ⟨cause.status, none, s⟩ := by
  unfold examine
  unfold obstacle? at h
  rw [hasInvalid_eq]
  split at h
  next hinvalid =>
    cases h
    rw [if_pos hinvalid]
    rfl
  next hvalid =>
    split at h
    next hover =>
      cases h
      rw [if_neg hvalid, if_pos hover]
      rfl
    next => cases h

/-- What the gates of a solve let pass, those of an analysis do. -/
theorem examine_of_clear {s : Sketch α} (h : s.obstacle? = none) (m : Minimizer α σ)
    (c : SolveConfig α) : s.examine m c = do
      let trial ← s.trial m c
      return ⟨trial.result.status, some trial.result,
        if trial.accepted then trial.sketch else s⟩ := by
  unfold examine
  unfold obstacle? at h
  rw [hasInvalid_eq]
  split at h
  next => cases h
  next hvalid =>
    split at h
    next => cases h
    next hbalanced => rw [if_neg hvalid, if_neg hbalanced]

/-- The two ways of an examination, told by the gates of a solve. -/
theorem examine_cases (s : Sketch α) (m : Minimizer α σ) (c : SolveConfig α) (state : σ) :
    (∃ cause, s.obstacle? = some cause ∧
      ((s.examine m c).run state).1 = ⟨cause.status, none, s⟩) ∨
    (s.obstacle? = none ∧ ∃ t, ((s.trial m c).run state).1 = t ∧
      ((s.examine m c).run state).1 =
        ⟨t.result.status, some t.result, if t.accepted then t.sketch else s⟩) := by
  cases h : s.obstacle? with
  | some cause =>
    rw [examine_of_obstacle? h]
    exact Or.inl ⟨cause, rfl, rfl⟩
  | none =>
    rw [examine_of_clear h]
    exact Or.inr ⟨rfl, _, rfl, rfl⟩

/-- An examination changes numbers only. -/
theorem outline_examine (s : Sketch α) (m : Minimizer α σ) (c : SolveConfig α) (state : σ) :
    ((s.examine m c).run state).1.state.outline = s.outline := by
  rcases s.examine_cases m c state with ⟨cause, -, hexamined⟩ | ⟨-, t, rfl, hexamined⟩
  · rw [hexamined]
  · rw [hexamined]
    show (if _ then _ else _ : Sketch α).outline = _
    split
    · exact s.outline_trial m c state
    · rfl

theorem constraints_examine (s : Sketch α) (m : Minimizer α σ) (c : SolveConfig α) (state : σ) :
    ((s.examine m c).run state).1.state.constraints = s.constraints :=
  congrArg Outline.constraints (s.outline_examine m c state)

/-! ### What a trial does not say -/

theorem isObstacle_of_obstacle? {s : Sketch α} {cause : Cause α} (h : s.obstacle? = some cause) :
    cause.isObstacle = true := by
  unfold obstacle? at h
  split at h
  · cases h
    rfl
  · split at h
    · cases h
      rfl
    · cases h

theorem isObstacle_trial (s : Sketch α) (m : Minimizer α σ) (c : SolveConfig α) (state : σ) :
    ((s.trial m c).run state).1.result.cause.isObstacle = false := by
  rcases s.trial_cases m c state with ⟨-, ht⟩ | ⟨-, -, ht⟩ | ⟨-, -, ht⟩
  · rw [ht]
    unfold SolveConfig.judge
    dsimp only
    split <;> rfl
  · rw [ht]
    rfl
  · rw [ht]
    unfold Objective.conclude
    split
    · rfl
    · dsimp only
      unfold SolveConfig.causeOf
      split
      · rfl
      · split
        · rfl
        · split <;> rfl

theorem freedom_trial (s : Sketch α) (m : Minimizer α σ) (c : SolveConfig α) (state : σ) :
    ((s.trial m c).run state).1.result.freedom = s.freedom := by
  rw [← freedom_of_outline s.outline_pinned]
  rcases s.trial_cases m c state with ⟨-, ht⟩ | ⟨-, -, ht⟩ | ⟨-, -, ht⟩
  · rw [ht]
    unfold SolveConfig.judge
    dsimp only
    split <;> rfl
  · rw [ht]
    rfl
  · rw [ht]
    unfold Objective.conclude
    split <;> rfl

/-! ### Results -/

/-- An analysis stops at the numbers, or it reports on the drawing without dangling constraints as
the gates leave it. -/
theorem diagnose_cases [NumberText α] (s : Sketch α) (m : Minimizer α σ) (c : DiagnosisConfig α)
    (state : σ) :
    (∃ fault, s.checkNumbers = .error fault ∧ s.diagnoseFrom m c state = .error fault) ∨
    (s.checkNumbers = .ok () ∧ ∃ d, s.diagnoseFrom m c state = .ok d ∧
      let examined := ((s.purge.2.examine m c.solver).run state).1
      d.status = examined.status ∧ d.freedom = s.purge.2.freedom ∧
      d.solve? = examined.solve? ∧ d.purged = s.purge.1.map (·.id) ∧
      d.constraints.map (fun k => (k.constraint, k.error)) =
        s.purge.2.constraints.map fun k => (k, examined.state.errorOf k.requirement)) := by
  unfold diagnoseFrom diagnose
  cases s.checkNumbers with
  | error fault => exact Or.inl ⟨fault, rfl, rfl⟩
  | ok =>
    refine Or.inr ⟨rfl, ?_⟩
    dsimp only
    rw [run_bind_fst]
    -- the lists of findings differ from case to case, the rest of the diagnosis does not
    split <;> rw [run_bind_fst] <;> split <;> rw [run_bind_fst] <;>
      exact ⟨_, rfl, rfl, rfl, rfl, rfl, List.map_map ..⟩

/-- What an examination of a sketch finds is what a solve of it leaves. -/
theorem solveFrom_of_examine {s : Sketch α} (hnumbers : s.checkNumbers = .ok ())
    (m : Minimizer α σ) (c : SolveConfig α) (state : σ) :
    let solved := s.solveFrom m c state
    let examined := ((s.purge.2.examine m c).run state).1
    solved.sketch = examined.state ∧
    ∃ r, solved.outcome = .ok r ∧ r.status = examined.status ∧ r.freedom = s.purge.2.freedom ∧
      examined.solve? = if r.cause.isObstacle then none else some r := by
  intro solved examined
  rcases s.solve_cases m c state with ⟨fault, hfault, -⟩ | ⟨-, cause, hobstacle, hsolved⟩ |
    ⟨-, hobstacle, t, ht, hsolved⟩
  · rw [hnumbers] at hfault
    cases hfault
  · have hexamined : examined = ⟨cause.status, none, s.purge.2⟩ := by
      simp only [examined, examine_of_obstacle? hobstacle]
      rfl
    have hcause := isObstacle_of_obstacle? hobstacle
    rw [hexamined, show solved = _ from hsolved]
    exact ⟨rfl, _, rfl, rfl, rfl, (if_pos hcause).symm⟩
  · have hexamined : examined =
        ⟨t.result.status, some t.result, if t.accepted then t.sketch else s.purge.2⟩ := by
      simp only [examined, examine_of_clear hobstacle, ← ht]
      rfl
    have hcause : t.result.cause.isObstacle = false := by
      rw [← ht]
      exact s.purge.2.isObstacle_trial m c state
    have hfreedom : t.result.freedom = s.purge.2.freedom := by
      rw [← ht]
      exact s.purge.2.freedom_trial m c state
    rw [hexamined, show solved = _ from hsolved]
    refine ⟨rfl, _, rfl, rfl, hfreedom, ?_⟩
    rw [hcause]
    rfl

omit [Scalar α] in
theorem purge_eq_filter (s : Sketch α) :
    s.purge = (s.constraints.filter s.isDangling,
      { s with constraints := s.constraints.filter fun k => !s.isDangling k }) := by
  unfold purge
  rw [List.partition_eq_filter_filter]
  rfl

open Classical in
omit [Scalar α] in
/-- The purged constraints are the ones that are not there any more. -/
theorem purge_eq_filter_not_mem (s : Sketch α) :
    s.purge.1 = s.constraints.filter (· ∉ s.purge.2.constraints) := by
  rw [purge_eq_filter]
  refine List.filter_congr ?_
  intro k hk
  rw [Bool.eq_iff_iff, decide_eq_true_iff, List.mem_filter]
  simp [hk]

open Classical in
/-- An analysis and a solve with the same settings and a minimizer in the same state say the same
about a drawing. The one fails exactly when the other does. Otherwise status and counts are those of
the solve, whose result is part of the analysis unless the drawing was not tried; the purged
constraints are those that the solve drops, and every constraint is measured on the sketch that the
solve leaves. -/
theorem diagnose_agrees_solve [NumberText α] (s : Sketch α) (m : Minimizer α σ)
    (c : DiagnosisConfig α) (state : σ) :
    let analysed := s.diagnoseFrom m c state
    let solved := s.solveFrom m c.solver state
    (∀ fault, analysed = .error fault ↔ solved.outcome = .error fault) ∧
    ((∃ fault, analysed = .error fault) ∨ ∃ d r, analysed = .ok d ∧ solved.outcome = .ok r ∧
      d.status = r.status ∧
      d.freedom = r.freedom ∧
      d.solve? = (if r.cause.isObstacle then none else some r) ∧
      d.purged = (s.constraints.filter (· ∉ solved.sketch.constraints)).map (·.id) ∧
      d.constraints.map (fun k => (k.constraint, k.error)) =
        solved.sketch.constraints.map fun k =>
          (k, solved.sketch.errorOf k.requirement)) := by
  intro analysed solved
  rcases s.diagnose_cases m c state with ⟨fault, hnumbers, hanalysed⟩ |
    ⟨hnumbers, d, hanalysed, hstatus, hfreedom, hsolve, hpurged, hconstraints⟩
  · have hsolved : solved = ⟨.error fault, s, []⟩ := by
      simp only [solved, solveFrom, solve, hnumbers]
      rfl
    simp [analysed, hanalysed, hsolved]
  · obtain ⟨hsketch, r, hr, hrstatus, hrfreedom, hrsolve⟩ :=
      solveFrom_of_examine hnumbers m c.solver state
    have hkept : solved.sketch.constraints = s.purge.2.constraints := by
      rw [hsketch, constraints_examine]
    have hsame : ∀ fault, analysed = .error fault ↔ solved.outcome = .error fault := by
      simp only [analysed, solved, hanalysed, hr]
      exact fun _ => iff_of_false nofun nofun
    refine ⟨hsame, Or.inr ⟨d, r, hanalysed, hr, hstatus.trans hrstatus.symm,
      hfreedom.trans hrfreedom.symm, hsolve.trans hrsolve, ?_, ?_⟩⟩
    · rw [hpurged, hkept, purge_eq_filter_not_mem]
    · rw [hkept, hsketch]
      exact hconstraints

end Sketch

end PlaneSketch
