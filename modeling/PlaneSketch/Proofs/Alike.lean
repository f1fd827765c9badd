import PlaneSketch.Proofs.Classification

/-!
# Drawings that are tried alike

A trial sees a drawing through its counts and through the residuals of its active constraints at the
values that the minimizer asks about. Two drawings that agree on these lead to the same rounds and
the same result; what is left of the difference between them is in the final sketch alone.
-/

namespace PlaneSketch

variable {α σ : Type} [Scalar α]

/-! ### Errors -/

theorem Sketch.errorOf_congr {s t : Sketch α} {r : Requirement α}
    (h : s.components r = t.components r) : s.errorOf r = t.errorOf r := by
  simp only [errorOf, h]

theorem ErrorSummary.of_congr {s t : Sketch α} {constraints : List (Constraint α)}
    (h : ∀ k ∈ constraints, s.components k.requirement = t.components k.requirement) :
    ErrorSummary.of s constraints = ErrorSummary.of t constraints := by
  unfold of
  rw [List.foldl_ext _ _ _ fun summary k hk => by rw [Sketch.errorOf_congr (h k hk)]]

theorem Sketch.weightedError_congr {s t : Sketch α} {constraints : List (Constraint α)}
    (h : ∀ k ∈ constraints, s.components k.requirement = t.components k.requirement) :
    s.weightedError constraints = t.weightedError constraints := by
  unfold weightedError
  rw [List.map_congr_left fun k hk => by rw [errorOf_congr (h k hk)]]

/-! ### Objectives -/

namespace Objective

/-- The residuals of the constraints are the same wherever the variables are put. -/
structure Alike (o o' : Objective α) : Prop where
  slots : o.slots = o'.slots
  constraints : o.constraints = o'.constraints
  damping : o.damping = o'.damping
  start : o.start = o'.start
  components : ∀ x, ∀ k ∈ o.constraints,
    (o.placed x).components k.requirement = (o'.placed x).components k.requirement

variable {o o' : Objective α} (h : o.Alike o')

include h

theorem Alike.components_eq : o.components = o'.components := by
  funext x
  unfold Objective.components
  rw [← h.constraints]
  refine List.flatMap_congr ?_
  intro k hk
  simp only [Constraint.weightedComponents, h.components x k hk]

theorem Alike.componentCount_eq : o.componentCount = o'.componentCount := by
  simp only [componentCount, h.constraints]

theorem Alike.problem_withAnchor (anchor : List α) :
    (o.withAnchor anchor).problem = (o'.withAnchor anchor).problem := by
  have hresiduals : (o.withAnchor anchor).residuals = (o'.withAnchor anchor).residuals := by
    funext x
    show o.components x ++ List.zipWith (fun v a => o.damping * (v - a)) x anchor =
      o'.components x ++ List.zipWith (fun v a => o'.damping * (v - a)) x anchor
    rw [h.components_eq, h.damping]
  have haggregate : (o.withAnchor anchor).aggregate = (o'.withAnchor anchor).aggregate := by
    funext residuals
    show Scalar.norm (residuals.take o.componentCount) =
      Scalar.norm (residuals.take o'.componentCount)
    rw [h.componentCount_eq]
  have hslots : (o.withAnchor anchor).slots = (o'.withAnchor anchor).slots := h.slots
  have hcount : (o.withAnchor anchor).componentCount = (o'.withAnchor anchor).componentCount :=
    h.componentCount_eq
  simp only [problem, hresiduals, haggregate, hslots, hcount]

theorem Alike.constraintNorm_eq (x : List α) : o.constraintNorm x = o'.constraintNorm x := by
  unfold constraintNorm
  rw [Sketch.weightedError_congr (h.components x), h.constraints]

/-- The gradient is that of the constraints alone, so the anchors may differ. -/
theorem Alike.isStationary_eq (x : List α) : o.isStationary x = o'.isStationary x := by
  have halone : o.constraintsAlone = o'.constraintsAlone := by
    simp only [constraintsAlone, h.components_eq, h.componentCount_eq, h.slots]
  unfold isStationary
  rw [constraintGradient_eq, constraintGradient_eq, halone, h.constraintNorm_eq]

/-! ### Rounds -/

variable (m : Minimizer α σ) (c : SolveConfig α)

theorem Alike.round_eq (carried : Carry α) : o.round m c carried = o'.round m c carried := by
  unfold round
  rw [h.problem_withAnchor]

theorem Alike.carry?_eq (carried : Carry α) (r : Round α) :
    o.carry? c carried r = o'.carry? c carried r := by
  unfold carry?
  rw [h.constraintNorm_eq]

theorem Alike.rounds_eq (more : Nat) (carried : Carry α) :
    o.rounds m c more carried = o'.rounds m c more carried := by
  induction more generalizing carried with
  | zero => simp only [rounds, h.round_eq]
  | succ more ih => simp only [rounds, h.round_eq, h.carry?_eq, ih]

theorem Alike.conclude_eq (freedom : Freedom) (minimizer : String) (rounds : Rounds α) :
    o.conclude c freedom minimizer rounds =
      { o'.conclude c freedom minimizer rounds with sketch := o.placed rounds.last.run.x } := by
  have herrors : ErrorSummary.of (o.placed rounds.last.run.x) o.constraints =
      ErrorSummary.of (o'.placed rounds.last.run.x) o'.constraints := by
    rw [ErrorSummary.of_congr (h.components _), h.constraints]
  unfold conclude
  cases rounds.last.run.outcome with
  | error fault => rfl
  | ok last => simp only [herrors, h.isStationary_eq]

end Objective

/-! ### Trials -/

omit [Scalar α] in
/-- What comes after a computation matters at its results only. -/
theorem bind_congr_run {β γ : Type} {first : StateM σ β} {next next' : β → StateM σ γ}
    (h : ∀ state, next (first.run state).1 = next' (first.run state).1) :
    first >>= next = first >>= next' := by
  funext state
  show (next (first.run state).1).run (first.run state).2 = _
  rw [h state]
  rfl

namespace Sketch

/-- Two drawings that a trial cannot tell apart. -/
structure TriedAlike (s t : Sketch α) : Prop where
  freedom : s.freedom = t.freedom
  idle : s.isIdle = t.isIdle
  objective : ∀ c, (s.objective c).Alike (t.objective c)

theorem TriedAlike.refl (s : Sketch α) : s.TriedAlike s :=
  ⟨rfl, rfl, fun _ => ⟨rfl, rfl, rfl, rfl, fun _ _ _ => rfl⟩⟩

theorem TriedAlike.judge_eq {s t : Sketch α} (h : s.TriedAlike t) (c : SolveConfig α) :
    c.judge s.freedom s.pinned = { c.judge t.freedom t.pinned with sketch := s.pinned } := by
  have hplaced (u : Sketch α) : (u.objective c).placed [] = u.pinned :=
    u.pinned.withValuesAt_nil _
  have hcomponents := (h.objective c).components []
  rw [hplaced, hplaced] at hcomponents
  have hactive : s.pinned.active = t.pinned.active := (h.objective c).constraints
  have herrors : ErrorSummary.of s.pinned s.pinned.active =
      ErrorSummary.of t.pinned t.pinned.active := by
    rw [← hactive]
    exact ErrorSummary.of_congr hcomponents
  unfold SolveConfig.judge
  dsimp only
  rw [herrors, h.freedom]
  split <;> rfl

/-- The final sketch of a trial is the drawing with the held points and the last values in place;
all else depends on what a trial sees. -/
theorem TriedAlike.trial_eq {s t : Sketch α} (h : s.TriedAlike t) (m : Minimizer α σ)
    (c : SolveConfig α) :
    s.trial m c =
      (fun trial => { trial with sketch := s.pinned.finished trial.rounds }) <$> t.trial m c := by
  have ho := h.objective c
  have hfreedom (u : Sketch α) : u.pinned.freedom = u.freedom :=
    freedom_of_outline u.outline_pinned
  rw [Sketch.trial_eq, Sketch.trial_eq, isIdle_pinned, isIdle_pinned, hfreedom, hfreedom, ← h.idle]
  cases s.isIdle with
  | true =>
    have hfinished : s.pinned.finished (c.judge t.freedom t.pinned).rounds = s.pinned := by
      rw [SolveConfig.rounds_judge]
      rfl
    rw [if_pos rfl, if_pos rfl, h.judge_eq, map_pure, hfinished]
  | false =>
    cases m.isAvailable with
    | false =>
      simp only [Bool.false_eq_true, if_false, Bool.not_false, if_true, map_pure, h.freedom]
      rfl
    | true =>
      simp only [Bool.false_eq_true, if_false, Bool.not_true, map_bind, map_pure, ho.rounds_eq,
        ho.start, ho.conclude_eq, h.freedom, Objective.rounds_conclude, finished, Rounds.all,
        List.getLast?_concat]
      rfl

/-- What goes on from a trial in the same way, whichever of the two final sketches it finds, does
not tell the drawings apart either. -/
theorem TriedAlike.trial_bind {s t : Sketch α} (h : s.TriedAlike t) {m : Minimizer α σ}
    {c : SolveConfig α} {β : Type} {next next' : Trial α → StateM σ β}
    (hnext : ∀ state, let trial := ((t.trial m c).run state).1
      next { trial with sketch := s.pinned.finished trial.rounds } =
        next' { trial with sketch := t.pinned.finished trial.rounds }) :
    s.trial m c >>= next = t.trial m c >>= next' := by
  rw [h.trial_eq, bind_map_left]
  conv_rhs => rw [(TriedAlike.refl t).trial_eq, bind_map_left]
  exact bind_congr_run hnext

/-- Drawings that are tried alike, when they are tried at all, are solved alike. -/
theorem TriedAlike.solveFrom_eq {s t : Sketch α} (h : s.purge.2.TriedAlike t.purge.2)
    (hnumbers : s.checkNumbers = t.checkNumbers)
    (hobstacle : s.purge.2.obstacle? = t.purge.2.obstacle?) (m : Minimizer α σ)
    (c : SolveConfig α) (state : σ) :
    (s.solveFrom m c state).outcome = (t.solveFrom m c state).outcome ∧
      (s.solveFrom m c state).rounds = (t.solveFrom m c state).rounds := by
  unfold solveFrom solve
  rw [hnumbers]
  cases t.checkNumbers with
  | error => exact ⟨rfl, rfl⟩
  | ok =>
    dsimp only
    rw [hobstacle]
    cases t.purge.2.obstacle? with
    | some cause =>
      dsimp only
      rw [h.freedom]
      exact ⟨rfl, rfl⟩
    | none =>
      dsimp only
      rw [h.trial_eq]
      exact ⟨rfl, rfl⟩

end Sketch

end PlaneSketch
