import PlaneSketch.Proofs.Memoryless
import PlaneSketch.Proofs.Success
import PlaneSketch.Solve.InPlace

/-!
# One working copy

A trial (`trial`) on one working copy, which every evaluation of the minimizer moves, comes out as a
trial that only looks at values. Whatever is asked for, the copy keeps everything but the values of
the variables; and it is moved to what a round has left before it is measured, and before it is
handed out. So what a success says is true of the copy that replaces the sketch.
-/

namespace PlaneSketch

variable {α β σ : Type}

open Scalar

/-- A session that asks with vectors of the right lengths, as long as the answers have theirs, and
comes to a good result. -/
def Session.Fits (n m : Nat) (good : β → Prop) : Session α β → Prop
  | .finish result => good result
  | .ask x out next =>
    x.length = n ∧ out.length = m ∧ ∀ r, r.length = m → (next r).Fits n m good

/-- A minimizer that asks with vectors of the right lengths and leaves as many values as it was
given. -/
def Asker.Fits (a : Asker α σ) : Prop :=
  ∀ n m aggregate x options state, x.length = n →
    (a.session n m aggregate x options state).Fits n m fun result => result.1.x.length = n

variable [Scalar α]

/-- The gradient of the constraints knows nothing of the anchor. -/
theorem Objective.constraintGradient_withAnchor (o : Objective α) (anchor x : List α) :
    (o.withAnchor anchor).constraintGradient x = o.constraintGradient x := by
  rw [constraintGradient_eq, constraintGradient_eq]
  rfl

namespace Workspace

variable {a : Asker α σ} {c : SolveConfig α} {carried : Carry α} {o : Objective α}
  {w : Workspace α}

/-- A workspace is at another place of its objective, and the same otherwise. -/
theorem IsAbout.objective_eq (h : w.IsAbout o) :
    w.objective = { o with drawing := w.objective.drawing } := by
  have hsame := h (List.replicate o.slots.length 0.0) List.length_replicate
  simp only [Objective.move, Objective.mk.injEq] at hsame
  obtain ⟨-, hslots, hconstraints, hdamping, hanchor⟩ := hsame
  rw [← hslots, ← hconstraints, ← hdamping, ← hanchor]

omit [Scalar α] in
theorem IsAbout.withAnchor {anchor : List α} (h : w.IsAbout (o.withAnchor anchor)) (x : List α) :
    (⟨w.objective.withAnchor x, w.buffer⟩ : Workspace α).IsAbout (o.withAnchor x) :=
  fun y hy => congrArg (·.withAnchor x) (h y hy)

/-! ### Sessions -/

/-- A session on the working copy comes to what it would if nothing were moved. -/
theorem run_inPlace (h : w.IsAbout o) (hanchor : o.anchor.length = o.slots.length)
    {good : β → Prop} {session : Session α β}
    (hfits : session.Fits o.slots.length o.problem.residualCount good) :
    ∃ w', session.inPlace.run w = some (session.against o.problem, w') ∧ w'.IsAbout o ∧
      good (session.against o.problem) := by
  induction session generalizing w with
  | finish result => exact ⟨w, rfl, h, hfits⟩
  | ask x out next ih =>
    obtain ⟨hx, hout, hnext⟩ := hfits
    have hanswer : (o.residuals x).length = o.problem.residualCount :=
      Objective.length_residuals hanchor hx
    obtain ⟨w', hrun, hw', hgood⟩ :=
      ih (o.residuals x) (isAbout_move o x (o.components x)) (hnext _ hanswer)
    refine ⟨w', ?_, hw', hgood⟩
    rw [Session.inPlace, StateT.run_bind, run_evaluate h hanchor hx hout]
    exact hrun

/-! ### Rounds -/

theorem run_round (ha : a.Fits) (h : w.IsAbout (o.withAnchor carried.x))
    (hx : carried.x.length = o.slots.length) (state : σ) :
    ∃ w', (round a c carried state).run w =
        some ((o.round a.minimizer c carried).run state, w') ∧
      w'.IsAbout (o.withAnchor carried.x) ∧
      ((o.round a.minimizer c carried).run state).1.run.x.length = o.slots.length := by
  let p := (o.withAnchor carried.x).problem
  have hfits := ha p.variableCount p.residualCount p.aggregate carried.x (c.options carried.spent)
    state hx
  obtain ⟨w', hrun, hw', hlength⟩ := run_inPlace h hx hfits
  have hproblem : w.objective.problem.variableCount = p.variableCount ∧
      w.objective.problem.residualCount = p.residualCount ∧
      w.objective.problem.aggregate = p.aggregate ∧ w.objective.anchor = carried.x := by
    rw [h.objective_eq]
    exact ⟨rfl, rfl, rfl, rfl⟩
  refine ⟨w', ?_, hw', hlength⟩
  simp only [round, StateT.run_bind, StateT.run_get, hproblem, hrun, Option.bind_eq_bind,
    Option.bind_some, StateT.run_pure, Option.pure_def]
  rfl

/-- After a converged round the copy is measured where the round ended. -/
theorem run_carry? (h : w.IsAbout (o.withAnchor carried.x)) {r : Round α}
    (hr : r.run.x.length = o.slots.length) :
    ∃ w', (carry? c carried r).run w = some (o.carry? c carried r, w') ∧
      w'.IsAbout (o.withAnchor ((o.carry? c carried r).getD carried).x) := by
  let moved := (o.withAnchor carried.x).move r.run.x
  have habout : (⟨moved, w.buffer⟩ : Workspace α).IsAbout (o.withAnchor carried.x) :=
    isAbout_move _ r.run.x w.buffer
  have hmoved : w.objective.move r.run.x = moved := h _ hr
  have hnorm : moved.drawing.weightedError moved.constraints = o.constraintNorm r.run.x := rfl
  have hheld : moved.anchor = carried.x := rfl
  unfold carry? Objective.carry?
  cases hconverged : r.isConverged with
  | false => exact ⟨w, rfl, h⟩
  | true =>
    simp only [if_true, apply, constraintNorm, StateT.run_bind, StateT.run_modify, StateT.run_get,
      StateT.run_pure, pure_bind, hmoved, hnorm, hheld]
    cases hsettled : c.isSettled carried.x r.run.x (o.constraintNorm r.run.x) carried.previous
        (carried.spent + r.evaluations) with
    | true => exact ⟨⟨moved, w.buffer⟩, rfl, habout⟩
    | false => exact ⟨⟨moved.withAnchor r.run.x, w.buffer⟩, rfl, habout.withAnchor r.run.x⟩

theorem length_carried {r : Round α} (hx : carried.x.length = o.slots.length)
    (hr : r.run.x.length = o.slots.length) :
    ((o.carry? c carried r).getD carried).x.length = o.slots.length := by
  cases hnext : o.carry? c carried r with
  | none => exact hx
  | some next => exact (congrArg List.length (Objective.carry?_x hnext)).trans hr

/-- One round and what it leaves to the next. -/
theorem run_step (ha : a.Fits) (h : w.IsAbout (o.withAnchor carried.x))
    (hx : carried.x.length = o.slots.length) (state : σ) :
    let first := (o.round a.minimizer c carried).run state
    let kept := ((o.carry? c carried first.1).getD carried).x
    ∃ w' w'', (round a c carried state).run w = some (first, w') ∧
      (carry? c carried first.1).run w' = some (o.carry? c carried first.1, w'') ∧
      w''.IsAbout (o.withAnchor kept) ∧ kept.length = o.slots.length ∧
      first.1.run.x.length = o.slots.length := by
  intro first kept
  obtain ⟨w', hround, hw', hlength⟩ := run_round (c := c) ha h hx state
  obtain ⟨w'', hcarry, hw''⟩ := run_carry? (c := c) hw' hlength
  exact ⟨w', w'', hround, hcarry, hw'', length_carried hx hlength, hlength⟩

/-- The rounds on the copy are those of a minimizer whose problem nothing moves. -/
theorem run_rounds (ha : a.Fits) (more : Nat) (carried : Carry α)
    (h : w.IsAbout (o.withAnchor carried.x)) (hx : carried.x.length = o.slots.length) (state : σ) :
    ∃ w' anchor, (rounds a c more carried state).run w =
        some ((o.rounds a.minimizer c more carried).run state, w') ∧
      w'.IsAbout (o.withAnchor anchor) ∧ anchor.length = o.slots.length ∧
      ((o.rounds a.minimizer c more carried).run state).1.last.run.x.length = o.slots.length := by
  induction more generalizing w carried state with
  | zero =>
    obtain ⟨w', w'', hround, hcarry, hw'', hkept, hlength⟩ := run_step (c := c) ha h hx state
    refine ⟨w'', _, ?_, hw'', hkept, hlength⟩
    simp only [rounds, StateT.run_bind, hround, hcarry, Option.bind_eq_bind, Option.bind_some]
    rfl
  | succ more ih =>
    obtain ⟨w', w'', hround, hcarry, hw'', hkept, hlength⟩ := run_step (c := c) ha h hx state
    rw [Objective.run_rounds_succ]
    simp only [rounds, StateT.run_bind, hround, hcarry, Option.bind_eq_bind, Option.bind_some]
    -- without another round the copy still pulls to where this one started
    cases hnext : o.carry? c carried ((o.round a.minimizer c carried).run state).1 with
    | none =>
      rw [hnext] at hw''
      exact ⟨w'', carried.x, rfl, hw'', hx, hlength⟩
    | some next =>
      rw [hnext, Option.getD_some] at hw'' hkept
      obtain ⟨left, anchor, hrest, hleft, hanchor, hlast⟩ :=
        ih next hw'' hkept ((o.round a.minimizer c carried).run state).2
      refine ⟨left, anchor, ?_, hleft, hanchor, hlast⟩
      simp only [StateT.run_bind, hrest, Option.bind_eq_bind, Option.bind_some]
      rfl

/-! ### Outcome -/

theorem run_isStationary {anchor x : List α} (h : w.IsAbout (o.withAnchor anchor))
    (hanchor : anchor.length = o.slots.length) (hx : x.length = o.slots.length) :
    ∃ left, (isStationary x).run w =
      some (o.isStationary x, ⟨(o.withAnchor anchor).move x, left⟩) := by
  obtain ⟨left, hgradient⟩ := run_constraintGradient h hanchor hx
  refine ⟨left, ?_⟩
  rw [o.constraintGradient_withAnchor] at hgradient
  simp only [isStationary, constraintNorm, StateT.run_bind, StateT.run_get, hgradient,
    Option.bind_eq_bind, Option.bind_some]
  rfl

/-- Only rounds of which none converged are asked whether they had come to rest. -/
theorem run_hasSettled {anchor x : List α} (h : w.IsAbout (o.withAnchor anchor))
    (hw : w.objective = (o.withAnchor anchor).move x) (hanchor : anchor.length = o.slots.length)
    (hx : x.length = o.slots.length) (isCut converged : Bool) :
    ∃ left, (hasSettled x isCut converged).run w =
      some (converged || isCut && o.isStationary x, ⟨(o.withAnchor anchor).move x, left⟩) := by
  unfold hasSettled
  cases converged with
  | true =>
    rw [Bool.not_true, Bool.and_false, Bool.true_or, ← hw]
    exact ⟨w.buffer, rfl⟩
  | false =>
    cases isCut with
    | true => exact run_isStationary h hanchor hx
    | false =>
      rw [← hw]
      exact ⟨w.buffer, rfl⟩

theorem run_conclude {anchor : List α} (h : w.IsAbout (o.withAnchor anchor))
    (hanchor : anchor.length = o.slots.length) (freedom : Freedom) (minimizer : String)
    {rounds : Rounds α} (hlast : rounds.last.run.x.length = o.slots.length) :
    ∃ w', (conclude c freedom minimizer rounds).run w =
      some (o.conclude c freedom minimizer rounds, w') := by
  have hmoved : w.objective.move rounds.last.run.x =
      (o.withAnchor anchor).move rounds.last.run.x := h _ hlast
  unfold conclude Objective.conclude
  simp only [apply, StateT.run_bind, StateT.run_modify, pure_bind, hmoved]
  cases rounds.last.run.outcome with
  | error fault => exact ⟨_, rfl⟩
  | ok last =>
    obtain ⟨left, hsettled⟩ := run_hasSettled
      (isAbout_move (o.withAnchor anchor) rounds.last.run.x w.buffer) rfl hanchor hlast
      (last.termination = .maxEvaluations) (rounds.all.any (·.isConverged))
    refine ⟨⟨(o.withAnchor anchor).move rounds.last.run.x, left⟩, ?_⟩
    simp only [StateT.run_bind, hsettled, Option.bind_eq_bind, Option.bind_some]
    rfl

theorem run_attempt (ha : a.Fits) (hanchor : o.anchor.length = o.slots.length) (freedom : Freedom)
    (state : σ) :
    let rounds := (o.rounds a.minimizer c (c.maxRounds - 1) ⟨o.anchor, 0, none⟩).run state
    ∃ w', (attempt a c freedom o.anchor state).run ⟨o, []⟩ =
      some ((o.conclude c freedom a.name rounds.1, rounds.2), w') := by
  obtain ⟨w, anchor, hrounds, hw, hlength, hlast⟩ := run_rounds (c := c) ha (c.maxRounds - 1)
    ⟨o.anchor, 0, none⟩ (isAbout_self o []) hanchor state
  obtain ⟨w', hconclude⟩ := run_conclude (c := c) hw hlength freedom a.name hlast
  refine ⟨w', ?_⟩
  simp only [attempt, StateT.run_bind, hrounds, hconclude, Option.bind_eq_bind, Option.bind_some]
  rfl

end Workspace

/-- A trial on one working copy is a trial: the copy ends as the sketch that the trial hands out. -/
theorem Sketch.trialInPlace_eq (s : Sketch α) {a : Asker α σ} (ha : a.Fits) (c : SolveConfig α)
    (state : σ) : s.trialInPlace a c state = some ((s.trial a.minimizer c).run state) := by
  rw [s.trial_eq]
  cases hidle : s.pinned.isIdle with
  | true => exact if_pos hidle
  | false =>
    refine (if_neg (Bool.eq_false_iff.mp hidle)).trans ?_
    have hsame : a.minimizer.isAvailable = a.isAvailable := rfl
    rw [hsame]
    cases a.isAvailable with
    | false => rfl
    | true =>
      obtain ⟨w, hattempt⟩ := Workspace.run_attempt (o := s.objective c) (c := c) ha
        (s.objective c).length_start s.pinned.freedom state
      exact congrArg (Option.map Prod.fst) hattempt

/-! ### Success -/

/-- Whatever the minimizer does, a success is measured on the sketch that is handed out: all active
errors are finite and within the tolerances, and norm, largest error and worst constraint are those
of this sketch. A minimizer that moves one working copy with each of its evaluations has the same
success, and the copy is that sketch when it is handed out. -/
theorem Sketch.solve_success_measured [OrderedScalar α] {s : Sketch α} {m : Minimizer α σ}
    {c : SolveConfig α} {state : σ} {r : SolveResult α}
    (h : (s.solveFrom m c state).outcome = .ok r) (hr : r.isSuccess = true) :
    let final := (s.solveFrom m c state).sketch
    (∀ k ∈ final.active, isFinite (final.errorOf k.requirement) = true ∧
      final.errorOf k.requirement < c.maxErrorTolerance) ∧
    r.errors.aggregate = sqrt (final.active.foldl (fun total k => total +
      k.weight * final.errorOf k.requirement * (k.weight * final.errorOf k.requirement)) 0.0) ∧
    r.errors.aggregate < c.aggregateTolerance ∧
    ErrorSummary.NamesWorst final r.errors final.active ∧
    ∀ a : Asker α σ, a.Fits → a.minimizer = m →
      ∃ t left, s.purge.2.trialInPlace a c state = some (t, left) ∧ t.accepted = true ∧
        t.result = r ∧ t.sketch = final := by
  have hsuccess := solve_success h hr
  intro final
  have herrors : r.errors = .of final final.active := hsuccess.errors
  have hnonFinite : (ErrorSummary.of final final.active).nonFinite = none := by
    rw [← herrors]
    exact hsuccess.finite
  obtain ⟨hfinite, haggregate, hworst⟩ := ErrorSummary.of_sound hnonFinite
  rw [← herrors] at haggregate hworst
  obtain ⟨hbelow, hmax⟩ : r.errors.aggregate < c.aggregateTolerance ∧
      r.errors.maxError < c.maxErrorTolerance := by
    have haccepts := hsuccess.accepts
    rw [SolveConfig.accepts, Bool.and_eq_true] at haccepts
    exact ⟨of_decide_eq_true haccepts.1, of_decide_eq_true haccepts.2⟩
  refine ⟨fun k hk => ⟨hfinite k hk, hworst.lt_of_maxError_lt hmax k hk⟩, haggregate, hbelow,
    hworst, ?_⟩
  rintro a ha rfl
  obtain ⟨-, -, haccepted, hresult, hsolve⟩ := trial_of_success h hr
  have hsketch : final = ((s.purge.2.trial a.minimizer c).run state).1.sketch :=
    congrArg Solved.sketch hsolve
  exact ⟨_, _, s.purge.2.trialInPlace_eq ha c state, haccepted, hresult, hsketch.symm⟩

/-- A minimizer that looks at the drawing elsewhere before it gives its answer. -/
def Asker.answering (answer : List α) : Asker α Unit where
  name := "answering"
  isAvailable := true
  session _ m _ x _ _ := .ask (x.map (· + 1.0)) (List.replicate m 0.0) fun _ =>
    .finish (⟨.ok ⟨.converged .step, 1, 1, 0.0⟩, if answer.length = x.length then answer else x,
      []⟩, ())

theorem Asker.fits_answering (answer : List α) : (answering answer).Fits := by
  intro n m aggregate x options state hx
  refine ⟨(List.length_map ..).trans hx, List.length_replicate, fun _ _ => ?_⟩
  show (if answer.length = x.length then answer else x).length = n
  split
  next hlength => exact hlength.trans hx
  next => exact hx

/-- The copy is level when it is handed out, although it was last evaluated elsewhere. -/
theorem Sketch.solve_success_measured_slanted :
    let solved := slanted.solveFrom (.answering [1.0, 0.0, 5.0]) .standard ()
    ∃ r, solved.outcome = .ok r ∧ r.isSuccess = true ∧ r.errors.aggregate < 1e-3 ∧
      ∃ t left, slanted.purge.2.trialInPlace (.answering [1.0, 0.0, 5.0]) .standard () =
        some (t, left) ∧ t.result = r ∧ t.sketch = solved.sketch := by
  have hsuccess :
      (slanted.solveFrom (.answering [1.0, 0.0, 5.0]) .standard ()).isSuccess = true := by
    decide +kernel
  obtain ⟨r, h, hr⟩ := Solved.exists_of_isSuccess hsuccess
  obtain ⟨-, -, hbelow, -, hcopy⟩ := solve_success_measured h hr
  obtain ⟨t, left, htrial, -, hresult, hsketch⟩ :=
    hcopy (.answering [1.0, 0.0, 5.0]) (Asker.fits_answering _) rfl
  exact ⟨r, h, hr, hbelow, t, left, htrial, hresult, hsketch⟩

end PlaneSketch
