import PlaneSketch.Proofs.Signs
import PlaneSketch.Proofs.Totals

/-!
# The budget of a solve

The rounds of a solve (`trial`) share one limit of evaluations. Each round after the first is
allowed what the rounds before it left, which is never nothing, and starts where the last of them
ended, with no pull there. The first is allowed one evaluation even where the limit is zero.
-/

namespace PlaneSketch

variable {α σ : Type}

/-- A minimizer that reports no more evaluations than it is allowed, if it is allowed any. -/
def Minimizer.HonoursLimit (m : Minimizer α σ) : Prop :=
  ∀ problem x options state done, 1 ≤ options.maxEvaluations →
    ((m.minimize problem x options).run state).1.outcome = .ok done →
    done.evaluations ≤ options.maxEvaluations

namespace Round

/-- The evaluations that some rounds report together. -/
def spent (rounds : List (Round α)) : Nat := (rounds.map Round.evaluations).sum

@[simp] theorem spent_nil : spent ([] : List (Round α)) = 0 := rfl

@[simp] theorem spent_cons (r : Round α) (rest : List (Round α)) :
    spent (r :: rest) = r.evaluations + spent rest := rfl

theorem spent_concat (rounds : List (Round α)) (r : Round α) :
    spent (rounds ++ [r]) = spent rounds + r.evaluations := by
  simp [spent]

/-- What a round is given after some others, the first of which was given what was carried. -/
structure Follows (r : Round α) (c : SolveConfig α) (carried : Carry α) (earlier : List (Round α)) :
    Prop where
  anchor : r.anchor = r.start
  options : r.options = c.options (carried.spent + spent earlier)
  first : earlier = [] → r.start = carried.x
  next : ∀ previous, earlier.getLast? = some previous →
    previous.isConverged = true ∧ r.start = previous.run.x ∧
      carried.spent + spent earlier < c.maxEvaluations

theorem Follows.maxEvaluations {c : SolveConfig α} {x : List α} {r previous : Round α}
    {earlier : List (Round α)} (h : r.Follows c ⟨x, 0, none⟩ earlier)
    (hprevious : earlier.getLast? = some previous) :
    spent earlier < c.maxEvaluations ∧
      r.options = ⟨c.ftol, c.xtol, c.gtol, c.maxEvaluations - spent earlier, c.progressInterval⟩ := by
  obtain ⟨-, -, hleft⟩ := h.next previous hprevious
  have hoptions := h.options
  dsimp only at hleft hoptions
  rw [Nat.zero_add] at hleft hoptions
  rw [SolveConfig.options, Nat.max_eq_left (by omega)] at hoptions
  exact ⟨hleft, hoptions⟩

end Round

variable [Scalar α]

namespace Objective

variable {o : Objective α} {m : Minimizer α σ} {c : SolveConfig α} {carried next : Carry α}

theorem spent_of_carry? {r : Round α} (h : o.carry? c carried r = some next) :
    next.spent = carried.spent + r.evaluations ∧ next.spent < c.maxEvaluations := by
  unfold carry? at h
  split at h
  next =>
    simp only [Option.ite_none_left_eq_some, Option.some.injEq] at h
    obtain ⟨hunsettled, rfl⟩ := h
    simp only [SolveConfig.isSettled, Bool.or_eq_true, decide_eq_true_eq, not_or] at hunsettled
    exact ⟨rfl, Nat.lt_of_not_le hunsettled.2⟩
  next => cases h

theorem follows_round (state : σ) :
    ((o.round m c carried).run state).1.Follows c carried [] where
  anchor := rfl
  options := rfl
  first _ := rfl
  next := nofun

end Objective

theorem Round.Follows.after {o : Objective α} {c : SolveConfig α} {carried next : Carry α}
    {r first : Round α} {earlier : List (Round α)}
    (hfirst : o.carry? c carried first = some next) (h : r.Follows c next earlier) :
    r.Follows c carried (first :: earlier) := by
  obtain ⟨hspent, hleft⟩ := Objective.spent_of_carry? hfirst
  have htotal : next.spent + spent earlier = carried.spent + spent (first :: earlier) := by
    rw [spent_cons]
    omega
  refine ⟨h.anchor, htotal ▸ h.options, nofun, ?_⟩
  intro previous hprevious
  rw [← htotal]
  cases earlier with
  | nil =>
    cases hprevious
    have hx : r.start = first.run.x := (h.first rfl).trans (Objective.carry?_x hfirst)
    exact ⟨Objective.isConverged_of_carry? hfirst, hx, hleft⟩
  | cons second rest =>
    rw [List.getLast?_cons_cons] at hprevious
    exact h.next previous hprevious

namespace Objective

variable {o : Objective α} {m : Minimizer α σ} {c : SolveConfig α} {carried : Carry α}

theorem follows_of_single {state : σ} {earlier later : List (Round α)} {r : Round α}
    (h : [((o.round m c carried).run state).1] = earlier ++ r :: later) :
    r.Follows c carried earlier := by
  cases earlier with
  | nil => exact (List.cons.inj h).1 ▸ follows_round state
  | cons first rest => simp at h

/-- Every round is given what the ones before it leave. -/
theorem follows_rounds {more : Nat} {state : σ} {earlier later : List (Round α)} {r : Round α}
    (h : ((o.rounds m c more carried).run state).1.all = earlier ++ r :: later) :
    r.Follows c carried earlier := by
  induction more generalizing carried state earlier with
  | zero => exact follows_of_single h
  | succ more ih =>
    rw [run_rounds_succ] at h
    dsimp only at h
    cases hcarry : o.carry? c carried ((o.round m c carried).run state).1 with
    | none =>
      rw [hcarry] at h
      exact follows_of_single h
    | some next =>
      rw [hcarry] at h
      cases earlier with
      | nil => exact (List.cons.inj h).1 ▸ follows_round state
      | cons first rest =>
        obtain ⟨hfirst, hrest⟩ := List.cons.inj h
        rw [hfirst] at hcarry
        exact (ih hrest).after hcarry

theorem length_rounds_le (more : Nat) (state : σ) :
    ((o.rounds m c more carried).run state).1.all.length ≤ more + 1 := by
  induction more generalizing carried state with
  | zero => exact Nat.le_refl 1
  | succ more ih =>
    rw [run_rounds_succ]
    dsimp only
    cases hcarry : o.carry? c carried ((o.round m c carried).run state).1 with
    | none => exact Nat.le_add_left 1 _
    | some next => exact Nat.succ_le_succ (ih _)

theorem evaluations_le_of_honours {r : Round α} {before : σ} (hm : m.HonoursLimit)
    (hrun : r.run = ((m.minimize (o.withAnchor r.anchor).problem r.start r.options).run before).1)
    (hallowed : 1 ≤ r.options.maxEvaluations) : r.evaluations ≤ r.options.maxEvaluations := by
  cases hdone : r.done? with
  | none => simp [Round.evaluations, hdone]
  | some done =>
    have houtcome : r.run.outcome = .ok done := Round.done?_eq_some_iff.mp hdone
    rw [hrun] at houtcome
    simpa [Round.evaluations, hdone] using hm _ _ _ _ _ hallowed houtcome

/-- Only the last round can use the limit up, and it is allowed no more than what is left. -/
theorem spent_rounds_le (hm : m.HonoursLimit) (more : Nat) (x : List α) (state : σ) :
    Round.spent ((o.rounds m c more ⟨x, 0, none⟩).run state).1.all ≤ max 1 c.maxEvaluations := by
  let rounds := ((o.rounds m c more ⟨x, 0, none⟩).run state).1
  have hfollows : rounds.last.Follows c ⟨x, 0, none⟩ rounds.earlier := follows_rounds rfl
  obtain ⟨before, hrun⟩ := exists_minimize_rounds m more ⟨x, 0, none⟩ state rounds.last
    (List.mem_concat_self ..)
  have hallowed : rounds.last.options.maxEvaluations =
      max (c.maxEvaluations - (0 + Round.spent rounds.earlier)) 1 := by
    rw [hfollows.options]
    rfl
  have hlast := evaluations_le_of_honours hm hrun (hallowed ▸ Nat.le_max_right _ _)
  show Round.spent (rounds.earlier ++ [rounds.last]) ≤ _
  rw [Round.spent_concat]
  cases hprevious : rounds.earlier.getLast? with
  | none =>
    rw [List.getLast?_eq_none_iff] at hprevious
    rw [hprevious, Round.spent_nil] at hallowed ⊢
    omega
  | some previous =>
    obtain ⟨-, -, hleft⟩ := hfollows.next previous hprevious
    dsimp only at hleft
    omega

theorem evaluations_conclude_le (freedom : Freedom) (minimizer : String) (rounds : Rounds α) :
    (o.conclude c freedom minimizer rounds).result.evaluations ≤ Round.spent rounds.all := by
  unfold conclude
  split
  · exact Nat.zero_le _
  · exact Nat.le_refl _

end Objective

namespace Sketch

variable (s : Sketch α) (m : Minimizer α σ) (c : SolveConfig α) (state : σ)

theorem evaluations_trial_le :
    ((s.trial m c).run state).1.result.evaluations ≤
      Round.spent ((s.trial m c).run state).1.rounds := by
  rcases s.trial_cases m c state with ⟨-, ht⟩ | ⟨-, -, ht⟩ | ⟨-, -, ht⟩
  · have hjudge : (c.judge s.pinned.freedom s.pinned).result.evaluations = 0 := by
      unfold SolveConfig.judge
      dsimp only
      split <;> rfl
    rw [ht, hjudge]
    exact Nat.zero_le _
  · rw [ht]
    exact Nat.zero_le _
  · rw [ht, Objective.rounds_conclude]
    exact Objective.evaluations_conclude_le ..

theorem evaluations_solve_le {result : SolveResult α}
    (h : (s.solveFrom m c state).outcome = .ok result) :
    result.evaluations ≤ Round.spent (s.solveFrom m c state).rounds := by
  rcases s.solve_cases m c state with ⟨_, -, hsolve⟩ | ⟨-, _, -, hsolve⟩ | ⟨-, -, t, ht, hsolve⟩
  · rw [hsolve] at h
    cases h
  · rw [hsolve] at h
    cases h
    exact Nat.zero_le _
  · rw [hsolve] at h ⊢
    cases h
    rw [← ht]
    exact s.purge.2.evaluations_trial_le m c state

theorem rounds_solveFrom : (s.solveFrom m c state).rounds = [] ∨
    (s.solveFrom m c state).rounds = (s.purge.2.roundsFrom m c state).all :=
  (s.solveFrom_rounds_cases m c state).imp And.right And.right

theorem length_rounds_solveFrom_le :
    (s.solveFrom m c state).rounds.length ≤ max 1 c.maxRounds := by
  rcases s.rounds_solveFrom m c state with hrounds | hrounds
  · rw [hrounds]
    exact Nat.zero_le _
  · have hlength : (s.purge.2.roundsFrom m c state).all.length ≤ c.maxRounds - 1 + 1 :=
      Objective.length_rounds_le _ state
    rw [hrounds]
    omega

variable {s m c state}

theorem follows_solveFrom {earlier later : List (Round α)} {r : Round α}
    (h : (s.solveFrom m c state).rounds = earlier ++ r :: later) :
    let o := s.purge.2.objective c
    r.Follows c ⟨o.start, 0, none⟩ earlier ∧ ∃ before,
      r.run = ((m.minimize (o.withAnchor r.start).problem r.start r.options).run before).1 := by
  intro o
  rcases s.rounds_solveFrom m c state with hrounds | hrounds
  · rw [hrounds] at h
    simp at h
  · rw [hrounds] at h
    have hr : r ∈ (s.purge.2.roundsFrom m c state).all := by simp [h]
    have hfollows : r.Follows c ⟨o.start, 0, none⟩ earlier := Objective.follows_rounds h
    have hrun := Objective.exists_minimize_rounds m _ _ state r hr
    rw [hfollows.anchor] at hrun
    exact ⟨hfollows, hrun⟩

theorem spent_solveFrom_le (hm : m.HonoursLimit) :
    Round.spent (s.solveFrom m c state).rounds ≤ max 1 c.maxEvaluations := by
  rcases s.rounds_solveFrom m c state with hrounds | hrounds
  · rw [hrounds]
    exact Nat.zero_le _
  · rw [hrounds]
    exact Objective.spent_rounds_le hm _ _ state

end Sketch

/-! ### The pull at the start -/

theorem Objective.pull_self_eq_zero {o : Objective Float} {x : List Float}
    (hdamping : o.damping.isFinite = true) (hx : ∀ v ∈ x, v.isFinite = true) :
    ∀ row ∈ (o.withAnchor x).pull x, (row == 0.0) = true := by
  intro row hrow
  rw [pull, withAnchor, List.zipWith_self] at hrow
  obtain ⟨v, hv, rfl⟩ := List.mem_map.mp hrow
  rw [Binary64.sub_self_of_isFinite (hx v hv)]
  exact Binary64.mul_zero_beq_zero hdamping

theorem Objective.drop_residuals (o : Objective α) (x : List α) :
    (o.residuals x).drop o.componentCount = o.pull x := by
  rw [residuals, ← o.length_components x, List.drop_left]

/-! ### Solves -/

/-- Each of the rounds of a solve is the minimizer's answer to the objective that pulls to where the
round starts. -/
theorem Sketch.solve_budget (s : Sketch Float) (m : Minimizer Float σ) (c : SolveConfig Float)
    (state : σ) :
    let solved := s.solveFrom m c state
    let drawing := s.purge.2.pinned
    let o := s.purge.2.objective c
    solved.rounds.length ≤ max 1 c.maxRounds ∧
    (∀ earlier r later, solved.rounds = earlier ++ r :: later →
      let problem := (o.withAnchor r.start).problem
      (∃ before, r.run = ((m.minimize problem r.start r.options).run before).1) ∧
      (c.damping.isFinite = true → (∀ v ∈ r.start, v.isFinite = true) →
        ∀ row ∈ (problem.residuals r.start).drop o.componentCount, (row == 0.0) = true) ∧
      (earlier = [] →
        r.start = drawing.valuesAt drawing.slots ∧
        r.options = ⟨c.ftol, c.xtol, c.gtol, max c.maxEvaluations 1, c.progressInterval⟩) ∧
      (∀ previous, earlier.getLast? = some previous →
        previous.isConverged = true ∧ r.start = previous.run.x ∧
        Round.spent earlier < c.maxEvaluations ∧
        r.options = ⟨c.ftol, c.xtol, c.gtol, c.maxEvaluations - Round.spent earlier,
          c.progressInterval⟩)) ∧
    (m.HonoursLimit → Round.spent solved.rounds ≤ max 1 c.maxEvaluations ∧
      ∀ result, solved.outcome = .ok result → result.evaluations ≤ max 1 c.maxEvaluations) := by
  intro solved drawing o
  refine ⟨s.length_rounds_solveFrom_le m c state, ?_, ?_⟩
  · intro earlier r later hsplit problem
    obtain ⟨hfollows, hrun⟩ := follows_solveFrom hsplit
    refine ⟨hrun, ?_, ?_, ?_⟩
    · intro hdamping hstart
      have hrows : (problem.residuals r.start).drop o.componentCount =
          (o.withAnchor r.start).pull r.start := (o.withAnchor r.start).drop_residuals r.start
      rw [hrows]
      exact Objective.pull_self_eq_zero hdamping hstart
    · rintro rfl
      exact ⟨hfollows.first rfl, hfollows.options⟩
    · intro previous hprevious
      obtain ⟨hconverged, hstart, -⟩ := hfollows.next previous hprevious
      exact ⟨hconverged, hstart, hfollows.maxEvaluations hprevious⟩
  · intro hm
    have hspent : Round.spent solved.rounds ≤ max 1 c.maxEvaluations := spent_solveFrom_le hm
    refine ⟨hspent, ?_⟩
    intro result hresult
    exact Nat.le_trans (s.evaluations_solve_le m c state hresult) hspent

/-- A minimizer that halves all values with all the evaluations it is allowed but two. -/
def Minimizer.halving : Minimizer Float Unit where
  name := "halving"
  isAvailable := true
  minimize _ x options :=
    pure ⟨.ok ⟨.converged .step, 1, options.maxEvaluations - 2, 0.0⟩, x.map (0.5 * ·), []⟩

/-- Three rounds that are allowed five evaluations, then two, then still two because the second
took none. -/
theorem Sketch.solve_budget_slanted :
    let c : SolveConfig Float := { SolveConfig.standard with maxEvaluations := 5, maxRounds := 3 }
    let solved := slanted.solveFrom .halving c ()
    solved.rounds.map (·.options.maxEvaluations) = [5, 2, 2] ∧ Minimizer.halving.HonoursLimit ∧
      Round.spent solved.rounds ≤ 5 := by
  intro c solved
  have hallowed : solved.rounds.map (·.options.maxEvaluations) = [5, 2, 2] := by decide +kernel
  have hhonours : Minimizer.halving.HonoursLimit := by
    intro _ _ options _ done _ hdone
    cases hdone
    exact Nat.sub_le ..
  obtain ⟨-, -, hspent⟩ := solve_budget slanted .halving c ()
  exact ⟨hallowed, hhonours, (hspent hhonours).1⟩

end PlaneSketch
