import PlaneSketch.Proofs.Variables
import PlaneSketch.Solve

/-!
# Trials and solves

All ways in which a trial (`trial`) and a solve (`solve_inner`) can end, for any minimizer. Whatever
it does, a result that counts as a success is about the sketch that is handed out: the held points
are in place, the values of the last round stand in the variables, and the errors of the result are
those of this sketch.
-/

namespace PlaneSketch

variable {α σ : Type}

/-- A minimizer that hands back as many values as it was given, whatever else it does. -/
def Minimizer.KeepsLength (m : Minimizer α σ) : Prop :=
  ∀ problem x options state, ((m.minimize problem x options).run state).1.x.length = x.length

/-- A minimizer that gives one answer to every problem of that size, after one step. -/
def Minimizer.answering [Scalar α] (answer : List α) : Minimizer α Unit where
  name := "answering"
  isAvailable := true
  minimize _ x _ :=
    pure ⟨.ok ⟨.converged .step, 1, 1, 0.0⟩, if answer.length = x.length then answer else x, []⟩

theorem Minimizer.keepsLength_answering [Scalar α] (answer : List α) :
    (answering answer).KeepsLength := by
  intro _ x _ _
  show (if answer.length = x.length then answer else x).length = x.length
  split
  next hlength => exact hlength
  next => rfl

namespace Sketch

/-- The sketch with every held point in place. -/
def pinned (s : Sketch α) : Sketch α := s.applyPins s.pins

variable (s : Sketch α)

theorem outline_pinned : s.pinned.outline = s.outline := s.outline_applyPins s.pins

theorem slots_pinned : s.pinned.slots = s.slots := slots_of_outline s.outline_pinned

theorem active_of_outline {s t : Sketch α} (h : s.outline = t.outline) : s.active = t.active := by
  have hconstraints : s.constraints = t.constraints := congrArg Outline.constraints h
  simp only [active, hconstraints]

variable [Scalar α]

theorem freedom_of_outline {s t : Sketch α} (h : s.outline = t.outline) :
    s.freedom = t.freedom := by
  have hconstraints : s.constraints = t.constraints := congrArg Outline.constraints h
  simp only [freedom, freedomWith, active, hconstraints, slots_of_outline h]

/-- What the minimizer of a trial is given. -/
def objective (s : Sketch α) (c : SolveConfig α) : Objective α :=
  Objective.of s.pinned s.pinned.slots s.pinned.active c.damping

/-- What a solve leaves when the minimizer starts in a state. -/
def solveFrom (s : Sketch α) (m : Minimizer α σ) (c : SolveConfig α) (state : σ) : Solved α :=
  ((s.solve m c).run state).1

end Sketch

variable [Scalar α]

/-! ### Rounds -/

theorem run_bind {β γ : Type} (first : StateM σ β) (next : β → StateM σ γ) (state : σ) :
    (first >>= next).run state = (next (first.run state).1).run (first.run state).2 :=
  rfl

theorem run_bind_fst {β γ : Type} (first : StateM σ β) (next : β → StateM σ γ) (state : σ) :
    ((first >>= next).run state).1 =
      ((next (first.run state).1).run (first.run state).2).1 :=
  rfl

namespace Objective

variable (o : Objective α) (m : Minimizer α σ) (c : SolveConfig α)

theorem run_rounds_succ (more : Nat) (carried : Carry α) (state : σ) :
    (o.rounds m c (more + 1) carried).run state =
      let first := (o.round m c carried).run state
      match o.carry? c carried first.1 with
      | none => (⟨[], first.1⟩, first.2)
      | some next =>
        let rest := (o.rounds m c more next).run first.2
        ({ rest.1 with earlier := first.1 :: rest.1.earlier }, rest.2) := by
  rw [rounds, run_bind]
  dsimp only
  cases o.carry? c carried ((o.round m c carried).run state).1 <;> rfl

variable {o m c}

theorem carry?_x {carried next : Carry α} {r : Round α} (h : o.carry? c carried r = some next) :
    next.x = r.run.x := by
  unfold carry? at h
  split at h
  next =>
    simp only [Option.ite_none_left_eq_some] at h
    rw [← Option.some.inj h.2]
  next => cases h

theorem length_last_rounds (hm : m.KeepsLength) (more : Nat) (carried : Carry α) (state : σ) :
    ((o.rounds m c more carried).run state).1.last.run.x.length = carried.x.length := by
  induction more generalizing carried state with
  | zero => exact hm ..
  | succ more ih =>
    rw [run_rounds_succ]
    dsimp only
    cases hcarry : o.carry? c carried ((o.round m c carried).run state).1 with
    | none => exact hm ..
    | some next =>
      refine (ih next _).trans ?_
      rw [carry?_x hcarry]
      exact hm ..

end Objective

/-! ### Trials -/

/-- Whether a trial of the sketch has nothing for a minimizer to do. -/
def Sketch.isIdle (s : Sketch α) : Bool := s.slots.isEmpty || !s.constraints.any (·.takesFreedom)

theorem Sketch.trial_eq (s : Sketch α) (m : Minimizer α σ) (c : SolveConfig α) :
    s.trial m c =
      if s.pinned.isIdle then pure (c.judge s.pinned.freedom s.pinned)
      else if !m.isAvailable then
        pure ⟨.withoutRun (.unavailable m.name) s.pinned.freedom .none, false, s.pinned, []⟩
      else do
        let rounds ← (s.objective c).rounds m c (c.maxRounds - 1) ⟨(s.objective c).start, 0, none⟩
        return (s.objective c).conclude c s.pinned.freedom m.name rounds :=
  rfl

/-- The three ways of a trial: the drawing is judged as it is, there is no minimizer, or the rounds
of the minimizer are concluded. -/
theorem Sketch.trial_cases (s : Sketch α) (m : Minimizer α σ) (c : SolveConfig α) (state : σ) :
    (s.pinned.isIdle = true ∧
      ((s.trial m c).run state).1 = c.judge s.pinned.freedom s.pinned) ∨
    (s.pinned.isIdle = false ∧ m.isAvailable = false ∧
      ((s.trial m c).run state).1 =
        ⟨.withoutRun (.unavailable m.name) s.pinned.freedom .none, false, s.pinned, []⟩) ∨
    (s.pinned.isIdle = false ∧ m.isAvailable = true ∧
      ((s.trial m c).run state).1 =
        (s.objective c).conclude c s.pinned.freedom m.name
          (((s.objective c).rounds m c (c.maxRounds - 1) ⟨(s.objective c).start, 0, none⟩).run
            state).1) := by
  rw [s.trial_eq]
  cases s.pinned.isIdle with
  | true => exact Or.inl ⟨rfl, rfl⟩
  | false =>
    right
    cases m.isAvailable with
    | false => exact Or.inl ⟨rfl, rfl, rfl⟩
    | true => exact Or.inr ⟨rfl, rfl, rfl⟩

/-- The last round's values in the variables; the sketch itself if there was no round. -/
def Sketch.finished (s : Sketch α) (rounds : List (Round α)) : Sketch α :=
  match rounds.getLast? with
  | none => s
  | some last => s.withValuesAt s.slots last.run.x

omit [Scalar α] in
theorem Sketch.outline_finished (s : Sketch α) (rounds : List (Round α)) :
    (s.finished rounds).outline = s.outline := by
  unfold finished
  split
  · rfl
  · exact s.outline_withValuesAt _ _

theorem SolveConfig.isSolved_causeOf {c : SolveConfig α} {freedom : Freedom} {last : Termination}
    {settled : Bool} {evaluations : Nat} {errors : ErrorSummary α}
    (h : (c.causeOf freedom last settled evaluations errors).isSolved = true) :
    c.accepts errors.aggregate errors.maxError = true ∧ errors.nonFinite = none := by
  unfold causeOf at h
  split at h
  next => cases h
  next hfinite =>
    split at h
    next => cases h
    next =>
      split at h
      next haccepts =>
        rw [Bool.or_eq_true, not_or, Option.not_isSome_iff_eq_none] at hfinite
        exact ⟨haccepts, hfinite.2⟩
      next => cases h

/-- An accepted trial has met both tolerances, on the sketch with the last values. -/
structure Trial.Sound (t : Trial α) (c : SolveConfig α) (held : Sketch α) : Prop where
  sketch : t.sketch = held.finished t.rounds
  errors : t.result.errors = .of t.sketch t.sketch.active
  finite : t.result.errors.nonFinite = none
  accepts : c.accepts t.result.errors.aggregate t.result.errors.maxError = true

theorem SolveConfig.judge_sound {c : SolveConfig α} {freedom : Freedom} {s : Sketch α}
    (h : (c.judge freedom s).accepted = true) : (c.judge freedom s).Sound c s := by
  simp only [judge] at h ⊢
  split at h
  next hgood =>
    rw [if_pos hgood]
    rw [Bool.and_eq_true, Option.isNone_iff_eq_none] at hgood
    exact ⟨rfl, rfl, hgood.1, hgood.2⟩
  next => cases h

theorem SolveConfig.rounds_judge (c : SolveConfig α) (freedom : Freedom) (s : Sketch α) :
    (c.judge freedom s).rounds = [] := by
  unfold judge
  dsimp only
  split <;> rfl

theorem Objective.rounds_conclude (o : Objective α) (c : SolveConfig α) (freedom : Freedom)
    (minimizer : String) (rounds : Rounds α) :
    (o.conclude c freedom minimizer rounds).rounds = rounds.all := by
  unfold conclude
  split <;> rfl

theorem Objective.conclude_sound {c : SolveConfig α} {held : Sketch α} {freedom : Freedom}
    {minimizer : String} {rounds : Rounds α}
    (h : ((Objective.of held held.slots held.active c.damping).conclude c freedom minimizer
      rounds).accepted = true) :
    ((Objective.of held held.slots held.active c.damping).conclude c freedom minimizer
      rounds).Sound c held := by
  let placed := held.withValuesAt held.slots rounds.last.run.x
  have hactive : placed.active = held.active :=
    Sketch.active_of_outline (held.outline_withValuesAt _ _)
  unfold conclude at h ⊢
  split at h
  next => cases h
  next last hlast =>
    obtain ⟨haccepts, hfinite⟩ := SolveConfig.isSolved_causeOf h
    refine ⟨?_, ?_, hfinite, haccepts⟩
    · show placed = held.finished (rounds.earlier ++ [rounds.last])
      unfold Sketch.finished
      rw [List.getLast?_concat]
    · show ErrorSummary.of placed held.active = .of placed placed.active
      rw [hactive]

theorem Sketch.trial_sound (s : Sketch α) (m : Minimizer α σ) (c : SolveConfig α) (state : σ)
    (h : ((s.trial m c).run state).1.accepted = true) :
    ((s.trial m c).run state).1.Sound c s.pinned := by
  rcases s.trial_cases m c state with ⟨-, ht⟩ | ⟨-, -, ht⟩ | ⟨-, -, ht⟩
  · rw [ht] at h ⊢
    exact SolveConfig.judge_sound h
  · rw [ht] at h
    cases h
  · rw [ht] at h ⊢
    exact Objective.conclude_sound h

/-- A trial changes numbers only, whether it is accepted or not. -/
theorem Sketch.outline_trial (s : Sketch α) (m : Minimizer α σ) (c : SolveConfig α) (state : σ) :
    ((s.trial m c).run state).1.sketch.outline = s.outline := by
  rcases s.trial_cases m c state with ⟨-, ht⟩ | ⟨-, -, ht⟩ | ⟨-, -, ht⟩
  · have hjudge : (c.judge s.pinned.freedom s.pinned).sketch = s.pinned := by
      unfold SolveConfig.judge
      dsimp only
      split <;> rfl
    rw [ht, hjudge, outline_pinned]
  · rw [ht]
    exact s.outline_pinned
  · have hconclude (rounds : Rounds α) : ((s.objective c).conclude c s.pinned.freedom m.name
        rounds).sketch = (s.objective c).placed rounds.last.run.x := by
      unfold Objective.conclude
      split <;> rfl
    rw [ht, hconclude]
    exact (s.pinned.outline_withValuesAt _ _).trans s.outline_pinned

/-! ### Success -/

theorem Freedom.classify_true {f : Freedom} (h : f.isOverConstrained = false) :
    f.classify true = if f.dof = 0 then .fullyConstrained else .underConstrained := by
  simp only [classify, h, Bool.false_eq_true, if_false, Bool.not_true]

theorem Freedom.isSuccess_classify {f : Freedom} (h : f.isOverConstrained = false) :
    (f.classify true).isSuccess = true := by
  rw [classify_true h]
  split <;> rfl

/-- Without more equations than variables, a trial is a success when it is accepted. -/
theorem Sketch.trial_isSuccess (s : Sketch α) (m : Minimizer α σ) (c : SolveConfig α) (state : σ)
    (hfree : s.freedom.isOverConstrained = false) :
    ((s.trial m c).run state).1.result.isSuccess = ((s.trial m c).run state).1.accepted := by
  rw [← freedom_of_outline s.outline_pinned] at hfree
  have hsolved := Freedom.isSuccess_classify hfree
  rcases s.trial_cases m c state with ⟨-, ht⟩ | ⟨-, -, ht⟩ | ⟨-, -, ht⟩
  · rw [ht]
    simp only [SolveConfig.judge]
    split
    · exact hsolved
    · rfl
  · rw [ht]
    rfl
  · rw [ht]
    unfold Objective.conclude
    split
    next fault _ => cases fault <;> rfl
    next =>
      dsimp only [SolveResult.isSuccess, SolveResult.status]
      unfold SolveConfig.causeOf
      split
      · rfl
      · split
        · rfl
        · split
          · exact hsolved
          · rfl

theorem Objective.length_start (o : Objective α) : o.start.length = o.slots.length :=
  o.drawing.length_valuesAt o.slots

theorem Sketch.trial_length {m : Minimizer α σ} (hm : m.KeepsLength) (s : Sketch α)
    (c : SolveConfig α) (state : σ) {last : Round α}
    (h : ((s.trial m c).run state).1.rounds.getLast? = some last) :
    last.run.x.length = s.slots.length := by
  rcases s.trial_cases m c state with ⟨-, ht⟩ | ⟨-, -, ht⟩ | ⟨-, -, ht⟩
  · rw [ht, SolveConfig.rounds_judge] at h
    cases h
  · rw [ht] at h
    cases h
  · rw [ht] at h
    rw [Objective.rounds_conclude, Rounds.all, List.getLast?_concat] at h
    obtain rfl := Option.some.inj h
    rw [Objective.length_last_rounds hm, Objective.length_start]
    exact congrArg List.length s.slots_pinned

/-! ### Solves -/

/-- The three ways of a solve: a number is not finite, the drawing is not tried, or it is. -/
theorem Sketch.solve_cases (s : Sketch α) (m : Minimizer α σ) (c : SolveConfig α) (state : σ) :
    (∃ fault, s.checkNumbers = .error fault ∧ s.solveFrom m c state = ⟨.error fault, s, []⟩) ∨
    (s.checkNumbers = .ok () ∧ ∃ cause, s.purge.2.obstacle? = some cause ∧
      s.solveFrom m c state =
        ⟨.ok (.withoutRun cause s.purge.2.freedom .none), s.purge.2, []⟩) ∨
    (s.checkNumbers = .ok () ∧ s.purge.2.obstacle? = none ∧
      ∃ t, ((s.purge.2.trial m c).run state).1 = t ∧
        s.solveFrom m c state =
          ⟨.ok t.result, if t.accepted then t.sketch else s.purge.2, t.rounds⟩) := by
  unfold solveFrom solve
  cases s.checkNumbers with
  | error fault => exact Or.inl ⟨fault, rfl, rfl⟩
  | ok =>
    right
    dsimp only
    cases s.purge.2.obstacle? with
    | some cause => exact Or.inl ⟨rfl, cause, rfl, rfl⟩
    | none => exact Or.inr ⟨rfl, rfl, _, rfl, rfl⟩

theorem Sketch.not_overConstrained_of_obstacle? {s : Sketch α} (h : s.obstacle? = none) :
    s.freedom.isOverConstrained = false := by
  unfold obstacle? at h
  split at h
  · cases h
  · split at h
    · cases h
    next hfree => exact Bool.not_eq_true _ |>.mp hfree

theorem Sketch.obstacle?_not_isSuccess {s : Sketch α} {cause : Cause α}
    (h : s.obstacle? = some cause) : cause.status.isSuccess = false := by
  unfold obstacle? at h
  split at h
  · cases h
    rfl
  · split at h
    · cases h
      rfl
    · cases h

/-- What a successful solve leaves. -/
structure Solved.Success (solved : Solved α) (m : Minimizer α σ) (c : SolveConfig α)
    (s : Sketch α) (r : SolveResult α) : Prop where
  numbers : s.checkNumbers = .ok ()
  obstacle : s.purge.2.obstacle? = none
  sketch : solved.sketch = s.purge.2.pinned.finished solved.rounds
  errors : r.errors = .of solved.sketch solved.sketch.active
  finite : r.errors.nonFinite = none
  accepts : c.accepts r.errors.aggregate r.errors.maxError = true
  length : m.KeepsLength → ∀ last, solved.rounds.getLast? = some last →
    last.run.x.length = s.purge.2.slots.length

/-- Whether the result of a solve counts as a success. -/
def Solved.isSuccess (solved : Solved α) : Bool := solved.outcome.toOption.any (·.isSuccess)

omit [Scalar α] in
theorem Solved.exists_of_isSuccess {solved : Solved α} (h : solved.isSuccess = true) :
    ∃ r, solved.outcome = .ok r ∧ r.isSuccess = true := by
  unfold isSuccess at h
  cases hout : solved.outcome with
  | error => simp [hout, Except.toOption] at h
  | ok r => exact ⟨r, rfl, by simpa [hout, Except.toOption] using h⟩

/-- A success is an accepted trial, whose sketch is handed out. -/
theorem Sketch.trial_of_success {s : Sketch α} {m : Minimizer α σ} {c : SolveConfig α} {state : σ}
    {r : SolveResult α} (h : (s.solveFrom m c state).outcome = .ok r) (hr : r.isSuccess = true) :
    let t := ((s.purge.2.trial m c).run state).1
    s.checkNumbers = .ok () ∧ s.purge.2.obstacle? = none ∧ t.accepted = true ∧ t.result = r ∧
      s.solveFrom m c state = ⟨.ok r, t.sketch, t.rounds⟩ := by
  rcases s.solve_cases m c state with ⟨_, -, hsolve⟩ | ⟨-, cause, hcause, hsolve⟩ |
    ⟨hnumbers, hobstacle, t, rfl, hsolve⟩
  · rw [hsolve] at h
    cases h
  · rw [hsolve] at h
    cases h
    have hfailure := obstacle?_not_isSuccess hcause
    exact absurd hr (Bool.eq_false_iff.mp hfailure)
  · rw [hsolve] at h
    cases h
    have haccepted : ((s.purge.2.trial m c).run state).1.accepted = true := by
      rw [← hr]
      exact (s.purge.2.trial_isSuccess m c state
        (not_overConstrained_of_obstacle? hobstacle)).symm
    rw [if_pos haccepted] at hsolve
    exact ⟨hnumbers, hobstacle, haccepted, rfl, hsolve⟩

theorem Sketch.solve_success {s : Sketch α} {m : Minimizer α σ} {c : SolveConfig α} {state : σ}
    {r : SolveResult α} (h : (s.solveFrom m c state).outcome = .ok r) (hr : r.isSuccess = true) :
    (s.solveFrom m c state).Success m c s r := by
  obtain ⟨hnumbers, hobstacle, haccepted, rfl, hsolve⟩ := trial_of_success h hr
  have hsound := s.purge.2.trial_sound m c state haccepted
  rw [hsolve]
  exact ⟨hnumbers, hobstacle, hsound.sketch, hsound.errors, hsound.finite, hsound.accepts,
    fun hm last hlast => s.purge.2.trial_length hm c state hlast⟩

end PlaneSketch
