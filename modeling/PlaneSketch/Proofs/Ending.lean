import PlaneSketch.Proofs.Powers
import PlaneSketch.Proofs.Tally

/-!
# Every run ends

A run of Levenberg–Marquardt (`minimize`) ends whatever it meets: residuals that are no numbers,
residuals that change under its hands, a factorization that fails at any call. Between two
evaluations the damping is raised at most 1023 times until it is infinite, since the factor of a
raise doubles each time and binary64 has no larger power of two; and the evaluations have a limit.
-/

namespace PlaneSketch

open Scalar

namespace LevenbergMarquardt

variable {σ : Type} {w : Surroundings σ} {o : Options Float} {tau : Float}

/-! ### One pass -/

/-- The number of evaluations that a run comes to at most. The limit is asked for only after a
candidate was evaluated, and the start was evaluated before. -/
def evaluationBound (o : Options Float) : Nat := max o.maxEvaluations 2

theorem lt_evaluationBound {evaluations : Nat} (h : ¬o.maxEvaluations ≤ evaluations) :
    evaluations < evaluationBound o :=
  Nat.lt_of_lt_of_le (Nat.lt_of_not_le h) (Nat.le_max_left _ _)

/-- A position in the middle of a run, so many raises after the last step. -/
structure Position.OnCourse (here : Position) (o : Options Float) (raises : Nat) : Prop where
  growth : here.growth = dampingGrowth raises
  below : here.evaluations < evaluationBound o

/-- How many passes there can be before the next evaluation. -/
def Position.patience (here : Position) (raises : Nat) : Nat :=
  1023 - raises + if here.near?.isNone then 1 else 0

theorem Position.patience_le (here : Position) (raises : Nat) : here.patience raises ≤ 1024 := by
  unfold patience
  split <;> omega

/-- What a pass leads to: one evaluation more or less patience, or an end within the bound. Only the
damping makes a run fail. -/
def Pass.Advances (reached : Pass) (o : Options Float) (here : Position) (raises : Nat) : Prop :=
  match reached with
  | .going next => ∃ more, next.OnCourse o more ∧
      (here.evaluations < next.evaluations ∨
        next.evaluations = here.evaluations ∧ next.patience more < here.patience raises)
  | .done outcome final => final.evaluations ≤ evaluationBound o ∧
      ((∃ termination, outcome = .ok termination) ∨
        outcome = .error (.linearSolve "normal equations stayed indefinite") ∧
          final.damping.isFinite = false)

theorem Position.OnCourse.raise {here : Position} {raises : Nat} (h : here.OnCourse o raises) :
    here.raise.growth = dampingGrowth (raises + 1) := by
  show here.growth * 2.0 = _
  rw [h.growth, dampingGrowth_succ]

theorem Position.OnCourse.raises_lt {here : Position} {raises : Nat} (h : here.OnCourse o raises)
    (hfinite : here.raise.damping.isFinite = true) : raises < 1023 := by
  have hdamping : here.raise.damping = here.damping * dampingGrowth raises :=
    congrArg (here.damping * ·) h.growth
  exact lt_of_isFinite_mul_dampingGrowth (hdamping ▸ hfinite)

theorem advances_of_does {here : Position} {raises : Nat} {s t : σ} {reached : Pass}
    (hdoes : Does w o tau here s reached t) (h : here.OnCourse o raises) :
    reached.Advances o here raises := by
  have hbelow : here.evaluations < evaluationBound o := h.below
  cases hdoes with
  | vanished => exact ⟨Nat.le_of_lt hbelow, Or.inl ⟨_, rfl⟩⟩
  | surveyed new =>
    unfold surveyed
    dsimp only
    split
    · exact ⟨Nat.le_of_lt hbelow, Or.inl ⟨_, rfl⟩⟩
    · split
      · exact ⟨Nat.le_of_lt hbelow, Or.inl ⟨_, rfl⟩⟩
      · refine ⟨raises, ⟨h.growth, h.below⟩, Or.inr ⟨rfl, ?_⟩⟩
        simp [Position.patience, new]
  | unsolved near =>
    unfold unsolved
    dsimp only
    split
    next hfinite =>
      -- the factor is infinite from the 1023rd raise on, and then so is the damping, or no number
      have hraises := h.raises_lt hfinite
      refine ⟨raises + 1, ⟨h.raise, hbelow⟩, Or.inr ⟨rfl, ?_⟩⟩
      simp [Position.patience, Position.raise, near]
      omega
    next hinfinite =>
      exact ⟨Nat.le_of_lt hbelow, Or.inr ⟨rfl, by simpa using hinfinite⟩⟩
  | short => exact ⟨Nat.le_of_lt hbelow, Or.inl ⟨_, rfl⟩⟩
  | nonFinite => exact ⟨hbelow, Or.inl ⟨_, rfl⟩⟩
  | rejected =>
    unfold rejected
    dsimp only
    split
    · exact ⟨hbelow, Or.inl ⟨_, rfl⟩⟩
    next hleft =>
      exact ⟨raises + 1, ⟨h.raise, lt_evaluationBound hleft⟩, Or.inl (Nat.lt_succ_self _)⟩
  | accepted =>
    unfold settle
    split
    · exact ⟨hbelow, Or.inl ⟨_, rfl⟩⟩
    · split
      · exact ⟨hbelow, Or.inl ⟨_, rfl⟩⟩
      next hleft =>
        exact ⟨0, ⟨dampingGrowth_zero.symm, lt_evaluationBound hleft⟩, Or.inl (Nat.lt_succ_self _)⟩

/-! ### Many passes -/

theorem run_passes_succ (n : Nat) (here : Position) (s : σ) :
    (passes w o tau (n + 1) (.going here)).run s =
      (passes w o tau n ((pass w o tau here).run s).1).run ((pass w o tau here).run s).2 := rfl

theorem passes_done (n : Nat) (outcome : Except MinimizerFault Termination) (final : Position) :
    passes w o tau n (.done outcome final) = pure (.done outcome final) := by
  cases n <;> rfl

theorem passes_add (m n : Nat) (reached : Pass) :
    passes w o tau (m + n) reached = passes w o tau m reached >>= passes w o tau n := by
  induction m generalizing reached with
  | zero =>
    rw [Nat.zero_add]
    rfl
  | succ m ih =>
    cases reached with
    | done outcome final => rw [passes_done, passes_done, pure_bind, passes_done]
    | going here =>
      have hmore : m + 1 + n = m + n + 1 := by omega
      rw [hmore]
      show pass w o tau here >>= passes w o tau (m + n) =
        (pass w o tau here >>= passes w o tau m) >>= passes w o tau n
      rw [bind_assoc]
      exact congrArg (pass w o tau here >>= ·) (funext ih)

theorem run_passes_add (m n : Nat) (reached : Pass) (s : σ) :
    (passes w o tau (m + n) reached).run s =
      (passes w o tau n ((passes w o tau m reached).run s).1).run
        ((passes w o tau m reached).run s).2 := by
  rw [passes_add]
  rfl

/-- Every pass takes a run closer to its end: the evaluations that are left count for more than all
the patience between two of them. -/
theorem exists_done_passes {n raises : Nat} {here : Position} (h : here.OnCourse o raises)
    (hn : 1025 * (evaluationBound o - here.evaluations) + here.patience raises < n) (s : σ) :
    ∃ outcome final t, (passes w o tau n (.going here)).run s = (.done outcome final, t) ∧
      (Pass.done outcome final).Advances o here raises := by
  induction n generalizing here raises s with
  | zero => omega
  | succ n ih =>
    rw [run_passes_succ]
    have hadvances := advances_of_does (does_pass w o tau here s) h
    cases hreached : ((pass w o tau here).run s).1 with
    | done outcome final =>
      rw [hreached] at hadvances
      rw [passes_done]
      exact ⟨outcome, final, _, rfl, hadvances⟩
    | going next =>
      rw [hreached] at hadvances
      obtain ⟨more, hnext, hcloser⟩ := hadvances
      have hpatience := next.patience_le more
      have hbelow := hnext.below
      -- an evaluation more takes 1025 off the measure and gives back at most 1024
      refine ih hnext ?_ _
      rcases hcloser with hmore | ⟨hsame, hless⟩ <;> omega

/-- More passes keep a run on course or end it. -/
theorem continues_passes (w : Surroundings σ) (tau : Float) (n : Nat) {raises : Nat}
    {here : Position} (h : here.OnCourse o raises) (s : σ) :
    (∃ there more, ((passes w o tau n (.going here)).run s).1 = .going there ∧
      there.OnCourse o more ∧ here.evaluations ≤ there.evaluations) ∨
    ∃ outcome final, ((passes w o tau n (.going here)).run s).1 = .done outcome final ∧
      final.evaluations ≤ evaluationBound o := by
  induction n generalizing here raises s with
  | zero => exact Or.inl ⟨here, raises, rfl, h, Nat.le_refl _⟩
  | succ n ih =>
    rw [run_passes_succ]
    have hadvances := advances_of_does (does_pass w o tau here s) h
    cases hreached : ((pass w o tau here).run s).1 with
    | done outcome final =>
      rw [hreached] at hadvances
      rw [passes_done]
      exact Or.inr ⟨outcome, final, rfl, hadvances.1⟩
    | going next =>
      rw [hreached] at hadvances
      obtain ⟨more, hnext, hcloser⟩ := hadvances
      rcases ih hnext ((pass w o tau here).run s).2 with ⟨there, further, hthere, hon, hle⟩ | hdone
      · exact Or.inl ⟨there, further, hthere, hon, by omega⟩
      · exact Or.inr hdone

/-- A run that is not done has evaluated again by the time its patience is over. -/
theorem progress_of_passes {n raises : Nat} {here : Position} (h : here.OnCourse o raises)
    (hn : here.patience raises < n) (s : σ) :
    let reached := ((passes w o tau n (.going here)).run s).1
    reached.isDone = true ∨ here.evaluations < reached.position.evaluations := by
  induction n generalizing here raises s with
  | zero => omega
  | succ n ih =>
    rw [run_passes_succ]
    have hadvances := advances_of_does (does_pass w o tau here s) h
    cases hreached : ((pass w o tau here).run s).1 with
    | done outcome final =>
      rw [passes_done]
      exact Or.inl rfl
    | going next =>
      rw [hreached] at hadvances
      obtain ⟨more, hnext, hevaluated | ⟨hsame, hless⟩⟩ := hadvances
      · rcases continues_passes w tau n hnext ((pass w o tau here).run s).2 with
          ⟨there, -, hthere, -, hle⟩ | ⟨outcome, final, hdone, -⟩
        · rw [hthere]
          exact Or.inr (Nat.lt_of_lt_of_le hevaluated hle)
        · rw [hdone]
          exact Or.inl rfl
      · rw [← hsame]
        exact ih hnext (by omega) _

/-! ### Whole runs -/

theorem run_minimize (n : Nat) (x : List Float) (s : σ) :
    (minimize w o tau n x).run s =
      (passes w o tau n ((start w x).run s).1).run ((start w x).run s).2 := rfl

/-- A run starts done or on course. -/
theorem start_cases (w : Surroundings σ) (o : Options Float) (x : List Float) (s : σ) :
    (∃ termination final, ((start w x).run s).1 = .done (.ok termination) final ∧
        final.evaluations = 1) ∨
      ∃ here : Position, ((start w x).run s).1 = .going here ∧ here.evaluations = 1 ∧
        here.OnCourse o 0 := by
  unfold start
  obtain ⟨⟨residuals, t⟩, evaluated⟩ : ∃ answer, (w.residuals x).run s = answer := ⟨_, rfl⟩
  rw [run_bind_eq evaluated]
  split
  · exact Or.inl ⟨_, _, rfl, rfl⟩
  · split
    · exact Or.inl ⟨_, _, rfl, rfl⟩
    · right
      refine ⟨_, rfl, rfl, dampingGrowth_zero.symm, ?_⟩
      exact Nat.lt_of_lt_of_le Nat.one_lt_two (Nat.le_max_right _ _)

theorem exists_done_minimize (w : Surroundings σ) (o : Options Float) (tau : Float)
    (x : List Float) (s : σ) : ∃ outcome final t,
      (minimize w o tau (1025 * evaluationBound o) x).run s = (.done outcome final, t) ∧
        ((∃ termination, outcome = .ok termination) ∨
          outcome = .error (.linearSolve "normal equations stayed indefinite") ∧
            final.damping.isFinite = false) := by
  rw [run_minimize]
  rcases start_cases w o x s with ⟨termination, final, hdone, -⟩ | ⟨here, hgoing, hone, h⟩
  · rw [hdone, passes_done]
    exact ⟨_, final, _, rfl, Or.inl ⟨termination, rfl⟩⟩
  · have hpatience := here.patience_le 0
    have hbound : 2 ≤ evaluationBound o := Nat.le_max_right _ _
    rw [hgoing]
    have hn : 1025 * (evaluationBound o - here.evaluations) + here.patience 0 <
        1025 * evaluationBound o := by omega
    obtain ⟨outcome, final, t, hrun, -, hfault⟩ := exists_done_passes h hn _
    exact ⟨outcome, final, t, hrun, hfault⟩

theorem evaluations_minimize_le (w : Surroundings σ) (o : Options Float) (tau : Float) (n : Nat)
    (x : List Float) (s : σ) :
    ((minimize w o tau n x).run s).1.position.evaluations ≤ evaluationBound o := by
  rw [run_minimize]
  rcases start_cases w o x s with ⟨termination, final, hdone, hone⟩ | ⟨here, hgoing, -, h⟩
  · rw [hdone, passes_done]
    show final.evaluations ≤ _
    rw [hone]
    exact Nat.le_trans (by decide : 1 ≤ 2) (Nat.le_max_right _ _)
  · rw [hgoing]
    rcases continues_passes w tau n h ((start w x).run s).2 with
      ⟨there, _, hthere, hon, -⟩ | ⟨outcome, final, hdone, hbound⟩
    · rw [hthere]
      exact Nat.le_of_lt hon.below
    · rw [hdone]
      exact hbound

theorem progress_minimize (w : Surroundings σ) (o : Options Float) (tau : Float) (n : Nat)
    (x : List Float) (s : σ) :
    ((minimize w o tau (n + 1025) x).run s).1.isDone = true ∨
      ((minimize w o tau n x).run s).1.position.evaluations <
        ((minimize w o tau (n + 1025) x).run s).1.position.evaluations := by
  rw [run_minimize, run_minimize, run_passes_add]
  rcases start_cases w o x s with ⟨termination, final, hdone, -⟩ | ⟨here, hgoing, -, h⟩
  · rw [hdone, passes_done]
    exact Or.inl rfl
  · rw [hgoing]
    rcases continues_passes w tau n h ((start w x).run s).2 with
      ⟨there, raises, hthere, hon, -⟩ | ⟨outcome, final, hdone, -⟩
    · rw [hthere]
      exact progress_of_passes hon (Nat.lt_succ_of_le (there.patience_le raises)) _
    · rw [hdone, passes_done]
      exact Or.inl rfl

/-- A run ends, whatever it meets at any call, with a result or because the damping is no number any
more. Until then it evaluates again within every 1025 passes, so only so many raises of the damping
come between two evaluations; and the evaluations, with the one of the start, stay within the limit,
except that a limit below two is taken for two. -/
theorem minimize_ends (w : Surroundings σ) (o : Options Float) (tau : Float) (x : List Float)
    (s : σ) :
    (∃ outcome final t,
      (minimize w o tau (1025 * max o.maxEvaluations 2) x).run s = (.done outcome final, t) ∧
        ((∃ termination, outcome = .ok termination) ∨
          outcome = .error (.linearSolve "normal equations stayed indefinite") ∧
            final.damping.isFinite = false)) ∧
    (∀ n,
      let reached := ((minimize w o tau n x).run s).1
      let later := ((minimize w o tau (n + 1025) x).run s).1
      later.isDone = true ∨ reached.position.evaluations < later.position.evaluations) ∧
    ∀ n,
      let answer := (minimize w.watched o tau n x).run (s, [])
      answer.1.position.evaluations = answer.2.2.countP Call.isEvaluation ∧
        answer.1.position.evaluations ≤ max o.maxEvaluations 2 := by
  refine ⟨exists_done_minimize w o tau x s, fun n => progress_minimize w o tau n x s, fun n => ?_⟩
  exact ⟨(tallies_minimize rfl).evaluations_eq, evaluations_minimize_le w.watched o tau n x (s, [])⟩

/-- With a limit of zero a candidate is evaluated all the same. -/
theorem exists_candidate_over_limit :
    let o : Options Float := { onceOnly with maxEvaluations := 0 }
    let answer := (minimize (Surroundings.still toTwo standard.solve).watched o 1e-3 2 [0.0]).run
      ((), [])
    answer.1.isDone = true ∧ ¬answer.2.2.countP Call.isEvaluation - 1 ≤ o.maxEvaluations := by
  decide +kernel

end LevenbergMarquardt

end PlaneSketch
