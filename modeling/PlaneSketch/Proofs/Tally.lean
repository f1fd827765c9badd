import PlaneSketch.LeastSquares.Passes
import PlaneSketch.Proofs.Descent

/-!
# The tally of a run

Whatever a run of Levenberg–Marquardt (`minimize`) meets, its counters say what it asked for: the
evaluations are the residuals that were asked for other than for a Jacobian, and the iterations are
the moves. A report is due after every so many moves; it comes right after its move, with the error
of the residuals at the point moved to.
-/

namespace PlaneSketch

open Scalar

namespace LevenbergMarquardt

variable {σ : Type} {w : Surroundings σ} {o : Options Float} {tau : Float}

/-! ### One pass -/

theorem run_bind_eq {β γ : Type} {act : StateM σ β} {b : β} {s t : σ} (h : act.run s = (b, t))
    (next : β → StateM σ γ) : (act >>= next).run s = (next b).run t := by
  rw [StateT.run_bind, h]
  rfl

/-- What one pass can do, and what it asks of the surroundings on the way. -/
inductive Does (w : Surroundings σ) (o : Options Float) (tau : Float) (here : Position) (s : σ) :
    Pass → σ → Prop
  | vanished (new : here.near? = none) :
    Does w o tau here s (.done (.ok (.converged .zeroResidual)) here) s
  | surveyed (new : here.near? = none) {columns : List (List Float)} {t : σ}
    (measured : (jacobianColumnsM w.probe here.x here.residuals).run s = (columns, t)) :
    Does w o tau here s (surveyed o tau here columns) t
  | unsolved {l : Local} (near : here.near? = some l) {t : σ}
    (solved : (w.solve (l.damped here.damping) l.downhill).run s = (none, t)) :
    Does w o tau here s (unsolved here) t
  | short {l : Local} (near : here.near? = some l) {step : List Float} {t : σ}
    (solved : (w.solve (l.damped here.damping) l.downhill).run s = (some step, t)) :
    Does w o tau here s (.done (.ok (.converged .step)) here) t
  | nonFinite {l : Local} (near : here.near? = some l) {step candidate residuals : List Float}
    {t u : σ} (solved : (w.solve (l.damped here.damping) l.downhill).run s = (some step, t))
    (evaluated : (w.residuals candidate).run t = (residuals, u)) :
    Does w o tau here s (.done (.ok .nonFinite) here.tried) u
  | rejected {l : Local} (near : here.near? = some l) {step candidate residuals : List Float}
    {t u : σ} (solved : (w.solve (l.damped here.damping) l.downhill).run s = (some step, t))
    (evaluated : (w.residuals candidate).run t = (residuals, u)) :
    Does w o tau here s (rejected o here) u
  | accepted {l : Local} (near : here.near? = some l) {step candidate residuals : List Float}
    {cost rho : Float} {t u v z : σ}
    (solved : (w.solve (l.damped here.damping) l.downhill).run s = (some step, t))
    (evaluated : (w.residuals candidate).run t = (residuals, u))
    (moved : (w.move candidate).run u = ((), v))
    (reported : (report w o (here.tried.accept candidate residuals cost rho)).run v = ((), z)) :
    Does w o tau here s (settle o here.cost (here.tried.accept candidate residuals cost rho)) z

theorem does_survey {here : Position} (new : here.near? = none) (s : σ) :
    Does w o tau here s ((survey w o tau here).run s).1 ((survey w o tau here).run s).2 := by
  unfold survey
  split
  · exact .vanished new
  · exact .surveyed new rfl

theorem does_tryStep {here : Position} {l : Local} (near : here.near? = some l) (s : σ) :
    Does w o tau here s ((tryStep w o l here).run s).1 ((tryStep w o l here).run s).2 := by
  unfold tryStep
  obtain ⟨⟨step?, t⟩, solved⟩ : ∃ answer,
      (w.solve (l.damped here.damping) l.downhill).run s = answer := ⟨_, rfl⟩
  rw [run_bind_eq solved]
  cases step? with
  | none => exact .unsolved near solved
  | some step =>
    dsimp only
    split
    · exact .short near solved
    · obtain ⟨⟨residuals, u⟩, evaluated⟩ : ∃ answer,
        (w.residuals (List.zipWith (· + ·) here.x step)).run t = answer := ⟨_, rfl⟩
      rw [run_bind_eq evaluated]
      split
      · exact .nonFinite near solved evaluated
      · split
        · exact .accepted near solved evaluated rfl rfl
        · exact .rejected near solved evaluated

theorem does_pass (w : Surroundings σ) (o : Options Float) (tau : Float) (here : Position) (s : σ) :
    Does w o tau here s ((pass w o tau here).run s).1 ((pass w o tau here).run s).2 := by
  unfold pass
  cases near : here.near? with
  | none => exact does_survey near s
  | some l => exact does_tryStep near s

end LevenbergMarquardt

/-! ### Lists of calls -/

open LevenbergMarquardt (isDue)

def Call.isEvaluation : Call → Bool
  | .evaluated .. => true
  | _ => false

def Call.isMove : Call → Bool
  | .moved _ => true
  | _ => false

def Call.report? : Call → Option (Nat × Float)
  | .reported iteration error => some (iteration, error)
  | _ => none

/-- Which calls, the last one first, lead a run to a point with some residuals, after how many
evaluations and moves. -/
inductive Tally (interval : Nat) : List Call → List Float → List Float → Nat → Nat → Prop
  | started (x residuals : List Float) : Tally interval [.evaluated x residuals] x residuals 1 0
  | tried {calls x residuals evaluations iterations} (candidate tried : List Float)
    (h : Tally interval calls x residuals evaluations iterations) :
    Tally interval (.evaluated candidate tried :: calls) x residuals (evaluations + 1) iterations
  | moved {calls x residuals evaluations iterations} (candidate tried : List Float)
    (h : Tally interval calls x residuals evaluations iterations)
    (early : isDue interval (iterations + 1) = false) :
    Tally interval (.moved candidate :: .evaluated candidate tried :: calls) candidate tried
      (evaluations + 1) (iterations + 1)
  | reported {calls x residuals evaluations iterations} (candidate tried : List Float)
    (error : Float) (h : Tally interval calls x residuals evaluations iterations)
    (due : isDue interval (iterations + 1) = true) :
    Tally interval
      (.reported (iterations + 1) error :: .aggregated tried error :: .moved candidate ::
        .evaluated candidate tried :: calls)
      candidate tried (evaluations + 1) (iterations + 1)

namespace Tally

variable {interval : Nat} {calls : List Call} {x residuals : List Float}
  {evaluations iterations : Nat}

theorem evaluations_eq (h : Tally interval calls x residuals evaluations iterations) :
    evaluations = calls.countP Call.isEvaluation := by
  induction h with
  | started => rfl
  | tried _ _ _ ih | moved _ _ _ _ ih | reported _ _ _ _ _ ih =>
    simp [List.countP_cons, Call.isEvaluation, ih]

theorem iterations_eq (h : Tally interval calls x residuals evaluations iterations) :
    iterations = calls.countP Call.isMove := by
  induction h with
  | started => rfl
  | tried _ _ _ ih | moved _ _ _ _ ih | reported _ _ _ _ _ ih =>
    simp [List.countP_cons, Call.isMove, ih]

/-- Every move was evaluated before, and so was the start. -/
theorem iterations_lt (h : Tally interval calls x residuals evaluations iterations) :
    iterations < evaluations := by
  induction h with
  | started => exact Nat.zero_lt_one
  | tried _ _ _ ih => exact Nat.lt_succ_of_lt ih
  | moved _ _ _ _ ih | reported _ _ _ _ _ ih => exact Nat.succ_lt_succ ih

theorem reports_eq (h : Tally interval calls x residuals evaluations iterations) :
    (calls.filterMap Call.report?).reverse.map (·.1) =
      (List.range' 1 iterations).filter (isDue interval) := by
  induction h with
  | started => rfl
  | tried _ _ _ ih => exact ih
  | @moved calls _ _ _ iterations _ _ _ early ih =>
    rw [List.range'_1_concat, List.filter_append, ← ih, Nat.add_comm 1]
    rw [List.filter_cons_of_neg (by simp [early]), List.filter_nil, List.append_nil]
    rfl
  | @reported calls _ _ _ iterations _ _ error _ due ih =>
    -- the last report has the number of the last move, which is the last number of the range
    rw [List.range'_1_concat, List.filter_append, ← ih, Nat.add_comm 1]
    show (((iterations + 1, error) :: calls.filterMap Call.report?).reverse).map (·.1) = _
    rw [List.filter_cons_of_pos due, List.filter_nil, List.reverse_cons, List.map_append]
    rfl

theorem exists_of_cons {c : Call} {later before : List Call} {iteration : Nat} {error : Float}
    (h : c :: calls = later ++ .reported iteration error :: before) (hother : c.report? = none) :
    ∃ later, calls = later ++ .reported iteration error :: before := by
  cases later with
  | nil =>
    cases h
    cases hother
  | cons _ later => exact ⟨later, (List.cons.inj h).2⟩

/-- A report comes right after the move that it is about. -/
theorem before_report (h : Tally interval calls x residuals evaluations iterations)
    {later before : List Call} {iteration : Nat} {error : Float}
    (hcalls : calls = later ++ .reported iteration error :: before) :
    iteration = before.countP Call.isMove ∧ ∃ x residuals earlier,
      before = .aggregated residuals error :: .moved x :: .evaluated x residuals :: earlier := by
  induction h generalizing later with
  | started =>
    obtain ⟨later, hnone⟩ := exists_of_cons hcalls rfl
    exact absurd hnone.symm (List.append_ne_nil_of_right_ne_nil _ (List.cons_ne_nil _ _))
  | tried candidate tried h ih =>
    obtain ⟨later, hcalls⟩ := exists_of_cons hcalls rfl
    exact ih hcalls
  | moved candidate tried h early ih =>
    -- neither of the two calls is a report, so it is one of those before
    obtain ⟨later, hcalls⟩ := exists_of_cons hcalls rfl
    obtain ⟨later, hcalls⟩ := exists_of_cons hcalls rfl
    exact ih hcalls
  | @reported calls _ _ _ _ candidate tried _ h due ih =>
    cases later with
    | nil =>
      cases hcalls
      refine ⟨?_, candidate, tried, calls, rfl⟩
      rw [h.iterations_eq]
      simp [Call.isMove, List.countP_cons]
    | cons _ later =>
      obtain ⟨later, hcalls⟩ := exists_of_cons (List.cons.inj hcalls).2 rfl
      obtain ⟨later, hcalls⟩ := exists_of_cons hcalls rfl
      obtain ⟨later, hcalls⟩ := exists_of_cons hcalls rfl
      exact ih hcalls

end Tally

/-! ### Watched passes -/

variable {σ : Type}

namespace Surroundings

theorem calls_record {β : Type} {act : StateM σ β} {call : β → Call} {s t : σ × List Call} {b : β}
    (h : (record act call).run s = (b, t)) : t.2 = call b :: s.2 := by
  cases h
  rfl

theorem calls_unrecorded {β : Type} {act : StateM σ β} {s t : σ × List Call} {b : β}
    (h : (unrecorded act).run s = (b, t)) : t.2 = s.2 := by
  cases h
  rfl

variable {w : Surroundings σ} {x : List Float} {s t : σ × List Call}

theorem calls_residuals {residuals : List Float}
    (h : (w.watched.residuals x).run s = (residuals, t)) : t.2 = .evaluated x residuals :: s.2 :=
  calls_record h

theorem calls_move (h : (w.watched.move x).run s = ((), t)) : t.2 = .moved x :: s.2 := by
  cases h
  rfl

theorem calls_solve {matrix : List (List Float)} {side : List Float} {step? : Option (List Float)}
    (h : (w.watched.solve matrix side).run s = (step?, t)) : t.2 = s.2 :=
  calls_unrecorded h

theorem calls_mapM {β γ : Type} {f : β → StateM (σ × List Call) γ}
    (hf : ∀ b s, ((f b).run s).2.2 = s.2) (l : List β) (s : σ × List Call) :
    ((l.mapM f).run s).2.2 = s.2 := by
  induction l generalizing s with
  | nil => rfl
  | cons b rest ih =>
    rw [List.mapM_cons]
    exact (ih _).trans (hf b s)

/-- What is asked for a Jacobian is not on the list. -/
theorem calls_jacobianColumnsM {residuals : List Float} {columns : List (List Float)}
    (h : (jacobianColumnsM w.watched.probe x residuals).run s = (columns, t)) : t.2 = s.2 := by
  have hcalls : ((jacobianColumnsM w.watched.probe x residuals).run s).2.2 = s.2 :=
    calls_mapM (fun _ _ => rfl) _ s
  rw [← hcalls, h]

end Surroundings

namespace LevenbergMarquardt

open Surroundings

variable {w : Surroundings σ} {o : Options Float} {tau : Float}

/-- After how many moves somebody hears of one; zero for never. -/
def reportInterval (w : Surroundings σ) (o : Options Float) : Nat :=
  if w.listener?.isSome then o.progressInterval else 0

theorem calls_report {here : Position} {s t : σ × List Call}
    (h : (report w.watched o here).run s = ((), t)) :
    isDue (reportInterval w o) here.iterations = false ∧ t.2 = s.2 ∨
      isDue (reportInterval w o) here.iterations = true ∧ ∃ error,
        t.2 = .reported here.iterations error :: .aggregated here.residuals error :: s.2 := by
  unfold report at h
  unfold reportInterval
  cases hlistener : w.listener? with
  | none =>
    left
    refine ⟨rfl, ?_⟩
    simp only [watched, hlistener, Option.map_none, ite_self] at h
    cases h
    rfl
  | some listener =>
    simp only [watched, hlistener, Option.map_some] at h
    show isDue o.progressInterval here.iterations = false ∧ _ ∨
      isDue o.progressInterval here.iterations = true ∧ _
    cases hdue : isDue o.progressInterval here.iterations with
    | false =>
      left
      rw [hdue] at h
      cases h
      exact ⟨rfl, rfl⟩
    | true =>
      right
      rw [hdue] at h
      cases h
      exact ⟨rfl, _, rfl⟩

def Pass.position : Pass → Position
  | .going here => here
  | .done _ here => here

def Pass.isDone : Pass → Bool
  | .going _ => false
  | .done .. => true

/-- The calls lead to this position. -/
def Position.Tallies (here : Position) (interval : Nat) (calls : List Call) : Prop :=
  Tally interval calls here.x here.residuals here.evaluations here.iterations

theorem position_surveyed (here : Position) (columns : List (List Float)) :
    ∃ damping near?,
      (surveyed o tau here columns).position = { here with damping, near? } := by
  unfold surveyed
  dsimp only
  split
  · exact ⟨_, _, rfl⟩
  · split <;> exact ⟨_, _, rfl⟩

theorem position_unsolved (here : Position) : (unsolved here).position = here.raise := by
  unfold unsolved
  dsimp only
  split <;> rfl

theorem position_rejected (here : Position) : (rejected o here).position = here.tried.raise := by
  unfold rejected
  dsimp only
  split <;> rfl

theorem position_settle (previous : Float) (here : Position) :
    (settle o previous here).position = here := by
  unfold settle
  split
  · rfl
  · split <;> rfl

/-- A pass keeps the tally. -/
theorem Does.tallies {here : Position} {s t : σ × List Call} {reached : Pass}
    (hdoes : Does w.watched o tau here s reached t)
    (h : here.Tallies (reportInterval w o) s.2) :
    reached.position.Tallies (reportInterval w o) t.2 := by
  unfold Position.Tallies at h ⊢
  cases hdoes with
  | vanished => exact h
  | surveyed _ measured =>
    obtain ⟨_, _, hposition⟩ := position_surveyed here _
    rw [hposition, calls_jacobianColumnsM measured]
    exact h
  | unsolved _ solved =>
    rw [position_unsolved, calls_solve solved]
    exact h
  | short _ solved =>
    rw [calls_solve solved]
    exact h
  | nonFinite _ solved evaluated =>
    rw [calls_residuals evaluated, calls_solve solved]
    exact h.tried _ _
  | rejected _ solved evaluated =>
    rw [position_rejected, calls_residuals evaluated, calls_solve solved]
    exact h.tried _ _
  | accepted _ solved evaluated moved reported =>
    rw [position_settle]
    rcases calls_report reported with ⟨early, hcalls⟩ | ⟨due, error, hcalls⟩
    · rw [hcalls, calls_move moved, calls_residuals evaluated, calls_solve solved]
      exact h.moved _ _ early
    · rw [hcalls, calls_move moved, calls_residuals evaluated, calls_solve solved]
      exact h.reported _ _ error due

theorem tallies_passes {n : Nat} {begun reached : Pass} {s t : σ × List Call}
    (hrun : (passes w.watched o tau n begun).run s = (reached, t))
    (h : begun.position.Tallies (reportInterval w o) s.2) :
    reached.position.Tallies (reportInterval w o) t.2 := by
  induction n generalizing begun s with
  | zero =>
    cases hrun
    exact h
  | succ n ih =>
    cases begun with
    | done outcome final =>
      cases hrun
      exact h
    | going here => exact ih hrun ((does_pass w.watched o tau here s).tallies h)

theorem tallies_start {x : List Float} {s : σ} {reached : Pass} {t : σ × List Call}
    (interval : Nat) (hrun : (start w.watched x).run (s, []) = (reached, t)) :
    reached.position.Tallies interval t.2 := by
  unfold start at hrun
  obtain ⟨⟨residuals, u⟩, evaluated⟩ : ∃ answer, (w.watched.residuals x).run (s, []) = answer :=
    ⟨_, rfl⟩
  have hstarted : Tally interval u.2 x residuals 1 0 := by
    rw [calls_residuals evaluated]
    exact .started x residuals
  rw [run_bind_eq evaluated] at hrun
  split at hrun
  · cases hrun
    exact hstarted
  · split at hrun
    · cases hrun
      exact hstarted
    · cases hrun
      exact hstarted

theorem tallies_minimize {x : List Float} {s : σ} {n : Nat} {reached : Pass} {t : σ × List Call}
    (hrun : (minimize w.watched o tau n x).run (s, []) = (reached, t)) :
    reached.position.Tallies (reportInterval w o) t.2 := by
  unfold minimize at hrun
  obtain ⟨⟨begun, u⟩, hstart⟩ : ∃ answer, (start w.watched x).run (s, []) = answer := ⟨_, rfl⟩
  rw [run_bind_eq hstart] at hrun
  exact tallies_passes hrun (tallies_start (reportInterval w o) hstart)

/-- The result of a run tallies with what it asked for, whatever it met. The evaluations are the
residuals asked for other than for a Jacobian, the iterations are the moves, and the former are
more. Reports came after the moves whose numbers are multiples of the interval, in their order and
once each, and none for the interval zero or without a listener; and each came right after its move,
with the error that the problem gave for the residuals at that point. -/
theorem minimize_tallies (w : Surroundings σ) (o : Options Float) (tau : Float) (x : List Float)
    (s : σ) (n : Nat) (outcome : Except MinimizerFault Termination) (final : Position) (t : σ)
    (calls : List Call)
    (hrun : (minimize w.watched o tau n x).run (s, []) = (.done outcome final, (t, calls))) :
    final.evaluations = calls.countP Call.isEvaluation ∧
    final.iterations = calls.countP Call.isMove ∧
    final.iterations ≤ final.evaluations - 1 ∧
    (calls.filterMap Call.report?).reverse.map (·.1) =
      (List.range' 1 final.iterations).filter (isDue (reportInterval w o)) ∧
    ∀ later before iteration error, calls = later ++ .reported iteration error :: before →
      iteration = before.countP Call.isMove ∧ ∃ x residuals earlier,
        before = .aggregated residuals error :: .moved x :: .evaluated x residuals :: earlier := by
  have h : final.Tallies (reportInterval w o) calls := tallies_minimize hrun
  refine ⟨h.evaluations_eq, h.iterations_eq, Nat.le_sub_one_of_lt h.iterations_lt, h.reports_eq, ?_⟩
  intro later before iteration error hcalls
  exact h.before_report hcalls

def eachStep : Options Float := { onceOnly with progressInterval := 1 }

theorem minimize_tallies_toTwo :
    let x := [1.998001998001998]
    let residuals := toTwo.residuals x
    let error := toTwo.aggregate residuals
    let before := [.aggregated residuals error, .moved x, .evaluated x residuals,
      .evaluated [0.0] [-2.0]]
    ∃ outcome final t,
      (minimize (still toTwo standard.solve).watched eachStep 1e-3 2 [0.0]).run ((), []) =
        (.done outcome final, (t, .reported 1 error :: before)) ∧
      1 = before.countP Call.isMove ∧ final.evaluations = 2 ∧ final.iterations = 1 := by
  intro x residuals error before
  have hcalls : ((minimize (still toTwo standard.solve).watched eachStep 1e-3 2 [0.0]).run
      ((), [])).2.2 = .reported 1 error :: before := by
    decide +kernel
  have hdone : ((minimize (still toTwo standard.solve).watched eachStep 1e-3 2 [0.0]).run
      ((), [])).1.isDone = true := by
    decide +kernel
  generalize hrun : (minimize (still toTwo standard.solve).watched eachStep 1e-3 2 [0.0]).run
    ((), []) = answer at hcalls hdone
  obtain ⟨_ | ⟨outcome, final⟩, t, calls⟩ := answer
  · cases hdone
  · obtain ⟨hevaluations, hiterations, -, -, hreports⟩ :=
      minimize_tallies _ eachStep 1e-3 [0.0] () 2 outcome final t calls hrun
    obtain rfl : calls = .reported 1 error :: before := hcalls
    exact ⟨outcome, final, t, rfl, (hreports [] before 1 error rfl).1, hevaluations, hiterations⟩

end LevenbergMarquardt

end PlaneSketch
