import PlaneSketch.Binary64
import PlaneSketch.LeastSquares.Jacobian
import PlaneSketch.LeastSquares.Cholesky

/-!
# Levenberg–Marquardt

A minimizer (`minimize`) that solves the damped normal equations `(JᵀJ + μ D) h = -Jᵀr` for a step
`h`. The damping `μ` falls after a step that lowers the objective and is raised, by factors that
double each time, until a step does. The scales `D` are the diagonal of `JᵀJ`, none below a fixed
share of the largest one, so that variables which the residuals barely see are damped too.

Both loops end on their own account. Every step that is tried is an evaluation, and those have a
limit; and between two evaluations the damping can be raised only so often until it is infinite,
because the factor is infinite once binary64 has no larger power of two.
-/

namespace PlaneSketch

open Scalar

/-! ### Growth of the damping -/

def infinite64 : Float := Float.ofBits 0x7ff0000000000000

/-- The factor by which the damping is raised after so many raises in a row: 2, 4, 8, and so on as
long as binary64 has the power of two, and infinity from there. -/
def dampingGrowth (raises : Nat) : Float :=
  if raises < 1023 then Float.ofNat (1 <<< (raises + 1)) else infinite64

open Float.Model in
theorem isFinite_mul_infinite64 (x : Float) : (x * infinite64).isFinite = false := by
  show (Float.Model.pack (UnpackedFloat.mul Format.binary64 x.toModel.unpack
    infinite64.toModel.unpack)).isFinite = false
  have unpacked : infinite64.toModel.unpack = .infinity .positive := rfl
  have undefined : (Float.Model.pack .notANumber).isFinite = false := by decide
  have infinite : ∀ s, (Float.Model.pack (.infinity s)).isFinite = false := by
    intro s
    cases s <;> decide
  rw [unpacked]
  cases x.toModel.unpack with
  | notANumber | zero _ => exact undefined
  | infinity _ | finite _ _ _ _ => exact infinite _

theorem lt_of_isFinite_mul_dampingGrowth {mu : Float} {raises : Nat}
    (h : (mu * dampingGrowth raises).isFinite = true) : raises < 1023 := by
  by_cases bound : raises < 1023
  · exact bound
  · rw [dampingGrowth, if_neg bound, isFinite_mul_infinite64] at h
    exact absurd h (by decide)

/-! ### A run -/

/-- What happens in a run, other than for a Jacobian. -/
inductive DescentEvent where
  /-- The residuals were evaluated. -/
  | evaluated (x : List Float)
  /-- The damping was raised, because the system had no solution or the step did not help. -/
  | raised (damping : Float)
  | accepted (x : List Float)
  | reported (iteration : Nat) (error : Float)
deriving DecidableEq

structure Standing where
  x : List Float
  residuals : List Float
  /-- Half the square of their norm. -/
  cost : Float
  iterations : Nat
  evaluations : Nat
  /-- All events so far, the last one first. -/
  history : List DescentEvent

def Standing.evaluate (s : Standing) (x : List Float) : Standing :=
  { s with evaluations := s.evaluations + 1, history := .evaluated x :: s.history }

def Standing.raise (s : Standing) (damping : Float) : Standing :=
  { s with history := .raised damping :: s.history }

/-- The standing after an accepted step, with a report when one is due. -/
def Standing.accept (s : Standing) (p : LeastSquares Float) (o : Options Float)
    (x residuals : List Float) (cost : Float) : Standing :=
  let iterations := s.iterations + 1
  let history := .accepted x :: s.history
  { s with
    x, residuals, cost, iterations
    history :=
      if 0 < o.progressInterval && iterations % o.progressInterval = 0 then
        .reported iterations (p.aggregate residuals) :: history
      else history }

structure Descent where
  outcome : Except MinimizerFault Termination
  final : Standing

inductive Attempt where
  | ended (d : Descent)
  /-- A better point was found, and the damping falls to `damping`. -/
  | moved (next : Standing) (damping : Float)

def halfSquare (residuals : List Float) : Float := 0.5 * normSquared residuals

def allFinite (values : List Float) : Bool := values.all Float.isFinite

structure LevenbergMarquardt where
  /-- The first damping, relative to the largest scale. -/
  tau : Float
  solve : List (List Float) → List Float → Option (List Float)

namespace LevenbergMarquardt

def standard : LevenbergMarquardt := ⟨1e-3, solveSymmetric⟩

/-- The problem near a point: the gradient, the lower triangle of `JᵀJ` and the scales. -/
structure Local where
  gradient : List Float
  gram : List (List Float)
  scales : List Float

def Local.of (columns : List (List Float)) (residuals : List Float) : Local :=
  let gram := gramTriangle columns
  let diagonal := triangleDiagonal gram
  let least := larger (peak diagonal * 1e-2) 1e-12
  ⟨PlaneSketch.gradient columns residuals, gram, diagonal.map (larger · least)⟩

/-- The right-hand side of the normal equations. -/
def Local.downhill (l : Local) : List Float := l.gradient.map (-·)

/-- The matrix of the damped normal equations. -/
def Local.damped (l : Local) (mu : Float) : List (List Float) :=
  withDiagonal (fun e scale => e + mu * scale) l.gram l.scales

/-- By how much the quadratic model says that a step lowers the objective. -/
def Local.predicted (l : Local) (mu : Float) (step : List Float) : Float :=
  0.5 * dot step
    (List.zipWith (· - ·) ((List.zipWith (· * ·) step l.scales).map (· * mu)) l.gradient)

/-- The share of the predicted reduction that came true; none where no reduction was predicted. -/
def gainRatio (cost trial predicted : Float) : Float :=
  if 0.0 < predicted then (cost - trial) / predicted else -1.0

/-- The damping after a step that won the share `rho` of the prediction. -/
def relaxed (mu rho : Float) : Float :=
  let t := 2.0 * rho - 1.0
  mu * larger (1.0 / 3.0) (1.0 - t * t * t)

/-- Tries steps with more and more damping until one lowers the objective. -/
def attempt (lm : LevenbergMarquardt) (p : LeastSquares Float) (o : Options Float) (l : Local)
    (here : Standing) (mu : Float) (raises : Nat) : Attempt :=
  let raised := mu * dampingGrowth raises
  match lm.solve (l.damped mu) l.downhill with
  | none =>
    if finite : raised.isFinite = true then
      attempt lm p o l (here.raise raised) raised (raises + 1)
    else .ended ⟨.error (.linearSolve "normal equations stayed indefinite"), here⟩
  | some step =>
    if norm step ≤ o.xtol * (norm here.x + o.xtol) then
      .ended ⟨.ok (.converged .step), here⟩
    else
      let candidate := List.zipWith (· + ·) here.x step
      let residuals := p.residuals candidate
      let tried := here.evaluate candidate
      if !allFinite residuals then .ended ⟨.ok .nonFinite, tried⟩
      else
        let cost := halfSquare residuals
        let rho := gainRatio here.cost cost (l.predicted mu step)
        if 0.0 < rho then
          .moved (tried.accept p o candidate residuals cost) (relaxed mu rho)
        else if spent : o.maxEvaluations ≤ tried.evaluations then
          .ended ⟨.ok .maxEvaluations, tried⟩
        else attempt lm p o l (tried.raise raised) raised (raises + 1)
termination_by (o.maxEvaluations - here.evaluations, 1023 - raises)
decreasing_by
  · have := lt_of_isFinite_mul_dampingGrowth finite
    right
    omega
  · left
    simp only [tried, Standing.evaluate, Standing.raise] at spent ⊢
    omega

/-- A point is moved to only after it was evaluated. -/
theorem evaluations_lt_of_attempt {lm : LevenbergMarquardt} {p : LeastSquares Float}
    {o : Options Float} {l : Local} {here next : Standing} {mu damping : Float} {raises : Nat}
    (h : attempt lm p o l here mu raises = .moved next damping) :
    here.evaluations < next.evaluations := by
  fun_induction attempt lm p o l here mu raises with
  | case1 here mu raises raised unsolved finite ih => exact ih h
  | case5 here mu raises step solved long candidate residuals tried usable cost rho gain =>
    cases h
    exact Nat.lt_succ_self _
  | case7 here mu raises raised step solved long candidate residuals tried usable cost rho gain
      spent ih =>
    exact Nat.lt_trans (Nat.lt_succ_self _) (ih h)
  | _ => simp at h

def descend (lm : LevenbergMarquardt) (p : LeastSquares Float) (o : Options Float)
    (here : Standing) (damping? : Option Float) : Descent :=
  if here.cost ≤ 2.2250738585072014e-308 then ⟨.ok (.converged .zeroResidual), here⟩
  else
    let columns := p.jacobianColumns here.x here.residuals
    if !columns.all allFinite then ⟨.ok .nonFinite, here⟩
    else
      let l := Local.of columns here.residuals
      if peakAbs l.gradient ≤ o.gtol then ⟨.ok (.converged .gradient), here⟩
      else
        match moved : attempt lm p o l here (damping?.getD (lm.tau * peak l.scales)) 0 with
        | .ended d => d
        | .moved next damping =>
          have : here.evaluations < next.evaluations := evaluations_lt_of_attempt moved
          if here.cost - next.cost ≤ o.ftol * here.cost then
            ⟨.ok (.converged .objective), next⟩
          else if spent : o.maxEvaluations ≤ next.evaluations then ⟨.ok .maxEvaluations, next⟩
          else
            have : next.evaluations < o.maxEvaluations := Nat.lt_of_not_le spent
            descend lm p o next (some damping)
termination_by o.maxEvaluations - here.evaluations

def run (lm : LevenbergMarquardt) (p : LeastSquares Float) (x : List Float) (o : Options Float) :
    Descent :=
  let residuals := p.residuals x
  let start : Standing := ⟨x, residuals, halfSquare residuals, 0, 1, [.evaluated x]⟩
  if !allFinite residuals then ⟨.ok .nonFinite, start⟩
  else if x.isEmpty then ⟨.ok (.converged .step), start⟩
  else lm.descend p o start none

end LevenbergMarquardt

def Descent.toRun (d : Descent) : Run Float where
  outcome := d.outcome.map fun termination =>
    ⟨termination, d.final.iterations, d.final.evaluations, d.final.cost⟩
  x := d.final.x
  reports := (d.final.history.filterMap fun
    | .reported iteration error => some (iteration, error)
    | _ => none).reverse

/-- The minimizer, which keeps no state. -/
def LevenbergMarquardt.minimizer {σ : Type} (lm : LevenbergMarquardt) : Minimizer Float σ where
  name := "levenberg-marquardt"
  isAvailable := true
  minimize p x o := pure (lm.run p x o).toRun

/-- The minimizer that is used when none is chosen. -/
def Minimizer.default {σ : Type} : Minimizer Float σ := LevenbergMarquardt.standard.minimizer

end PlaneSketch
