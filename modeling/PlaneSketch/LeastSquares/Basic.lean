import PlaneSketch.Scalar

/-!
# Least-squares problems and minimizers

A problem (`LeastSquaresProblem`) asks for the `x` at which a vector of residuals is shortest. A
minimizer (`LeastSquaresBackend`) is anything that takes a problem and a start and leaves a better
`x`; it may evaluate the residuals where it likes, carry a state of its own from call to call, and
fail.
-/

namespace PlaneSketch

structure LeastSquares (α : Type) where
  variableCount : Nat
  residualCount : Nat
  residuals : List α → List α
  aggregate : List α → α

inductive Convergence where
  /-- The objective hardly fell any more. -/
  | objective
  /-- The step hardly moved. -/
  | step
  /-- The gradient vanished. -/
  | gradient
  /-- The residuals vanished. -/
  | zeroResidual
deriving DecidableEq

inductive Termination where
  | converged (test : Convergence)
  | maxEvaluations
  | nonFinite
deriving DecidableEq

def Termination.isConverged : Termination → Bool
  | .converged _ => true
  | _ => false

structure Minimization (α : Type) where
  termination : Termination
  /-- The accepted steps. -/
  iterations : Nat
  /-- The evaluations of the residuals, without those for a Jacobian. -/
  evaluations : Nat
  /-- Half the square of the norm of the final residuals. -/
  cost : α
deriving DecidableEq

inductive MinimizerFault where
  | notAvailable (reason : String)
  | linearSolve (reason : String)
deriving DecidableEq

def MinimizerFault.message : MinimizerFault → String
  | .notAvailable reason => "Backend not available: " ++ reason
  | .linearSolve reason => "Linear solve failed: " ++ reason

structure Options (α : Type) where
  ftol : α
  xtol : α
  gtol : α
  maxEvaluations : Nat
  /-- A report comes after every so many accepted steps; never for zero. -/
  progressInterval : Nat

/-- All that a call of a minimizer leaves: its word, the final `x` also after a failure, and the
pairs of iteration and error that it reported. -/
structure Run (α : Type) where
  outcome : Except MinimizerFault (Minimization α)
  x : List α
  reports : List (Nat × α)

/-- A minimizer with states `σ`. -/
structure Minimizer (α σ : Type) where
  name : String
  isAvailable : Bool
  minimize : LeastSquares α → List α → Options α → StateM σ (Run α)

/-- The minimizer of an installation without one. -/
def Minimizer.null {α σ : Type} : Minimizer α σ where
  name := "null"
  isAvailable := false
  minimize _ x _ :=
    let reason :=
      "no least-squares backend compiled in (enable the `levenberg-marquardt` feature)"
    pure ⟨.error (.notAvailable reason), x, []⟩

end PlaneSketch
