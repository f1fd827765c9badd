import PlaneSketch.Freedom
import PlaneSketch.LeastSquares.Basic
import PlaneSketch.Residual

/-!
# Results of a solve

Every solve of a sketch with finite numbers has a result (`SolverResult`): the errors that are left
(`ErrorSummary`), what the minimizer spent, and the cause for which it counts as it does. Status and
message follow from the cause.
-/

namespace PlaneSketch

variable {α : Type}

inductive Cause (α : Type) where
  | invalid (defects : List (ConstraintId × Defect α))
  | overConstrained (equations unknowns : Nat)
  /-- The drawing meets the tolerances and nothing could be changed. -/
  | alreadySolved (status : Status)
  /-- The drawing does not meet the tolerances and nothing can be changed. -/
  | noFreeVariables (aggregate : α)
  | unavailable (minimizer : String)
  | failed (fault : MinimizerFault)
  /-- A residual is not finite, of this constraint if that can be said. -/
  | nonFinite (culprit : Option ConstraintId)
  | outOfEvaluations (evaluations : Nat) (aggregate : α)
  | solved (status : Status)
  | errorLeft (aggregate maxError : α) (worst : Option ConstraintId)
deriving DecidableEq

namespace Cause

def status : Cause α → Status
  | .invalid _ | .noFreeVariables _ | .nonFinite _ | .errorLeft .. => .inconsistent
  | .overConstrained .. => .overConstrained
  | .alreadySolved status | .solved status => status
  | .unavailable _ | .failed (.notAvailable _) => .noSolver
  | .failed (.linearSolve _) | .outOfEvaluations .. => .didntConverge

open NumberText in
def message [NumberText α] : Cause α → String
  | .invalid defects =>
    "Structurally invalid constraints: " ++
      "; ".intercalate (defects.map fun (id, d) => (Fault.invalidConstraint id d).message)
  | .overConstrained equations unknowns =>
    "Over-constrained: " ++ toString equations ++ " weighted constraints for " ++
      toString unknowns ++ " variables"
  | .alreadySolved _ => "Nothing to optimize"
  | .noFreeVariables aggregate =>
    "No free variables can reduce the remaining error " ++ scientific 3 aggregate
  | .unavailable minimizer => "Least-squares backend '" ++ minimizer ++ "' is not available"
  | .failed fault => fault.message
  | .nonFinite culprit =>
    "Residual evaluation produced a non-finite value" ++
      (culprit.map fun id => " (constraint " ++ id.name ++ ")").getD ""
  | .outOfEvaluations evaluations aggregate =>
    "Stopped after " ++ toString evaluations ++ " evaluations with aggregate error " ++
      scientific 3 aggregate
  | .solved status => "Solved: " ++ status.name
  | .errorLeft aggregate maxError worst =>
    "Converged to a non-zero residual: aggregate " ++ scientific 3 aggregate ++ ", max " ++
      scientific 3 maxError ++ (worst.map fun id => ", worst constraint " ++ id.name).getD ""

end Cause

structure ErrorSummary (α : Type) where
  /-- The norm of the errors, each times the weight of its constraint. -/
  aggregate : α
  maxError : α
  /-- The first constraint with the largest error. -/
  worst : Option ConstraintId
  /-- The first constraint whose error is not finite; it is left out of the rest. -/
  nonFinite : Option ConstraintId
deriving DecidableEq

namespace ErrorSummary

variable [Scalar α]

def none : ErrorSummary α := ⟨0.0, 0.0, Option.none, Option.none⟩

/-- Takes one more error in; until the end the aggregate is the sum of the squares. -/
def add (summary : ErrorSummary α) (c : Constraint α) (error : α) : ErrorSummary α :=
  if !Scalar.isFinite error then
    { summary with nonFinite := summary.nonFinite <|> some c.id }
  else
    let weighted := c.weight * error
    let summary := { summary with aggregate := summary.aggregate + weighted * weighted }
    if summary.worst.isNone || summary.maxError < error then
      { summary with maxError := error, worst := some c.id }
    else summary

def of (s : Sketch α) (constraints : List (Constraint α)) : ErrorSummary α :=
  let summary := constraints.foldl (fun summary c => summary.add c (s.errorOf c.requirement)) none
  { summary with aggregate := Scalar.sqrt summary.aggregate }

end ErrorSummary

structure SolveResult (α : Type) where
  cause : Cause α
  freedom : Freedom
  iterations : Nat
  evaluations : Nat
  errors : ErrorSummary α
  /-- The name of the minimizer, if it ran. -/
  minimizer : Option String
deriving DecidableEq

namespace SolveResult

def status (r : SolveResult α) : Status := r.cause.status

def isSuccess (r : SolveResult α) : Bool := r.status.isSuccess

def message [NumberText α] (r : SolveResult α) : String := r.cause.message

def withoutRun (cause : Cause α) (freedom : Freedom) (errors : ErrorSummary α) : SolveResult α :=
  ⟨cause, freedom, 0, 0, errors, none⟩

end SolveResult

end PlaneSketch
