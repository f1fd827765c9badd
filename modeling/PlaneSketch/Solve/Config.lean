import PlaneSketch.Scalar

/-!
# Settings of a solve

What a solve can be told (`SolverConfig`), and when errors count as small (`accepts`).
-/

namespace PlaneSketch

structure SolveConfig (α : Type) where
  /-- The weight of the pull towards the drawing. -/
  damping : α
  ftol : α
  xtol : α
  gtol : α
  maxEvaluations : Nat
  /-- A success has its weighted error below this. -/
  aggregateTolerance : α
  /-- A success has every error below this. -/
  maxErrorTolerance : α
  progressInterval : Nat
  maxRounds : Nat
deriving DecidableEq

namespace SolveConfig

variable {α : Type} [Scalar α]

open Scalar

def standard : SolveConfig α where
  damping := 0.01
  ftol := 1e-8
  xtol := 1e-8
  gtol := 1e-8
  maxEvaluations := 1000
  aggregateTolerance := 1e-3
  maxErrorTolerance := 1e-2
  progressInterval := 10
  maxRounds := 20

/-- A negative weight counts as none. -/
def withDamping (c : SolveConfig α) (damping : α) : SolveConfig α :=
  { c with damping := larger 0.0 damping }

def withTolerance (c : SolveConfig α) (tolerance : α) : SolveConfig α :=
  { c with ftol := tolerance, xtol := tolerance, gtol := tolerance }

def withMaxEvaluations (c : SolveConfig α) (count : Nat) : SolveConfig α :=
  { c with maxEvaluations := count }

def withSuccessTolerances (c : SolveConfig α) (aggregate maxError : α) : SolveConfig α :=
  { c with aggregateTolerance := aggregate, maxErrorTolerance := maxError }

def withProgressInterval (c : SolveConfig α) (interval : Nat) : SolveConfig α :=
  { c with progressInterval := interval }

def accepts (c : SolveConfig α) (aggregate maxError : α) : Bool :=
  aggregate < c.aggregateTolerance && maxError < c.maxErrorTolerance

end SolveConfig

end PlaneSketch
