import PlaneSketch.LeastSquares.Rank
import PlaneSketch.Solve.Config

/-!
# Settings of a diagnosis

What an analysis can be told (`DiagnosticsConfig`), and how singular values are computed.
-/

namespace PlaneSketch

structure DiagnosisConfig (α : Type) [Scalar α] where
  solver : SolveConfig α
  /-- An implied constraint has at most this error where the others hold. -/
  redundancyTolerance : α
  /-- The singular values below this share of the largest count as zero. -/
  rankTolerance : α
  /-- Computes the singular values of a matrix with columns of the given length. -/
  singularValues : Nat → List (List α) → List α := PlaneSketch.singularValues 30
  /-- A line this close to an axis, in degrees, is proposed to be put on it. -/
  axisSnap : α
  /-- The constraints that are tested for redundancy, newest first. -/
  maxRedundancyCandidates : Nat
  maxConflictCandidates : Nat
  maxSuggestions : Nat

namespace DiagnosisConfig

variable {α : Type} [Scalar α]

def standard : DiagnosisConfig α where
  solver := .standard
  redundancyTolerance := 1e-6
  rankTolerance := 1e-6
  axisSnap := 5.0
  maxRedundancyCandidates := 64
  maxConflictCandidates := 24
  maxSuggestions := 12

def withSolver (c : DiagnosisConfig α) (solver : SolveConfig α) : DiagnosisConfig α :=
  { c with solver }

def withAxisSnap (c : DiagnosisConfig α) (degrees : α) : DiagnosisConfig α :=
  { c with axisSnap := degrees }

def withMaxSuggestions (c : DiagnosisConfig α) (count : Nat) : DiagnosisConfig α :=
  { c with maxSuggestions := count }

end DiagnosisConfig

end PlaneSketch
