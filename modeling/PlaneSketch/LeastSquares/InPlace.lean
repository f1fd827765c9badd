import PlaneSketch.LeastSquares.Jacobian
import PlaneSketch.Solve.Workspace

/-!
# Forward differences in place

The columns of a Jacobian as a loop measures them (`forward_jacobian`): one point, of which a
coordinate at a time is moved and put back, one vector, over which each evaluation writes, and a
matrix that takes the columns. The problem has a state of its own, and what it leaves in the vector
may depend on that and on what the vector held. Reading or writing outside a vector has no result,
nor has a difference of vectors of different lengths.
-/

namespace PlaneSketch

variable {α σ : Type}

/-- A problem, as it writes its residuals at a point over a vector. -/
abbrev Evaluator (α σ : Type) := List α → List α → StateM σ (List α)

/-- Where residuals were asked for, and what was left in the vector. -/
structure Evaluation (α : Type) where
  point : List α
  residuals : List α
deriving DecidableEq

namespace Evaluator

/-- The same problem, with a list of its evaluations. -/
def logged (evaluate : Evaluator α σ) : Evaluator α (σ × List (Evaluation α)) :=
  fun x out (s, log) =>
    let (residuals, t) := (evaluate x out).run s
    (residuals, (t, log ++ [⟨x, residuals⟩]))

def ask (evaluate : Evaluator α σ) (x out : List α) : StateT σ Option (List α) :=
  fun s => some ((evaluate x out).run s)

end Evaluator

/-- What the loop over the columns writes to. -/
structure Measuring (α : Type) where
  point : List α
  out : List α
  columns : List (List α)

variable [Scalar α]

/-- Measures the column of one variable. The step is the difference that the point shows. -/
def Measuring.measure (evaluate : Evaluator α σ) (x origin : List α) (held : Measuring α)
    (j : Nat) : StateT σ Option (Measuring α) := do
  let v ← x[j]?
  let point ← writeAt? held.point j (v + probeStep v)
  let probe : Probe α := ⟨point, (← point[j]?) - v⟩
  let out ← evaluate.ask point held.out
  guard (out.length = origin.length)
  let columns ← writeAt? held.columns j (probe.column out origin)
  return ⟨← writeAt? point j v, out, columns⟩

/-- The columns of the Jacobian at `x`, where the residuals are `origin`. -/
def Evaluator.jacobian (evaluate : Evaluator α σ) (x origin : List α) :
    StateT σ Option (List (List α)) := do
  let zeros := List.replicate origin.length 0.0
  let begun : Measuring α := ⟨x, zeros, List.replicate x.length zeros⟩
  let done ← (List.range x.length).foldlM (Measuring.measure evaluate x origin) begun
  return done.columns

end PlaneSketch
