import PlaneSketch.Sketch.Edit
import PlaneSketch.Solve.Trial

/-!
# Solving a sketch

A solve (`solve_inner`) refuses numbers that are not finite (`check_finite`), drops the constraints
on removed entities (`purge_dangling`), and goes no further when an active constraint does not fit
the sketch or when there are more equations than variables. The geometry changes only when a trial
is accepted.
-/

namespace PlaneSketch

variable {α σ : Type} [Scalar α]

/-- What keeps a sketch from being tried at all. -/
def Sketch.obstacle? (s : Sketch α) : Option (Cause α) :=
  if !s.invalidActive.isEmpty then some (.invalid s.invalidActive)
  else if s.freedom.isOverConstrained then
    some (.overConstrained s.freedom.equations s.freedom.unknowns)
  else none

/-- What a solve leaves: its result or the fault of the drawing, the sketch, and the calls of the
minimizer. -/
structure Solved (α : Type) where
  outcome : Except (Fault α) (SolveResult α)
  sketch : Sketch α
  rounds : List (Round α)

def Sketch.solve (s : Sketch α) (m : Minimizer α σ) (c : SolveConfig α) : StateM σ (Solved α) :=
  match s.checkNumbers with
  | .error fault => pure ⟨.error fault, s, []⟩
  | .ok () =>
    let s := s.purge.2
    match s.obstacle? with
    | some cause => pure ⟨.ok (.withoutRun cause s.freedom .none), s, []⟩
    | none => do
      let trial ← s.trial m c
      return ⟨.ok trial.result, if trial.accepted then trial.sketch else s, trial.rounds⟩

def Solved.reports (solved : Solved α) : List (Nat × α) :=
  solved.rounds.flatMap (·.run.reports)

end PlaneSketch
