import PlaneSketch.Diagnosis.Basic
import PlaneSketch.Solve

/-!
# Analysing a sketch

An analysis says why a sketch solves the way it does (`analyze`). It works on a copy from which the
constraints on removed entities are gone, and has gates of its own in front of the trial: finite
numbers, active constraints that fit, and no more equations than variables.
-/

namespace PlaneSketch

variable {α σ : Type} [Scalar α]

/-- Where an analysis of a sketch stands after the gates: its status, the result of the trial if
there was one, and the state that is looked at. -/
structure Examination (α : Type) where
  status : Status
  solve? : Option (SolveResult α)
  state : Sketch α

/-- Whether a constraint that takes part in solving does not fit. -/
def Sketch.hasInvalid (s : Sketch α) : Bool :=
  s.invalidConstraints.any fun (id, _) => (s.constraint? id).any (·.isActive)

/-- Passes a sketch through the gates of an analysis. The state is the solved one only if the trial
is accepted. -/
def Sketch.examine (s : Sketch α) (m : Minimizer α σ) (c : SolveConfig α) :
    StateM σ (Examination α) :=
  if s.hasInvalid then pure ⟨.inconsistent, none, s⟩
  else if s.freedom.isOverConstrained then pure ⟨.overConstrained, none, s⟩
  else do
    let trial ← s.trial m c
    return ⟨trial.result.status, some trial.result, if trial.accepted then trial.sketch else s⟩

def Status.mayConflict : Status → Bool
  | .overConstrained | .inconsistent | .didntConverge => true
  | _ => false

def Sketch.diagnose [NumberText α] (sketch : Sketch α) (m : Minimizer α σ) (c : DiagnosisConfig α) :
    StateM σ (Except (Fault α) (Diagnosis α)) :=
  match sketch.checkNumbers with
  | .error fault => pure (.error fault)
  | .ok () => do
    let (purged, s) := sketch.purge
    let examined ← s.examine m c.solver
    let redundant ← if s.hasInvalid then pure [] else s.redundancies m c
    let conflicts ←
      if examined.status.mayConflict then s.conflicts m c (!s.hasInvalid) else pure []
    return .ok {
      name := s.name
      status := examined.status
      freedom := s.freedom
      constraints := s.constraints.map fun k =>
        ⟨k, examined.state.errorOf k.requirement, redundant.any (·.id = k.id),
          (redundant.find? (·.id = k.id)).map (·.reason)⟩
      redundant := redundant.map (·.id)
      conflicts
      suggestions :=
        if examined.status = .underConstrained then examined.state.suggestions c else []
      invalid := s.invalidConstraints
      purged := purged.map (·.id)
      solve? := examined.solve? }

end PlaneSketch
