import PlaneSketch.Solve
import PlaneSketch.Solve.Workspace

/-!
# Trials in place

A trial as it goes about it on one working copy (`trial` with its `SketchProblem`). The minimizer
asks for residuals where it likes, and each answer decides what it asks next; every evaluation moves
the copy, and so does the gradient that is asked for when the evaluations have run out. Errors are
measured where the copy is, and where it is at the end is handed out, so it has to be moved to what
a round has left before it is measured. The anchor is kept in the workspace from round to round.
-/

namespace PlaneSketch

variable {α β σ : Type}

/-- What is left to do until there is a result: nothing, or to ask for the residuals at a point,
written over a vector, and to go on with what the vector holds then. -/
inductive Session (α β : Type) where
  | finish (result : β)
  | ask (x out : List α) (next : List α → Session α β)

/-- A minimizer with states `σ` that asks for each evaluation. It is told the numbers of variables
and of residuals and how residuals are aggregated, and starts from a point. -/
structure Asker (α σ : Type) where
  name : String
  isAvailable : Bool
  session : Nat → Nat → (List α → α) → List α → Options α → σ → Session α (Run α × σ)

/-- The result of a session if the residuals depend on the point alone. -/
def Session.against (p : LeastSquares α) : Session α β → β
  | .finish result => result
  | .ask x _ next => (next (p.residuals x)).against p

/-- What the minimizer is to a problem whose residuals depend on the point alone. -/
def Asker.minimizer (a : Asker α σ) : Minimizer α σ where
  name := a.name
  isAvailable := a.isAvailable
  minimize p x options := fun state =>
    (a.session p.variableCount p.residualCount p.aggregate x options state).against p

variable [Scalar α]

open Scalar

def Session.inPlace : Session α β → StateT (Workspace α) Option β
  | .finish result => return result
  | .ask x out next => do (next (← Workspace.evaluate x out)).inPlace

namespace Workspace

/-! ### Rounds -/

def setAnchor (x : List α) : StateT (Workspace α) Option Unit :=
  modify fun w => { w with objective := w.objective.withAnchor x }

/-- The weighted error of the constraints where the drawing is. -/
def constraintNorm : StateT (Workspace α) Option α := do
  let o := (← get).objective
  return o.drawing.weightedError o.constraints

def round (a : Asker α σ) (c : SolveConfig α) (carried : Carry α) (state : σ) :
    StateT (Workspace α) Option (Round α × σ) := do
  let o := (← get).objective
  let p := o.problem
  let options := c.options carried.spent
  let (run, state) ←
    (a.session p.variableCount p.residualCount p.aggregate carried.x options state).inPlace
  return (⟨carried.x, o.anchor, options, run⟩, state)

/-- What a round leaves to the next, if there is to be one, which then pulls to where this one
ended. -/
def carry? (c : SolveConfig α) (carried : Carry α) (r : Round α) :
    StateT (Workspace α) Option (Option (Carry α)) := do
  if r.isConverged then
    apply r.run.x
    let spent := carried.spent + r.evaluations
    let error ← constraintNorm
    if c.isSettled (← get).objective.anchor r.run.x error carried.previous spent then return none
    else
      setAnchor r.run.x
      return some ⟨r.run.x, spent, some error⟩
  else return none

/-- Runs a round and then, while there is a reason to, at most so many more. -/
def rounds (a : Asker α σ) (c : SolveConfig α) :
    Nat → Carry α → σ → StateT (Workspace α) Option (Rounds α × σ)
  | 0, carried, state => do
    let (round, state) ← round a c carried state
    let _ ← carry? c carried round
    return (⟨[], round⟩, state)
  | more + 1, carried, state => do
    let (round, state) ← round a c carried state
    match ← carry? c carried round with
    | none => return (⟨[], round⟩, state)
    | some next =>
      let (rest, state) ← rounds a c more next state
      return ({ rest with earlier := round :: rest.earlier }, state)

/-! ### Outcome -/

/-- Whether the constraints stopped improving at `x`, where the drawing is. -/
def isStationary (x : List α) : StateT (Workspace α) Option Bool := do
  let steepness ← constraintGradient x
  return steepness ≤ 1e-2 * larger (← constraintNorm) 1.0

/-- Whether the constraints have settled: a round converged, or the last one was cut off at `x`,
where nothing improves any more. -/
def hasSettled (x : List α) (isCut converged : Bool) : StateT (Workspace α) Option Bool :=
  if isCut && !converged then isStationary x else return converged

/-- The outcome of some rounds, about the drawing when it is moved to where the last one ended. -/
def conclude (c : SolveConfig α) (freedom : Freedom) (minimizer : String) (rounds : Rounds α) :
    StateT (Workspace α) Option (Trial α) := do
  let x := rounds.last.run.x
  apply x
  match rounds.last.run.outcome with
  | .error fault =>
    return ⟨⟨.failed fault, freedom, 0, 0, .none, some minimizer⟩, false,
      (← get).objective.drawing, rounds.all⟩
  | .ok last =>
    let converged := rounds.all.any (·.isConverged)
    let settled ← hasSettled x (last.termination = .maxEvaluations) converged
    let iterations := (rounds.all.map Round.iterations).foldr (· + ·) 0
    let evaluations := (rounds.all.map Round.evaluations).foldr (· + ·) 0
    let o := (← get).objective
    let errors := ErrorSummary.of o.drawing o.constraints
    let cause := c.causeOf freedom last.termination settled evaluations errors
    return ⟨⟨cause, freedom, iterations, evaluations, errors, some minimizer⟩, cause.isSolved,
      o.drawing, rounds.all⟩

/-- All rounds from `start` on and their outcome. -/
def attempt (a : Asker α σ) (c : SolveConfig α) (freedom : Freedom) (start : List α) (state : σ) :
    StateT (Workspace α) Option (Trial α × σ) := do
  let (rounds, state) ← rounds a c (c.maxRounds - 1) ⟨start, 0, none⟩ state
  return (← conclude c freedom a.name rounds, state)

end Workspace

/-- The trial of a sketch, with the state that it leaves the minimizer in. It has no outcome if an
evaluation reads or writes outside a vector. -/
def Sketch.trialInPlace (s : Sketch α) (a : Asker α σ) (c : SolveConfig α) (state : σ) :
    Option (Trial α × σ) :=
  let held := s.applyPins s.pins
  let slots := held.slots
  let freedom := held.freedomWith slots.length
  if slots.isEmpty || !held.constraints.any (·.takesFreedom) then
    some (c.judge freedom held, state)
  else if !a.isAvailable then
    some (⟨.withoutRun (.unavailable a.name) freedom .none, false, held, []⟩, state)
  else
    let begun := Objective.of held slots held.active c.damping
    (Workspace.attempt a c freedom begun.start state).run' ⟨begun, []⟩

end PlaneSketch
