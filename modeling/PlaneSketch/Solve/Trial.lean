import PlaneSketch.Solve.Config
import PlaneSketch.Solve.Objective
import PlaneSketch.Solve.Result

/-!
# Trials

A trial (`trial`) puts the held points of a sketch where they are held and lets a minimizer change
the variables, in rounds. Each round starts where the one before ended and pulls towards that place,
so that the pull is nothing at a solution. A further round follows only a converged one, as long as
there is error left, the last round moved and helped, and evaluations remain.

A trial asks for no count of equations and changes nothing but its own copy of the sketch.
-/

namespace PlaneSketch

variable {α σ : Type} [Scalar α]

open Scalar

/-! ### Rounds -/

/-- One call of the minimizer and what it was given. -/
structure Round (α : Type) where
  start : List α
  anchor : List α
  options : Options α
  run : Run α

namespace Round

def done? (r : Round α) : Option (Minimization α) := r.run.outcome.toOption

def iterations (r : Round α) : Nat := (r.done?.map (·.iterations)).getD 0

def evaluations (r : Round α) : Nat := (r.done?.map (·.evaluations)).getD 0

def isConverged (r : Round α) : Bool := r.done?.any (·.termination.isConverged)

end Round

/-- The options of a round when some evaluations are spent. Even when all are, one is left. -/
def SolveConfig.options (c : SolveConfig α) (spent : Nat) : Options α where
  ftol := c.ftol
  xtol := c.xtol
  gtol := c.gtol
  maxEvaluations := max (c.maxEvaluations - spent) 1
  progressInterval := c.progressInterval

/-- What one round leaves to the next: the place to start at and pull to, the evaluations spent,
and the error that the round before the last one left. -/
structure Carry (α : Type) where
  x : List α
  spent : Nat
  previous : Option α

/-- Whether a converged round was the last one: no error is left, or it hardly moved, or it hardly
helped, or the evaluations are spent. -/
def SolveConfig.isSettled (c : SolveConfig α) (start x : List α) (error : α)
    (previous : Option α) (spent : Nat) : Bool :=
  error ≤ c.ftol * 1e-2
    || peakAbs (List.zipWith (· - ·) x start) ≤ c.xtol * (1.0 + peakAbs x)
    || previous.any (fun last => last - error ≤ 1e-4 * last)
    || c.maxEvaluations ≤ spent

/-- What a round leaves to the next, if there is to be one. -/
def Objective.carry? (o : Objective α) (c : SolveConfig α) (carried : Carry α) (r : Round α) :
    Option (Carry α) :=
  if r.isConverged then
    let spent := carried.spent + r.evaluations
    let error := o.constraintNorm r.run.x
    if c.isSettled carried.x r.run.x error carried.previous spent then none
    else some ⟨r.run.x, spent, some error⟩
  else none

/-- The rounds of a solve, of which there is at least one. -/
structure Rounds (α : Type) where
  earlier : List (Round α)
  last : Round α

def Rounds.all (r : Rounds α) : List (Round α) := r.earlier ++ [r.last]

def Objective.round (o : Objective α) (m : Minimizer α σ) (c : SolveConfig α) (carried : Carry α) :
    StateM σ (Round α) := do
  let options := c.options carried.spent
  let run ← m.minimize (o.withAnchor carried.x).problem carried.x options
  return ⟨carried.x, carried.x, options, run⟩

/-- Runs a round and then, while there is a reason to, at most so many more. -/
def Objective.rounds (o : Objective α) (m : Minimizer α σ) (c : SolveConfig α) :
    Nat → Carry α → StateM σ (Rounds α)
  | 0, carried => return ⟨[], ← o.round m c carried⟩
  | more + 1, carried => do
    let round ← o.round m c carried
    match o.carry? c carried round with
    | none => return ⟨[], round⟩
    | some next =>
      let rest ← o.rounds m c more next
      return { rest with earlier := round :: rest.earlier }

/-! ### Outcome -/

structure Trial (α : Type) where
  result : SolveResult α
  /-- Whether the final sketch meets both tolerances. -/
  accepted : Bool
  /-- The sketch at the end, with the held points in place. -/
  sketch : Sketch α
  rounds : List (Round α)

/-- Whether the constraints stopped improving at `x`. Along a symmetry the pull can keep a minimizer
busy long after they did, so a run that ran out of evaluations may have settled too. -/
def Objective.isStationary (o : Objective α) (x : List α) : Bool :=
  o.constraintGradient x ≤ 1e-2 * larger (o.constraintNorm x) 1.0

/-- Why the rounds came out as they did, from how the last one ended, whether the constraints had
settled, and the errors at the end. -/
def SolveConfig.causeOf (c : SolveConfig α) (freedom : Freedom) (last : Termination)
    (settled : Bool) (evaluations : Nat) (errors : ErrorSummary α) : Cause α :=
  if last = .nonFinite || errors.nonFinite.isSome then .nonFinite errors.nonFinite
  else if last = .maxEvaluations && !settled then .outOfEvaluations evaluations errors.aggregate
  else if c.accepts errors.aggregate errors.maxError then .solved (freedom.classify true)
  else .errorLeft errors.aggregate errors.maxError errors.worst

def Cause.isSolved : Cause α → Bool
  | .solved _ | .alreadySolved _ => true
  | _ => false

/-- The outcome of some rounds. A failure of the minimizer hides what was spent before it and the
errors that are left. -/
def Objective.conclude (o : Objective α) (c : SolveConfig α) (freedom : Freedom)
    (minimizer : String) (rounds : Rounds α) : Trial α :=
  let x := rounds.last.run.x
  let sketch := o.placed x
  match rounds.last.run.outcome with
  | .error fault =>
    ⟨⟨.failed fault, freedom, 0, 0, .none, some minimizer⟩, false, sketch, rounds.all⟩
  | .ok last =>
    let settled := rounds.all.any (·.isConverged)
      || last.termination = .maxEvaluations && o.isStationary x
    let iterations := (rounds.all.map Round.iterations).foldr (· + ·) 0
    let evaluations := (rounds.all.map Round.evaluations).foldr (· + ·) 0
    let errors := ErrorSummary.of sketch o.constraints
    let cause := c.causeOf freedom last.termination settled evaluations errors
    ⟨⟨cause, freedom, iterations, evaluations, errors, some minimizer⟩, cause.isSolved, sketch,
      rounds.all⟩

/-- The outcome when there is nothing for a minimizer to do. -/
def SolveConfig.judge (c : SolveConfig α) (freedom : Freedom) (s : Sketch α) : Trial α :=
  let errors := ErrorSummary.of s s.active
  if errors.nonFinite.isNone && c.accepts errors.aggregate errors.maxError then
    ⟨.withoutRun (.alreadySolved (freedom.classify true)) freedom errors, true, s, []⟩
  else ⟨.withoutRun (.noFreeVariables errors.aggregate) freedom errors, false, s, []⟩

def Sketch.trial (s : Sketch α) (m : Minimizer α σ) (c : SolveConfig α) : StateM σ (Trial α) :=
  let held := s.applyPins s.pins
  let slots := held.slots
  let freedom := held.freedomWith slots.length
  if slots.isEmpty || !held.constraints.any (·.takesFreedom) then
    pure (c.judge freedom held)
  else if !m.isAvailable then
    pure ⟨.withoutRun (.unavailable m.name) freedom .none, false, held, []⟩
  else do
    let o := Objective.of held slots held.active c.damping
    let rounds ← o.rounds m c (c.maxRounds - 1) ⟨o.start, 0, none⟩
    return o.conclude c freedom m.name rounds

end PlaneSketch
