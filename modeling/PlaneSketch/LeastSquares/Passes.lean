import PlaneSketch.LeastSquares.LevenbergMarquardt

/-!
# Levenberg–Marquardt, pass by pass

A run of `minimize` among things that may change while it goes on: residuals that come out otherwise
at the same point the next time, a factorization that fails now and not later, a listener that
interferes. The run is taken one pass of a loop at a time. The damping and the factor of its next
raise are variables of the run, and nothing here says that it ends. Where nothing changes it is
`LevenbergMarquardt.run` (`minimize_still`).

Surroundings that keep a list of what was asked of them tell what a run did.
-/

namespace PlaneSketch

open Scalar

/-- What a run meets, with a state of its own. -/
structure Surroundings (σ : Type) where
  residuals : List Float → StateM σ (List Float)
  /-- The residuals, as they are asked for when a Jacobian is measured. -/
  probe : List Float → StateM σ (List Float)
  /-- The solution of a symmetric system, if the matrix has a factor. -/
  solve : List (List Float) → List Float → StateM σ (Option (List Float))
  /-- Writes the point that the caller is left with. -/
  move : List Float → StateM σ Unit
  aggregate : List Float → StateM σ Float
  /-- Where reports go, if anybody listens. -/
  listener? : Option (Nat → Float → StateM σ Unit)

namespace LevenbergMarquardt

variable {σ : Type}

/-- The variables of a run. -/
structure Position where
  x : List Float
  residuals : List Float
  cost : Float
  iterations : Nat
  evaluations : Nat
  /-- Negative before the first one is chosen. -/
  damping : Float
  /-- The factor by which the damping is raised next. -/
  growth : Float
  /-- The problem near the point, while a step is looked for. -/
  near? : Option Local

/-- The position after a candidate was evaluated. -/
def Position.tried (here : Position) : Position :=
  { here with evaluations := here.evaluations + 1 }

def Position.raise (here : Position) : Position :=
  { here with damping := here.damping * here.growth, growth := here.growth * 2.0 }

inductive Pass where
  | going (next : Position)
  | done (outcome : Except MinimizerFault Termination) (final : Position)

/-- What the Jacobian at a new point leads to. The first damping is chosen here. -/
def surveyed (o : Options Float) (tau : Float) (here : Position) (columns : List (List Float)) :
    Pass :=
  if !columns.all allFinite then .done (.ok .nonFinite) here
  else
    let l := Local.of columns here.residuals
    if peakAbs l.gradient ≤ o.gtol then .done (.ok (.converged .gradient)) here
    else
      let damping := if here.damping < 0.0 then tau * peak l.scales else here.damping
      .going { here with damping, near? := some l }

/-- Looks at the problem near a new point. -/
def survey (w : Surroundings σ) (o : Options Float) (tau : Float) (here : Position) :
    StateM σ Pass := do
  if here.cost ≤ 2.2250738585072014e-308 then
    return .done (.ok (.converged .zeroResidual)) here
  let columns ← jacobianColumnsM w.probe here.x here.residuals
  return surveyed o tau here columns

/-- What follows where the damped system has no solution. -/
def unsolved (here : Position) : Pass :=
  let raised := here.raise
  if raised.damping.isFinite then .going raised
  else .done (.error (.linearSolve "normal equations stayed indefinite")) raised

/-- What follows on a candidate that is no better. -/
def rejected (o : Options Float) (here : Position) : Pass :=
  let raised := here.tried.raise
  if o.maxEvaluations ≤ raised.evaluations then .done (.ok .maxEvaluations) raised
  else .going raised

/-- The position after a step to a candidate that was evaluated. -/
def Position.accept (tried : Position) (candidate residuals : List Float) (cost rho : Float) :
    Position :=
  { tried with
    x := candidate
    residuals
    cost
    damping := relaxed tried.damping rho
    growth := 2.0
    iterations := tried.iterations + 1
    near? := none }

/-- Whether a report is due after so many steps. -/
def isDue (interval iterations : Nat) : Bool := 0 < interval && iterations % interval = 0

/-- Reports a step, if a report is due and somebody listens. -/
def report (w : Surroundings σ) (o : Options Float) (here : Position) : StateM σ Unit := do
  if isDue o.progressInterval here.iterations then
    if let some listener := w.listener? then
      listener here.iterations (← w.aggregate here.residuals)

/-- Whether a run goes on after a step from a point with this cost. -/
def settle (o : Options Float) (previous : Float) (here : Position) : Pass :=
  if previous - here.cost ≤ o.ftol * previous then .done (.ok (.converged .objective)) here
  else if o.maxEvaluations ≤ here.evaluations then .done (.ok .maxEvaluations) here
  else .going here

/-- Solves for a step with the damping as it is, and tries it. -/
def tryStep (w : Surroundings σ) (o : Options Float) (l : Local) (here : Position) :
    StateM σ Pass := do
  match ← w.solve (l.damped here.damping) l.downhill with
  | none => return unsolved here
  | some step =>
    if norm step ≤ o.xtol * (norm here.x + o.xtol) then
      return .done (.ok (.converged .step)) here
    let candidate := List.zipWith (· + ·) here.x step
    let residuals ← w.residuals candidate
    if !allFinite residuals then
      return .done (.ok .nonFinite) here.tried
    let cost := halfSquare residuals
    let rho := gainRatio here.cost cost (l.predicted here.damping step)
    if 0.0 < rho then
      w.move candidate
      let next := here.tried.accept candidate residuals cost rho
      report w o next
      return settle o here.cost next
    else
      return rejected o here

def pass (w : Surroundings σ) (o : Options Float) (tau : Float) (here : Position) :
    StateM σ Pass :=
  match here.near? with
  | none => survey w o tau here
  | some l => tryStep w o l here

/-- Some passes, or fewer if the run is done before. -/
def passes (w : Surroundings σ) (o : Options Float) (tau : Float) : Nat → Pass → StateM σ Pass
  | 0, reached => return reached
  | _, .done outcome final => return .done outcome final
  | n + 1, .going here => do passes w o tau n (← pass w o tau here)

/-- Where a run starts. -/
def start (w : Surroundings σ) (x : List Float) : StateM σ Pass := do
  let residuals ← w.residuals x
  let here : Position := ⟨x, residuals, halfSquare residuals, 0, 1, -1.0, 2.0, none⟩
  if !allFinite residuals then
    return .done (.ok .nonFinite) here
  if x.isEmpty then
    return .done (.ok (.converged .step)) here
  return .going here

/-- A run up to some number of passes. -/
def minimize (w : Surroundings σ) (o : Options Float) (tau : Float) (n : Nat) (x : List Float) :
    StateM σ Pass := do
  passes w o tau n (← start w x)

end LevenbergMarquardt

/-! ### Watched surroundings -/

/-- What was asked of the surroundings, other than for a Jacobian or a step. -/
inductive Call where
  | evaluated (x residuals : List Float)
  | moved (x : List Float)
  | aggregated (residuals : List Float) (error : Float)
  | reported (iteration : Nat) (error : Float)
deriving DecidableEq

namespace Surroundings

variable {σ β : Type}

/-- Does something, and puts what it was on the list. -/
def record (act : StateM σ β) (call : β → Call) : StateM (σ × List Call) β :=
  fun (s, calls) =>
    let (b, t) := act.run s
    (b, (t, call b :: calls))

/-- Does something that is not put on the list. -/
def unrecorded (act : StateM σ β) : StateM (σ × List Call) β :=
  fun (s, calls) =>
    let (b, t) := act.run s
    (b, (t, calls))

/-- The same surroundings, with a list of the calls, the last one first. -/
def watched (w : Surroundings σ) : Surroundings (σ × List Call) where
  residuals x := record (w.residuals x) (.evaluated x)
  probe x := unrecorded (w.probe x)
  solve matrix side := unrecorded (w.solve matrix side)
  move x := record (w.move x) fun _ => .moved x
  aggregate residuals := record (w.aggregate residuals) (.aggregated residuals)
  listener? := w.listener?.map fun listener iteration error =>
    record (listener iteration error) fun _ => .reported iteration error

/-- A problem and a factorization that do not change, with a listener that does nothing. -/
def still (p : LeastSquares Float) (solve : List (List Float) → List Float → Option (List Float)) :
    Surroundings Unit where
  residuals x := pure (p.residuals x)
  probe x := pure (p.residuals x)
  solve matrix side := pure (solve matrix side)
  move _ := pure ()
  aggregate residuals := pure (p.aggregate residuals)
  listener? := some fun _ _ => pure ()

end Surroundings

end PlaneSketch
