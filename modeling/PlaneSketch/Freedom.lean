import PlaneSketch.Variables

/-!
# Degrees of freedom

Variables counted against equations (`DofAnalysis` with its `classify`). The count looks at no
coordinate: it decides before a solve whether there are more equations than variables, and after it
what a solution is called.
-/

namespace PlaneSketch

inductive Status where
  | fullyConstrained
  | underConstrained
  /-- More equations than variables; no solve was tried. -/
  | overConstrained
  | inconsistent
  /-- The evaluations ran out before the minimizer settled. -/
  | didntConverge
  | noSolver
deriving DecidableEq

namespace Status

def isSuccess : Status → Bool
  | .fullyConstrained | .underConstrained => true
  | _ => false

def name : Status → String
  | .fullyConstrained => "FULLY_CONSTRAINED"
  | .underConstrained => "UNDER_CONSTRAINED"
  | .overConstrained => "OVER_CONSTRAINED"
  | .inconsistent => "INCONSISTENT"
  | .didntConverge => "DIDNT_CONVERGE"
  | .noSolver => "NO_SOLVER"

end Status

structure Freedom where
  unknowns : Nat
  constraints : Nat
  /-- The degrees of freedom that the active constraints take away from the variables. -/
  equations : Nat
  /-- The variables without the equations. -/
  dof : Int
deriving DecidableEq

namespace Freedom

def isOverConstrained (f : Freedom) : Bool := f.unknowns < f.equations

def classify (f : Freedom) (solved : Bool) : Status :=
  if f.isOverConstrained then .overConstrained
  else if !solved then .inconsistent
  else if f.dof = 0 then .fullyConstrained
  else .underConstrained

end Freedom

namespace Sketch

variable {α : Type}

def freedomWith (s : Sketch α) (unknowns : Nat) : Freedom :=
  let counted := s.constraints.filter (·.takesFreedom)
  let equations := (counted.map (·.requirement.dofWeight)).foldr (· + ·) 0
  { unknowns, constraints := s.active.length, equations, dof := (unknowns : Int) - equations }

def freedom [Scalar α] (s : Sketch α) : Freedom := s.freedomWith s.slots.length

end Sketch

end PlaneSketch
