import PlaneSketch.Requirement

/-!
# Ascending lists

A finite set of ordered things (`sorted`, `ordered`) is written as the strictly ascending list of
its members.
-/

namespace PlaneSketch

variable {β : Type}

/-- Puts a thing into its place in an ascending list, unless one that is neither before nor after
it is there already. -/
def insertAscending (lt : β → β → Bool) (b : β) : List β → List β
  | [] => [b]
  | other :: rest =>
    if lt b other then b :: other :: rest
    else if lt other b then other :: insertAscending lt b rest
    else other :: rest

def ascending (lt : β → β → Bool) (members : List β) : List β :=
  members.foldr (insertAscending lt) []

def ConstraintId.lt (a b : ConstraintId) : Bool := a.raw < b.raw

def ascendingIds (ids : List ConstraintId) : List ConstraintId := ascending ConstraintId.lt ids

def idsLe : List ConstraintId → List ConstraintId → Bool
  | [], _ => true
  | _ :: _, [] => false
  | a :: as, b :: bs => a.raw < b.raw || a.raw = b.raw && idsLe as bs

end PlaneSketch
