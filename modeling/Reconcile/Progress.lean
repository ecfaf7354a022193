/-!
# Progress towards a desired value

Waiting compares one observed number with the desired one. The wait is over when they are equal.
-/

namespace Reconcile

/-- An observed number and the desired one. -/
structure Progress where
  observed : Int
  desired : Int
  deriving DecidableEq, Inhabited

namespace Progress

/-- Whether the desired number has been reached. -/
def converged (p : Progress) : Bool := p.observed = p.desired

/-- The wording of a progress. -/
def text (p : Progress) : String := toString p.observed ++ " of " ++ toString p.desired

end Progress

end Reconcile
