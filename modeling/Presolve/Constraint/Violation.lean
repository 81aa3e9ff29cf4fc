import Presolve.Constraint.Bounds
import Presolve.Linear.System
import Presolve.Value.Items

/-!
# The violation of constraints at a point

How far a point is from satisfying all constraints, as one number: the greatest excess over a
bound or a right-hand side, in proportion to that bound or side where it is greater than one, and the
greatest value of a nonlinear constraint. Terms that are undefined are left out, and the violation is
never less than zero.
-/

namespace Presolve

open Scalar

variable {α : Type} [Scalar α]

/-- The size that the excess over a bound or a right-hand side is measured in. -/
def rhsSize (b : α) : α := join 1 (Scalar.abs b)

/-- Differences in proportion to the sizes of the right-hand sides. -/
def relativeExcess (excess rhs : List α) : Except Fault (List α) :=
  entrywise (· / ·) excess (rhs.map rhsSize)

/-- The excess of a point over its bounds. -/
def Bounds.excess (b : Bounds α) (x : List α) : Except Fault (List α) := do
  let below ← entrywise (· - ·) b.lower x
  let above ← entrywise (· - ·) x b.upper
  relativeExcess (below ++ above) (b.lower ++ b.upper)

/-- The excess of the left-hand sides over the right-hand sides at a point. -/
def LinearSystem.excess (s : LinearSystem α) (x : List α) : Except Fault (List α) :=
  if s.hasRows then do
    relativeExcess (← entrywise (· - ·) (← applyRows s.rows x) s.rhs) s.rhs
  else .ok []

variable [Interchange α]

/-- The two parts of what a constraint function returns. -/
def outputPair (output : Value α) : Except Fault (Value α × Value α) :=
  match output.items? with
  | some [ineq, eq] => .ok (ineq, eq)
  | some _ => .error (.badValue "two values expected")
  | none => .error .wrongType

/-- The values of nonlinear constraints at a point, those of equalities without their sign. -/
def constraintExcess (constraints : Option (Evaluator α)) (x : List α) : Except Fault (List α) :=
  match constraints with
  | none => .ok []
  | some f => do
    let (ineq, eq) ← outputPair (← f x)
    return (← ineq.flatReals) ++ (← eq.flatReals).map Scalar.abs

/-- The violation of all constraints at a point. -/
def violation (bounds : Bounds α) (inequalities equalities : LinearSystem α)
    (constraints : Option (Evaluator α)) (x : List α) : Except Fault α := do
  let bound ← bounds.excess x
  let ineq ← inequalities.excess x
  let eq ← equalities.excess x
  let other ← constraintExcess constraints x
  return worst (bound ++ ineq ++ eq.map Scalar.abs ++ other)

end Presolve
