import Presolve.Constraint.Linear
import Presolve.Constraint.Violation
import Presolve.Value.Data

/-!
# Problems

A problem in the form a solver takes it: an objective, a start, linear systems, bounds and
nonlinear constraints. `Problem.kind` says which of the four kinds of problems it is.
-/

namespace Presolve

open Scalar

/-- Minimise the objective over the points that satisfy the constraints. A function of the
constraints returns a pair: values that should not be positive and values that should be zero. -/
structure Problem (α : Type) where
  objective : Option (Evaluator α)
  start : List α
  inequalities : LinearSystem α
  equalities : LinearSystem α
  bounds : Bounds α
  constraints : Option (Evaluator α)

/-! ## Classification -/

section

variable {α : Type} [Scalar α]

/-- Does any bound restrict a variable? Infinite bounds do not, and bounds one of which is undefined
do not either. -/
def Bounds.restricts (b : Bounds α) : Bool :=
  (match maximum? b.lower with | some top => decide (-infinity < top) | none => false) ||
  (match minimum? b.upper with | some bottom => decide (bottom < infinity) | none => false)

/-- The kind of the problems with the given constraints: nonlinear constraints make a problem
nonlinearly constrained whatever else there is, then rows, then bounds. -/
def ProblemKind.ofConstraints (inequalities equalities : LinearSystem α) (bounds : Bounds α)
    (constrained : Bool) : ProblemKind :=
  if constrained then .nonlinearlyConstrained
  else if inequalities.hasRows || equalities.hasRows then .linearlyConstrained
  else if bounds.restricts then .boundConstrained
  else .unconstrained

end

namespace Problem

variable {α : Type}

/-- The number of variables. -/
def dimension (p : Problem α) : Nat := p.start.length

section

variable [Scalar α]

def kind (p : Problem α) : ProblemKind :=
  .ofConstraints p.inequalities p.equalities p.bounds p.constraints.isSome

variable [Interchange α]

/-- The violation of the constraints at a point. -/
def violationAt (p : Problem α) (x : List α) : Except Fault α :=
  violation p.bounds p.inequalities p.equalities p.constraints x

end

end Problem

/-! ## What is known of the constraints -/

/-- The degenerate rows and bounds of a problem. -/
structure Facts (α : Type) where
  infeasibleInequalities : List Bool
  trivialInequalities : List Bool
  infeasibleEqualities : List Bool
  trivialEqualities : List Bool
  infeasibleBounds : List Bool
  fixed : List Bool
  /-- The values of the fixed variables, in order. -/
  fixedValues : List α

namespace Facts

variable {α : Type}

/-- Does a row or a pair of bounds exclude every point? -/
def infeasible (f : Facts α) : Bool :=
  f.infeasibleInequalities.any id || f.infeasibleEqualities.any id || f.infeasibleBounds.any id

/-- Is every variable fixed? -/
def allFixed (f : Facts α) : Bool := f.fixed.all id

/-- What is known of the constraints from checking them. -/
def ofConstraints [Scalar α] (linear : LinearConstraints α) (bounds : Bounds α) :
    Except Fault (Facts α) := do
  let fixed := bounds.fixed
  return {
    infeasibleInequalities := linear.inequalities.infeasible
    trivialInequalities := linear.inequalities.trivial
    infeasibleEqualities := linear.equalities.infeasible
    trivialEqualities := linear.equalities.trivial
    infeasibleBounds := bounds.infeasible
    fixed := fixed
    fixedValues := ← bounds.middles fixed }

end Facts

/-! ## Data -/

section

variable {α : Type} [Scalar α]

def Problem.toJson (p : Problem α) : Json α :=
  .object [
    ("x0", .ofVector p.start),
    ("Aineq", .ofMatrix p.inequalities.rows),
    ("bineq", .ofVector p.inequalities.rhs),
    ("Aeq", .ofMatrix p.equalities.rows),
    ("beq", .ofVector p.equalities.rhs),
    ("lb", .ofVector p.bounds.lower),
    ("ub", .ofVector p.bounds.upper),
    ("has_objective", .bool p.objective.isSome),
    ("has_nonlcon", .bool p.constraints.isSome)]

def Facts.toJson (f : Facts α) : Json α :=
  .object [
    ("infeasible_lineq", .ofFlags f.infeasibleInequalities),
    ("trivial_lineq", .ofFlags f.trivialInequalities),
    ("infeasible_leq", .ofFlags f.infeasibleEqualities),
    ("trivial_leq", .ofFlags f.trivialEqualities),
    ("infeasible_bound", .ofFlags f.infeasibleBounds),
    ("fixed", .ofFlags f.fixed),
    ("fixed_value", .ofVector f.fixedValues)]

/-- The data of a problem of which only a start is given, as it was given, and perhaps an
objective. -/
def draftJson (start : Value α) (hasObjective : Bool) [Interchange α] : Except Fault (Json α) := do
  return .object [
    ("x0", ← (← start.toArray).toJson),
    ("Aineq", .array []), ("bineq", .array []), ("Aeq", .array []), ("beq", .array []),
    ("lb", .null), ("ub", .null),
    ("has_objective", .bool hasObjective),
    ("has_nonlcon", .bool false)]

end

end Presolve
