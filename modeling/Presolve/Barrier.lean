import Presolve.Value.Nest

/-!
# Barriers around a caller's functions

A solver needs one real number from an objective and two real vectors from constraints, whatever the
caller's functions return. A value without a meaning, or beyond `Scalar.huge`, is replaced by
`Scalar.huge`, so that a region where a function is undefined looks very bad to the solver instead
of stopping it. What is no number at all is a complaint.
-/

namespace Presolve

open Scalar

variable {α : Type} [Scalar α]

/-- The real part of an entry that is a number. -/
def Cell.realPart : Cell α → α
  | .bool b => if b then 1 else 0
  | .int i => ofFraction i 1
  | .real x => x
  | .complex re _ => re
  | _ => undefined

namespace Value

omit [Scalar α] in
/-- The array of numbers that a value is; flags and texts are none. -/
def numericNest? (v : Value α) : Option (Nest α) := v.nest?.filter fun nest => nest.type.isNumeric

/-- The real parts of the numbers that a value consists of, in row-major order. -/
def realParts? (v : Value α) : Option (List α) :=
  v.numericNest?.map fun nest => nest.leaves.entries.map fun leaf => leaf.toCell.realPart

end Value

namespace Barrier

/-! ## Objectives -/

/-- An objective value as a solver sees it: never undefined, and never more than `huge`. -/
def objectiveValue (f : α) : α :=
  if isUndefined f ∨ huge < f then huge else f

/-- The number that an objective returned. -/
def readObjective (invoker : String) (output : Value α) : Except Fault α :=
  match output.realParts? with
  | some [f] => .ok (objectiveValue f)
  | _ => .error (.invalid .objectiveNotScalar invoker)

/-- An objective behind the barrier. -/
def objective (invoker : String) (f : Evaluator α) : Evaluator α := fun x => do
  return .real (← readObjective invoker (← f x))

/-! ## Constraints -/

/-- A constraint value as a solver sees it: never undefined, and within `huge` of zero. -/
def constraintValue (c : α) : α :=
  clamp (-huge) huge (if isUndefined c then huge else c)

/-- One of the two vectors that constraints return; an absent one is empty. -/
def readPart (invoker : String) (part : Value α) : Except Fault (List α) :=
  if part.isAbsent then .ok []
  else
    match part.realParts? with
    | some values => .ok (values.map constraintValue)
    | none => .error (.invalid .constraintNotNumeric invoker)

/-- The values of inequalities and of equalities that constraints returned. -/
def readConstraints (invoker : String) (output : Value α) : Except Fault (List α × List α) :=
  match output with
  | .list [ineq, eq] | .tuple [ineq, eq] => do
    return (← readPart invoker ineq, ← readPart invoker eq)
  | _ => .error (.invalid .constraintNotNumeric invoker)

/-- Constraints behind the barrier. -/
def constraints (invoker : String) (c : Evaluator α) : Evaluator α := fun x => do
  let (ineq, eq) ← readConstraints invoker (← c x)
  return .tuple [.ofList ineq, .ofList eq]

end Barrier

/-- The objective of a problem that has none. -/
def zeroObjective : Value α :=
  .function ⟨"ZeroObjective", none⟩ (some []) fun _ => .ok (.real 0)

end Presolve
