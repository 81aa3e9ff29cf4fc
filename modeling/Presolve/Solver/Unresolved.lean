import Presolve.Solver.Selection
import Presolve.Value.Shape

/-!
# Selecting a solver for unresolved options

Selection is meant for settings, in which every option has a value. It also takes options as they come,
looks at each when it needs it, and fails if that one is not set: the budget decides between rules and
limits the number of points, and both radii are needed where they have to fit between the bounds. What
selection does not change stays as it was given.
-/

namespace Presolve.Unresolved

open Scalar

variable {α : Type} [Scalar α] [Interchange α]

/-! ## Reading options -/

/-- The number that an option is set to. -/
def number (fields : OptionName → Value α) (name : OptionName) : Except Fault α := do
  match ← (fields name).realScalar? with
  | some x => return x
  | none => throw .wrongType

/-- The integer that an option is set to. -/
def integer (fields : OptionName → Value α) (name : OptionName) : Except Fault Int := do
  match fields name with
  | .int i => return i
  | v =>
    match ← v.integerScalar? with
    | some i => return i
    | none => throw .wrongType

/-- The solver that is asked for. -/
def solver? (fields : OptionName → Value α) : Option Solver :=
  match fields .solver with
  | .solver s => some s
  | _ => none

/-! ## Selection -/

/-- Does a condition hold for `n` variables and a budget, if it asks for that? -/
def holds (n : Nat) (budget : Except Fault Int) : Condition → Except Fault Bool
  | .smallAndAffordable =>
    if 2 ≤ n ∧ n ≤ 8 then return decide ((Solver.fullQuadratic n : Int) + 1 ≤ (← budget))
    else return false
  | .tightBudget => return decide ((← budget) ≤ n + 2)
  | .otherwise | .always => return true

/-- The first rule for a kind of problems. -/
def matchRule (kind : ProblemKind) (n : Nat) (budget : Except Fault Int) :
    List SelectionRule → Except Fault SelectionRule
  | [] => .error (.defect (.noRule kind.constant))
  | rule :: rest =>
    if rule.kind == kind then do
      if ← holds n budget rule.condition then return rule else matchRule kind n budget rest
    else matchRule kind n budget rest

/-- The number of points for another solver, within the budget. -/
def points (solver : Solver) (n : Nat) (fields : OptionName → Value α) : Except Fault (Value α) :=
  if solver.takesNpt then
    (integer fields .maxfun).map fun budget => .int (min (2 * (n : Int) + 1) (budget - 1))
  else .ok (fields .npt)

/-- The options for another solver. A radius that fits as it is stays the value that was given. -/
def adapt (solver : Solver) (n : Nat) (bounds : Bounds α) (fields : OptionName → Value α) :
    Except Fault (OptionName → Value α) := do
  let npt ← points solver n fields
  if solver.limitsRadius then
    let halfWidth ← bounds.halfWidth
    let rhobeg ← number fields .rhobeg
    let fitted := fittedRadii rhobeg (← number fields .rhoend) halfWidth
    return fun
      | .npt => npt
      | .rhobeg => if halfWidth < rhobeg ∨ rhobeg < epsilon then .real fitted.1 else fields .rhobeg
      | .rhoend => .real fitted.2
      | .solver => .solver solver
      | name => fields name
  else
    return fun
      | .npt => npt
      | .solver => .solver solver
      | name => fields name

/-- The options with a solver that handles the problem, chosen by the given rules unless the one that was
asked for handles it. -/
def select (rules : List SelectionRule) (fields : OptionName → Value α) (kind : ProblemKind) (n : Nat)
    (bounds : Bounds α) (invoker : Invoker) : Prep α (OptionName → Value α) := do
  if invoker ≠ .frontEnd then throw (.defect .notFrontEnd)
  match solver? fields with
  | some solver =>
    if solver.handles kind then
      Prep.leave (.kept solver)
      return fields
    else
      Prep.report invoker.name (.unsuitableSolver solver kind)
      choose
  | none => choose
where
  choose : Prep α (OptionName → Value α) := do
    let rule ← matchRule kind n (integer fields .maxfun) rules
    if !rule.solver.handles kind then throw (.defect (.unsuitableSolver rule.solver))
    Prep.leave (.selected rule.solver kind rule.condition.text)
    adapt rule.solver n bounds fields

end Presolve.Unresolved
