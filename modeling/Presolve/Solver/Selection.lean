import Presolve.Constraint.Bounds
import Presolve.Diagnostic.Journal
import Presolve.Solver.Settings

/-!
# Selecting a solver

Only the front end selects. A solver that was asked for is kept if it handles the problem; otherwise
the first rule of the table that applies decides, and the settings that depend on the solver are
derived anew.
-/

namespace Presolve

open Scalar

variable {α : Type} [Scalar α]

/-- The radii that fit between the bounds, in the proportion of the given ones. -/
def fittedRadii (rhobeg rhoend halfWidth : α) : α × α :=
  let fitted := smaller rhobeg halfWidth
  (larger fitted epsilon, larger (rhoend / rhobeg * fitted) epsilon)

namespace Settings

/-- The settings for another solver: its number of points within the budget, and radii between the
bounds if it limits them. -/
def adapt (solver : Solver) (n : Nat) (bounds : Bounds α) (s : Settings α) :
    Except Fault (Settings α) := do
  let npt := if solver.takesNpt then some (min (2 * (n : Int) + 1) (s.maxfun - 1)) else s.npt
  if solver.limitsRadius then
    let (rhobeg, rhoend) := fittedRadii s.rhobeg s.rhoend (← bounds.halfWidth)
    return { s with npt, rhobeg, rhoend, solver := some solver }
  else return { s with npt, solver := some solver }

end Settings

/-- The first rule for a kind of problems, which a table without such a rule lacks. -/
def matchRule (rules : List SelectionRule) (kind : ProblemKind) (n : Nat) (budget : Int) :
    Except Fault SelectionRule :=
  match SelectionRule.first? rules kind n budget with
  | some rule => .ok rule
  | none => .error (.defect (.noRule kind.constant))

/-- The settings with a solver that handles the problem, chosen by the given rules unless the one
that was asked for handles it. -/
def selectSolver [Interchange α] (rules : List SelectionRule) (settings : Settings α)
    (kind : ProblemKind) (n : Nat) (bounds : Bounds α) (invoker : Invoker) : Prep α (Settings α) := do
  if invoker ≠ .frontEnd then throw (.defect .notFrontEnd)
  match settings.solver with
  | some solver =>
    if solver.handles kind then
      Prep.leave (.kept solver)
      return settings
    else
      Prep.report invoker.name (.unsuitableSolver solver kind)
      choose
  | none => choose
where
  choose : Prep α (Settings α) := do
    let rule ← matchRule rules kind n settings.maxfun
    if !rule.solver.handles kind then throw (.defect (.unsuitableSolver rule.solver))
    Prep.leave (.selected rule.solver kind rule.condition.text)
    settings.adapt rule.solver n bounds

end Presolve
