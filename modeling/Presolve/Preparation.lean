import Presolve.Barrier
import Presolve.Record
import Presolve.Solver.Resolution
import Presolve.Solver.Selection
import Presolve.Transform.Start
import Presolve.Value.Key

/-!
# Preparing a problem

From what a caller passes to the problem and settings that a solver gets:

1. the objective, the start, the linear systems, the bounds and the constraint function are read;
2. degenerate rows and bounds are found, and fixed variables are eliminated unless the problem is
   infeasible or has no free variable;
3. the problem is classified, and a solver that does not handle its kind is refused;
4. options are resolved for the problem that is left;
5. the start is made feasible and the variables are rescaled, again only if there is something to
   solve;
6. the front end selects a solver.

Options are resolved after elimination because the limit of the first radius depends on the bounds,
and variables are rescaled after the start has moved because the shift depends on it.
-/

namespace Presolve

open Scalar

variable {α : Type} [Scalar α] [Interchange α]

/-! ## Invokers and functions -/

omit [Scalar α] [Interchange α] in
/-- The invoker that a value names, by itself or as the single entry of an array. -/
def Invoker.ofValue (v : Value α) : Except Fault Invoker :=
  let name? := match v with
    | .array grid =>
      match grid.cells.entries with
      | [.text s] => s.string?
      | _ => none
    | .objects _ [item] => item.name?
    | v => v.name?
  let found := match v with
    | .invoker i => some i
    | _ => name?.bind Invoker.ofName?
  match found with
  | some i => .ok i
  | none => .error (.defect .unknownInvoker)

/-- The objective that a value is. A missing one is reported and replaced by zero. -/
def readObjective (source : String) (v : Value α) : Prep α (FunctionView × Evaluator α) := do
  let v ← if v.isAbsent then
      Prep.report source .noObjective
      pure zeroObjective
    else pure v
  match v with
  | .function view _ f => return (view, f)
  | _ => throw (.invalid .objectiveNotFunction source)

/-- The start that a value is: a vector that is not empty. -/
def readStart (source : String) (v : Value α) : Except Fault (List α) :=
  match v.vectorLength? with
  | some (_ + 1) => v.toVector
  | _ => .error (.invalid .startNotReal source)

omit [Scalar α] [Interchange α] in
/-- The constraint function that a value is, if there is one. -/
def readConstraints (source : String) (v : Value α) : Except Fault (Option (Evaluator α)) :=
  match v with
  | .absent => .ok none
  | .function _ _ f => .ok (some f)
  | _ => .error (.invalid .constraintNotFunction source)

/-- Reads both linear systems and leaves a trace of the rows that were removed. -/
def readLinear (source : String) (n : Nat) (i : Input α) : Prep α (LinearConstraints α) := do
  let linear ← LinearConstraints.read source n i.inequalityRows i.inequalityRhs i.equalityRows
    i.equalityRhs
  let ineq := linear.inequalities.trivial
  let eq := linear.equalities.trivial
  if ineq.any id || eq.any id then
    Prep.leave (.removedRows (Mask.count ineq) (Mask.count eq))
  return linear

/-! ## Stages -/

/-- A problem as it was passed, in normal form, and what is known of its constraints. -/
structure Checked (α : Type) where
  problem : Problem α
  facts : Facts α
  fixedViolation : Option α

/-- Nothing is left to solve: the problem is infeasible, or every variable is fixed. -/
def Facts.isDegenerate (f : Facts α) : Bool := f.allFixed || f.infeasible

/-- Reads all parts of a problem. -/
def check (source : String) (i : Input α) : Prep α (Checked α) := do
  let (_, objective) ← readObjective source i.objective
  let start ← readStart source i.start
  let n := start.length
  let linear ← readLinear source n i
  let bounds ← Bounds.read source n i.lower i.upper
  let facts ← Facts.ofConstraints linear bounds
  let constraints ← readConstraints source i.constraints
  let problem : Problem α := {
    objective := some (Barrier.objective source objective)
    start, bounds
    inequalities := linear.inequalities.system
    equalities := linear.equalities.system
    constraints := constraints.map (Barrier.constraints source) }
  let fixedViolation ← if facts.allFixed then some <$> problem.violationAt facts.fixedValues
    else pure none
  if facts.infeasible then Prep.leave .infeasible
  return { problem, facts, fixedViolation }

/-- Eliminates the fixed variables if some but not all are fixed and the problem is feasible as far
as is known. -/
def reduce (c : Checked α) : Prep α (Problem α × Option (Elimination α)) := do
  if c.facts.fixed.any id && !c.facts.isDegenerate then
    let (problem, elimination) ← c.problem.eliminate c.facts.fixed
    Prep.leave (.eliminated c.problem.dimension problem.dimension)
    return (problem, some elimination)
  else return (c.problem, none)

/-- Refuses a problem of a kind that the invoker does not handle. -/
def checkKind (invoker : Invoker) (kind : ProblemKind) : Except Fault Unit :=
  if invoker.handles kind then .ok () else .error (.invalid (.kindNotSolved kind) invoker.name)

/-- Moves the start of a problem so that it satisfies bounds and rows, and reports it. -/
def moveStart (search : NearestSearch α) (source : String) (kind : ProblemKind) (p : Problem α) :
    Prep α (Problem α) := do
  let (start, failure) ← p.feasibleStart search kind
  if let some reason := failure then Prep.leave (.notConverged reason)
  if ← p.isRevised start then
    Prep.report source .revisedStart
    return { p with start }
  else return p

/-- The radii after a change of variables with very different factors: the first is one, and their
proportion is kept. -/
def Settings.withUnitRadius (s : Settings α) : Settings α :=
  { s with rhobeg := 1, rhoend := larger (s.rhoend / s.rhobeg) epsilon }

/-- Rescales the variables of a problem, and reports it if a factor is not one. -/
def rescaleVariables (source : String) (p : Problem α) (settings : Settings α) :
    Prep α (Problem α × Rescaling α × Settings α) := do
  let (p, r) ← p.rescale
  if !r.isShift then Prep.report source .rescaled
  let ratio ← r.ratio
  if substantial ratio then
    Prep.leave (.stretched ratio)
    return (p, r, settings.withUnitRadius)
  else return (p, r, settings)
where
  substantial (ratio : α) : Bool := decide (Rescaling.substantialRatio < ratio)

/-! ## Stages that depend on what is left to solve -/

/-- Moves the start unless nothing is left to solve. -/
def settleStart (search : NearestSearch α) (source : String) (kind : ProblemKind) (facts : Facts α)
    (p : Problem α) : Prep α (Problem α) :=
  if facts.isDegenerate then pure p else moveStart search source kind p

/-- Rescales the variables if that is asked for and something is left to solve. -/
def rescaleIfAsked (source : String) (facts : Facts α) (p : Problem α) (settings : Settings α) :
    Prep α (Problem α × Option (Rescaling α) × Settings α) := do
  if settings.scale && !facts.isDegenerate then
    let (p, r, settings) ← rescaleVariables source p settings
    return (p, some r, settings)
  else return (p, none, settings)

/-- The settings with the solver for an invoker: the front end selects one by the table, and a solver
is the one itself. -/
def settleSolver (invoker : Invoker) (settings : Settings α) (kind : ProblemKind) (p : Problem α) :
    Prep α (Settings α) :=
  if invoker = .frontEnd then
    selectSolver SelectionRule.table settings kind p.dimension p.bounds invoker
  else pure settings

/-! ## The whole preparation -/

/-- Prepares a problem for an invoker. -/
def prepare (search : NearestSearch α) (invoker : Invoker) (i : Input α) : Prep α (Record α) := do
  let source := invoker.name
  let checked ← check source i
  let (reduced, elimination) ← reduce checked
  Prep.leave (.classified checked.problem.kind reduced.kind)
  checkKind invoker reduced.kind
  let resolved ← resolveOptions invoker i.options reduced.dimension reduced.bounds
  let settled ← settleStart search source reduced.kind checked.facts reduced
  let (problem, rescaling, adjusted) ← rescaleIfAsked source checked.facts settled resolved
  let settings ← settleSolver invoker adjusted reduced.kind problem
  let diagnostics ← Prep.diagnostics
  Prep.leave (.finished reduced.kind settings.solver diagnostics.length)
  return {
    invoker
    facts := checked.facts
    fixedViolation := checked.fixedViolation
    rawDimension := checked.problem.dimension
    rawKind := checked.problem.kind
    refinedDimension := reduced.dimension
    refinedKind := reduced.kind
    elimination, rescaling, diagnostics
    input := if settings.debug then some i else none
    problem, settings }

/-! ## Problems given as dictionaries -/

/-- The keys of the parts of a problem. -/
def fieldKeys : List String :=
  ["objective", "x0", "Aineq", "bineq", "Aeq", "beq", "lb", "ub", "nonlcon", "options", "solver"]

/-- Options in which the solver is replaced. What are no options stays as it is. -/
def withSolver (solver options : Value α) : Value α :=
  match options with
  | .absent => .mapping [(.text "solver", solver)]
  | .options fields => .mapping (Value.setEntry (.text "solver") solver (Value.setOptions fields))
  | .mapping entries => .mapping (Value.setEntry (.text "solver") solver entries)
  | v => v

/-- The parts of a problem given as a dictionary. Empty entries count as missing; a solver beside the
options takes precedence over one among them. -/
def readFields (source : String) (v : Value α) : Prep α (Input α) := do
  match v with
  | .mapping entries =>
    let given := entries.filter fun entry => !entry.2.isEmpty
    let get (key : Text) : Value α := (Value.lookup? key given).getD .absent
    if (Value.lookup? "x0" given).isNone then throw (.invalid .noStart source)
    let objective ← if (get "objective").isAbsent then do
        Prep.report source .noObjective
        pure zeroObjective
      else pure (get "objective")
    let unknown := (given.map (·.1)).filter fun key => !key.text?.any (Text.isAmong fieldKeys)
    if !unknown.isEmpty then
      let texts ← (unknown.mapM Value.toText : Except Fault (List Text))
      Prep.report source (.unknownFields (texts.mergeSort fun a b => decide (a ≤ b)))
    let options := match Value.lookup? "solver" given with
      | some solver => withSolver solver (get "options")
      | none => get "options"
    return {
      objective
      start := get "x0"
      inequalityRows := get "Aineq"
      inequalityRhs := get "bineq"
      equalityRows := get "Aeq"
      equalityRhs := get "beq"
      lower := get "lb"
      upper := get "ub"
      constraints := get "nonlcon"
      options }
  | _ => throw (.invalid .notMapping source)

/-- Prepares a problem given as a dictionary. -/
def prepareFields (search : NearestSearch α) (invoker : Invoker) (v : Value α) :
    Prep α (Record α) := do
  prepare search invoker (← readFields invoker.name v)

end Presolve
