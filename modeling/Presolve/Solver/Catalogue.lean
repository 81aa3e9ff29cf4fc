import Presolve.Problem.Kind
import Presolve.Solver.Name
import Presolve.Solver.Option

/-!
# The catalogue of solvers

What every solver accepts, and the table of rules by which a solver is chosen for a problem. The
first rule that applies decides; the table has a rule for every problem.
-/

namespace Presolve

namespace Solver

/-- The richest kind of problems that a solver handles. -/
def richest : Solver → ProblemKind
  | uobyqa | newuoa => .unconstrained
  | bobyqa => .boundConstrained
  | lincoa => .linearlyConstrained
  | cobyla => .nonlinearlyConstrained

/-- Does a solver handle problems of a kind? -/
def handles (s : Solver) (kind : ProblemKind) : Bool := decide (kind ≤ s.richest)

/-- Is the number of interpolation points an option of the solver? -/
def takesNpt : Solver → Bool
  | newuoa | bobyqa | lincoa => true
  | uobyqa | cobyla => false

/-- The number of points of a full quadratic model in `n` variables. -/
def fullQuadratic (n : Nat) : Nat := (n + 1) * (n + 2) / 2

/-- The number of interpolation points that a solver uses by default, which is also the number of
evaluations that it must be allowed to exceed. -/
def defaultNpt (n : Nat) : Solver → Nat
  | uobyqa => fullQuadratic n
  | newuoa | bobyqa | lincoa => 2 * n + 1
  | cobyla => n + 1

/-- Must the first trust region fit between the bounds? -/
def limitsRadius : Solver → Bool
  | bobyqa => true
  | _ => false

/-- The rule about the budget of evaluations, as a part of a message. -/
def budgetRule : Solver → String
  | uobyqa => "requires maxfun > (n+1)*(n+2)/2; it is set to (n+1)*(n+2)/2+1"
  | newuoa | bobyqa | lincoa => "requires maxfun > npt; it is set to npt+1"
  | cobyla => "requires maxfun > n+1; it is set to n+2"

def summary : Solver → String
  | uobyqa => "full quadratic models, unconstrained"
  | newuoa => "underdetermined quadratic interpolation, unconstrained"
  | bobyqa => "quadratic interpolation with bound constraints"
  | lincoa => "quadratic interpolation with linear constraints"
  | cobyla => "linear models, general nonlinear constraints"

/-- A solver that handles a kind also handles the poorer ones. -/
theorem handles_of_le {s : Solver} {a b : ProblemKind} (hab : a ≤ b) (h : s.handles b = true) :
    s.handles a = true := by
  have hb : b ≤ s.richest := by simpa [handles] using h
  have : a ≤ s.richest := Nat.le_trans hab hb
  simpa [handles] using this

end Solver

namespace Invoker

/-- The front end handles every kind, a solver only its own. -/
def handles : Invoker → ProblemKind → Bool
  | frontEnd, _ => true
  | solver s, kind => s.handles kind

end Invoker

/-- The names of the options of a solver; without a solver, of those that all solvers have. -/
def OptionName.known (solver : Option Solver) : List OptionName :=
  match solver with
  | some s => if s.takesNpt then .npt :: common else common
  | none => common

/-! ## Rules -/

/-- When a rule applies. -/
inductive Condition where
  | smallAndAffordable
  | tightBudget
  | otherwise
  | always
deriving DecidableEq, Repr

namespace Condition

/-- Does the condition hold for `n` variables and a budget of evaluations? -/
def holds (n : Nat) (budget : Int) : Condition → Bool
  | smallAndAffordable => decide (2 ≤ n ∧ n ≤ 8 ∧ (Solver.fullQuadratic n : Int) + 1 ≤ budget)
  | tightBudget => decide (budget ≤ n + 2)
  | otherwise | always => true

def text : Condition → String
  | smallAndAffordable => "2 <= n <= 8 and maxfun >= (n+1)(n+2)/2+1"
  | tightBudget => "maxfun <= n+2"
  | otherwise => "otherwise"
  | always => "always"

end Condition

/-- A row of the table of rules. -/
structure SelectionRule where
  kind : ProblemKind
  condition : Condition
  solver : Solver
deriving DecidableEq, Repr

namespace SelectionRule

/-- The table of rules. -/
def table : List SelectionRule :=
  [⟨.unconstrained, .smallAndAffordable, .uobyqa⟩,
   ⟨.unconstrained, .tightBudget, .cobyla⟩,
   ⟨.unconstrained, .otherwise, .newuoa⟩,
   ⟨.boundConstrained, .tightBudget, .cobyla⟩,
   ⟨.boundConstrained, .otherwise, .bobyqa⟩,
   ⟨.linearlyConstrained, .tightBudget, .cobyla⟩,
   ⟨.linearlyConstrained, .otherwise, .lincoa⟩,
   ⟨.nonlinearlyConstrained, .always, .cobyla⟩]

/-- The first rule for a kind of problems, `n` variables and a budget. -/
def first? (rules : List SelectionRule) (kind : ProblemKind) (n : Nat) (budget : Int) :
    Option SelectionRule :=
  rules.find? fun rule => rule.kind == kind && rule.condition.holds n budget

/-- The table has a rule for every problem. -/
theorem first?_table_isSome (kind : ProblemKind) (n : Nat) (budget : Int) :
    (first? table kind n budget).isSome = true := by
  simp only [first?, List.find?_isSome]
  cases kind
  · exact ⟨⟨.unconstrained, .otherwise, .newuoa⟩, by simp [table], by simp [Condition.holds]⟩
  · exact ⟨⟨.boundConstrained, .otherwise, .bobyqa⟩, by simp [table], by simp [Condition.holds]⟩
  · exact ⟨⟨.linearlyConstrained, .otherwise, .lincoa⟩, by simp [table], by simp [Condition.holds]⟩
  · exact ⟨⟨.nonlinearlyConstrained, .always, .cobyla⟩, by simp [table], by simp [Condition.holds]⟩

end SelectionRule
end Presolve
