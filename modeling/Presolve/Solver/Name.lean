/-!
# Solvers and invokers

The five solvers that problems are prepared for, and the invokers: either a solver itself, or
the front end, which picks a solver for the problem.
-/

namespace Presolve

/-- A derivative-free solver. -/
inductive Solver where
  | uobyqa
  | newuoa
  | bobyqa
  | lincoa
  | cobyla
deriving DecidableEq, Repr

namespace Solver

def all : List Solver := [uobyqa, newuoa, bobyqa, lincoa, cobyla]

def name : Solver → String
  | uobyqa => "uobyqa"
  | newuoa => "newuoa"
  | bobyqa => "bobyqa"
  | lincoa => "lincoa"
  | cobyla => "cobyla"

/-- The solver of the given name, in lower case. -/
def ofName? (name : String) : Option Solver :=
  all.find? fun solver => solver.name == name

/-- The solver of the given name, in any case. -/
def parse? (name : String) : Option Solver := ofName? name.toLower

theorem ofName?_name (solver : Solver) : ofName? solver.name = some solver := by
  cases solver <;> decide

end Solver

/-- Who prepares a problem: the front end or a solver. -/
inductive Invoker where
  | frontEnd
  | solver (s : Solver)
deriving DecidableEq, Repr

namespace Invoker

def all : List Invoker := frontEnd :: Solver.all.map solver

def name : Invoker → String
  | frontEnd => "pdfo"
  | solver s => s.name

def ofName? (name : String) : Option Invoker :=
  all.find? fun invoker => invoker.name == name

/-- The solver that an invoker is. -/
def solver? : Invoker → Option Solver
  | frontEnd => none
  | solver s => some s

theorem ofName?_name (invoker : Invoker) : ofName? invoker.name = some invoker := by
  cases invoker with
  | frontEnd => decide
  | solver s => cases s <;> decide

end Invoker
end Presolve
