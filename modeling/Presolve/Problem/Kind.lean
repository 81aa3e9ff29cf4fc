/-!
# Kinds of problems

A problem is of one of four kinds, by the richest constraints it has. The kinds are ordered
by richness: a solver for one kind also solves the poorer ones.
-/

namespace Presolve

inductive ProblemKind where
  | unconstrained
  | boundConstrained
  | linearlyConstrained
  | nonlinearlyConstrained
deriving DecidableEq, Repr

namespace ProblemKind

def all : List ProblemKind :=
  [unconstrained, boundConstrained, linearlyConstrained, nonlinearlyConstrained]

/-- The place in the order of richness. -/
def rank : ProblemKind → Nat
  | unconstrained => 0
  | boundConstrained => 1
  | linearlyConstrained => 2
  | nonlinearlyConstrained => 3

instance : LT ProblemKind := ⟨fun a b => a.rank < b.rank⟩
instance : LE ProblemKind := ⟨fun a b => a.rank ≤ b.rank⟩
instance (a b : ProblemKind) : Decidable (a < b) := Nat.decLt a.rank b.rank
instance (a b : ProblemKind) : Decidable (a ≤ b) := Nat.decLe a.rank b.rank

/-- The name in data. -/
def name : ProblemKind → String
  | unconstrained => "unconstrained"
  | boundConstrained => "bound-constrained"
  | linearlyConstrained => "linearly-constrained"
  | nonlinearlyConstrained => "nonlinearly-constrained"

/-- The name in messages. -/
def label : ProblemKind → String
  | unconstrained => "unconstrained"
  | boundConstrained => "bound constrained"
  | linearlyConstrained => "linearly constrained"
  | nonlinearlyConstrained => "nonlinearly constrained"

/-- The name in reports of defects. -/
def constant : ProblemKind → String
  | unconstrained => "ProblemType.UNCONSTRAINED"
  | boundConstrained => "ProblemType.BOUND_CONSTRAINED"
  | linearlyConstrained => "ProblemType.LINEARLY_CONSTRAINED"
  | nonlinearlyConstrained => "ProblemType.NONLINEARLY_CONSTRAINED"

def ofName? (name : String) : Option ProblemKind :=
  all.find? fun kind => kind.name == name

theorem ofName?_name (kind : ProblemKind) : ofName? kind.name = some kind := by
  cases kind <;> decide

end ProblemKind
end Presolve
