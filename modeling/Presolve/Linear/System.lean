import Presolve.Linear.Mask

/-!
# Systems of linear constraints

The rows of a matrix and a right-hand side for each. Whether the rows are inequalities
`row · x ≤ b` or equalities `row · x = b` is said where a system is used.
-/

namespace Presolve

structure LinearSystem (α : Type) where
  rows : List (List α)
  rhs : List α

namespace LinearSystem

variable {α : Type}

/-- The system without rows. -/
def empty : LinearSystem α := ⟨[], []⟩

/-- A matrix without entries is no constraint. -/
def hasRows (s : LinearSystem α) : Bool := s.rows.any fun row => !row.isEmpty

/-- The numbers of rows and columns. -/
def shape (s : LinearSystem α) : Nat × Nat := (s.rows.length, (s.rows.headD []).length)

variable [Scalar α]

/-- `b - A v`: the right-hand sides after the part `A v` of every row has moved there. -/
def shiftedRhs (rows : List (List α)) (rhs v : List α) : Except Fault (List α) := do
  entrywise (· - ·) rhs (← applyRows rows v)

end LinearSystem
end Presolve
