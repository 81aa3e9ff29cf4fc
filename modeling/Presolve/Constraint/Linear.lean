import Presolve.Linear.System
import Presolve.Value.Shape

/-!
# Linear constraints

Reading the two linear systems of a problem and finding their degenerate rows. A row is *trivial* if
every point satisfies it and *infeasible* if none does. Only two kinds of rows can be either: those
without a coefficient other than zero, and those whose right-hand side is infinite in proportion to
the greatest coefficient. Trivial rows are removed, infeasible ones are kept and flagged.
-/

namespace Presolve

open Scalar

variable {α : Type} [Scalar α]

/-! ## Degenerate rows -/

/-- The greatest magnitude of the coefficients of a row. -/
def rowSize (row : List α) : α := (maximum? (row.map Scalar.abs)).getD 0

/-- The right-hand side in proportion to the size of the row; to one if the row is zero. -/
def relativeRhs (row : List α) (b : α) : α :=
  let r := rowSize row
  b / (if same r 0 then 1 else r)

namespace SystemName

/-- Does no point satisfy the row? -/
def isInfeasible (name : SystemName) (row : List α) (b : α) : Bool :=
  let zero := same (rowSize row) 0
  match name with
  | inequalities => same (relativeRhs row b) (-infinity) || (zero && decide (b < 0))
  | equalities => same (Scalar.abs (relativeRhs row b)) infinity || (zero && !same b 0)

/-- Does every point satisfy the row? -/
def isTrivial (name : SystemName) (row : List α) (b : α) : Bool :=
  let zero := same (rowSize row) 0
  match name with
  | inequalities => same (relativeRhs row b) infinity || (zero && decide (0 ≤ b))
  | equalities => zero && same b 0

end SystemName

/-- A system without its trivial rows, and what was found about every row of the full one. -/
structure CheckedSystem (α : Type) where
  system : LinearSystem α
  infeasible : List Bool
  trivial : List Bool

namespace CheckedSystem

/-- Flags the degenerate rows of a system and removes the trivial ones. -/
def ofSystem (name : SystemName) (s : LinearSystem α) : CheckedSystem α :=
  let infeasible := List.zipWith name.isInfeasible s.rows s.rhs
  let trivial := List.zipWith name.isTrivial s.rows s.rhs
  let kept := Mask.others trivial
  ⟨⟨Mask.select kept s.rows, Mask.select kept s.rhs⟩, infeasible, trivial⟩

end CheckedSystem

/-! ## Reading -/

variable [Interchange α]

/-- The system of a matrix and a column, which must fit each other and the number of variables. -/
def LinearSystem.read (name : SystemName) (invoker : String) (n : Nat) (a b : Value α) :
    Except Fault (LinearSystem α) :=
  match a.matrixShape?, b.columnLength? with
  | some (rows, cols), some length =>
    if rows = length ∧ (cols = n ∨ cols = 0) then do
      return ⟨← a.toMatrix, ← b.toVector⟩
    else .error (.invalid (.linearSystem name) invoker)
  | _, _ => .error (.invalid (.linearSystem name) invoker)

/-- Reads a system and checks its rows. -/
def CheckedSystem.read (name : SystemName) (invoker : String) (n : Nat) (a b : Value α) :
    Except Fault (CheckedSystem α) :=
  (LinearSystem.read name invoker n a b).map (.ofSystem name)

/-- Both systems of a problem. -/
structure LinearConstraints (α : Type) where
  inequalities : CheckedSystem α
  equalities : CheckedSystem α

/-- Reads and checks both systems. -/
def LinearConstraints.read (invoker : String) (n : Nat) (aIneq bIneq aEq bEq : Value α) :
    Except Fault (LinearConstraints α) := do
  let inequalities ← CheckedSystem.read .inequalities invoker n aIneq bIneq
  let equalities ← CheckedSystem.read .equalities invoker n aEq bEq
  return ⟨inequalities, equalities⟩

end Presolve
