import Presolve.Problem.Basic

/-!
# Eliminating fixed variables

A problem in the free variables alone: the columns of the fixed variables move to the right-hand
sides, and every function is evaluated at the point where the fixed variables have their values. The
record of an elimination maps points of the smaller space back and forth.
-/

namespace Presolve

/-- Which variables are free, and the values of the others in order. -/
structure Elimination (α : Type) where
  free : List Bool
  fixedValues : List α

namespace Elimination

variable {α : Type}

/-- The number of all variables. -/
def fullDimension (e : Elimination α) : Nat := e.free.length

/-- The number of free variables. -/
def dimension (e : Elimination α) : Nat := Mask.count e.free

/-- The mask of the fixed variables. -/
def fixed (e : Elimination α) : List Bool := Mask.others e.free

/-- The point with the given values of the free variables. -/
def expand (e : Elimination α) (x : List α) : Except Fault (List α) :=
  Mask.fill e.free x e.fixedValues

/-- The free variables of a point. -/
def restrict (e : Elimination α) (x : List α) : Except Fault (List α) :=
  Mask.pick e.free x

/-- A function of all variables as one of the free variables. An absent function fails only when it
is called. -/
def onFree (e : Elimination α) (f : Option (Evaluator α)) : Evaluator α := fun x => do
  let x ← e.expand x
  match f with
  | some f => f x
  | none => throw .wrongType

variable [Scalar α]

/-- A system in the free variables. -/
def reduceSystem (e : Elimination α) (s : LinearSystem α) : Except Fault (LinearSystem α) :=
  if s.hasRows then do
    let fixedColumns ← s.rows.mapM (Mask.pick e.fixed)
    let rhs ← LinearSystem.shiftedRhs fixedColumns s.rhs e.fixedValues
    return ⟨← s.rows.mapM e.restrict, rhs⟩
  else .ok s

end Elimination

/-- Eliminates the marked variables, each at the point half-way between its bounds. -/
def Problem.eliminate {α : Type} [Scalar α] (fixed : List Bool) (p : Problem α) :
    Except Fault (Problem α × Elimination α) := do
  let e : Elimination α := ⟨Mask.others fixed, ← p.bounds.middles fixed⟩
  let inequalities ← e.reduceSystem p.inequalities
  let equalities ← e.reduceSystem p.equalities
  let start ← e.restrict p.start
  let lower ← e.restrict p.bounds.lower
  let upper ← e.restrict p.bounds.upper
  return ({
    objective := some (e.onFree p.objective)
    start, inequalities, equalities
    bounds := ⟨lower, upper⟩
    constraints := p.constraints.map fun c => e.onFree (some c) }, e)

end Presolve
