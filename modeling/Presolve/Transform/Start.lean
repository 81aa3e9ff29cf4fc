import Presolve.Problem.Basic

/-!
# Feasible starts

Moves the start of a problem into its bounds or, if it has linear rows, to the nearest point that
satisfies rows and bounds. The start of a nonlinearly constrained problem stays where it is, since
moving it towards the linear constraints may take it far from the nonlinear ones.

How the nearest point is found is a parameter; what it finds is moved into the bounds, so the result
lies there in any case.
-/

namespace Presolve

open Scalar

/-- The bounds of a variable exclude each other, so no point can be looked for. -/
def emptyBox : Fault := .badValue "one of the lower bounds is greater than an upper bound"

/-- What a search for the nearest point found: a point, or why there is none. -/
inductive Nearest (α : Type) where
  | point (x : List α)
  | failure (reason : String)

/-- What the nearest point is asked for: a start, and the rows and bounds that the point satisfies. -/
structure NearestQuery (α : Type) where
  start : List α
  inequalities : LinearSystem α
  equalities : LinearSystem α
  bounds : Bounds α

/-- A search for the point that satisfies rows and bounds and is nearest to a start. -/
abbrev NearestSearch (α : Type) := NearestQuery α → Except Fault (Nearest α)

section

variable {α : Type} [Scalar α]

/-- The point of the box between the bounds that is nearest to a given one. -/
def Bounds.clip (b : Bounds α) (x : List α) : Except Fault (List α) := do
  entrywise atMost b.upper (← entrywise atLeast b.lower x)

namespace Problem

/-- The start and the linear constraints of a problem. -/
def nearestQuery (p : Problem α) : NearestQuery α :=
  ⟨p.start, p.inequalities, p.equalities, p.bounds⟩

/-- A feasible start under rows and bounds, and why the search for the nearest one failed, if it
did; then only the bounds are respected. -/
def linearStart (search : NearestSearch α) (p : Problem α) :
    Except Fault (List α × Option String) := do
  let clipped ← p.bounds.clip p.start
  if p.bounds.infeasible.any id then throw emptyBox
  match ← search p.nearestQuery with
  | .point x => return (← p.bounds.clip x, none)
  | .failure reason => return (clipped, some reason)

/-- A start for a problem of the given kind, and why the search failed. -/
def feasibleStart (search : NearestSearch α) (kind : ProblemKind) (p : Problem α) :
    Except Fault (List α × Option String) :=
  match kind with
  | .boundConstrained => (p.bounds.clip p.start).map (·, none)
  | .linearlyConstrained => p.linearStart search
  | .unconstrained | .nonlinearlyConstrained => .ok (p.start, none)

/-- Is a point farther from the start than rounding explains? -/
def isRevised (p : Problem α) (x : List α) : Except Fault Bool := do
  return farther epsilon (← entrywise (· - ·) p.start x) p.start

end Problem

end

end Presolve
