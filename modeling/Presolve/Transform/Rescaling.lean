import Presolve.Problem.Basic

/-!
# Rescaling variables

The affine change of variables `unscaled = factor * canonical + shift`. A variable with two finite
bounds is moved and stretched so that its bounds become `-1` and `1`; any other one is moved by its
start, which becomes `0`. The linear systems absorb the change, and every function is evaluated at
the unscaled point.
-/

namespace Presolve

open Scalar

/-- The change of variables `unscaled = factor * canonical + shift`. -/
structure Rescaling (α : Type) where
  factor : List α
  shift : List α

namespace Rescaling

variable {α : Type} [Scalar α]

/-- The unscaled point for a canonical one. -/
def toUnscaled (r : Rescaling α) (x : List α) : Except Fault (List α) := do
  entrywise (· + ·) (← entrywise (· * ·) r.factor x) r.shift

/-- The canonical point of an unscaled one. -/
def toCanonical (r : Rescaling α) (x : List α) : Except Fault (List α) := do
  entrywise (· / ·) (← entrywise (· - ·) x r.shift) r.factor

/-- A map of vectors along the last dimension of an array, given by the extents of its dimensions
and its entries. A number is a vector of one entry. -/
def alongRows (f : List α → Except Fault (List α)) (x : List Nat × List α) :
    Except Fault (List Nat × List α) :=
  match x.1.reverse with
  | [] => (f x.2).map fun y => ([y.length], y)
  | cols :: outer => do
    let width := (← f (List.replicate cols 0)).length
    let rows ← (Tensor.split cols (volume outer) x.2).mapM f
    return (outer.reverse ++ [width], rows.flatten)

/-- The quotient of the greatest and the least factor. -/
def ratio (r : Rescaling α) : Except Fault α :=
  match maximum? r.factor, minimum? r.factor with
  | some top, some bottom => .ok (top / bottom)
  | _, _ => .error (.badValue "no factors")

/-- Above this ratio the trust-region radii of the unscaled variables mean little for the canonical
ones. -/
def substantialRatio : α := 4

def isSubstantial (r : Rescaling α) : Except Fault Bool :=
  r.ratio.map fun ratio => decide (substantialRatio < ratio)

/-- Are all factors one? -/
def isShift (r : Rescaling α) : Bool := r.factor.all fun f => same f 1

/-- A function of unscaled points as one of canonical points. An absent function fails only when
it is called. -/
def onCanonical (r : Rescaling α) (f : Option (Evaluator α)) : Evaluator α := fun x => do
  let x ← r.toUnscaled x
  match f with
  | some f => f x
  | none => throw .wrongType

/-! ## The change of variables for a problem -/

/-- Are both bounds of a variable finite, as far as its sides go? -/
def isBoxed (lo hi : α) : Bool := decide (-infinity < lo) && decide (hi < infinity)

/-- Half the width between two bounds. -/
def halfWidth (lo hi : α) : α := (hi - lo) / 2

/-- The change of variables for a start and bounds. A factor below `epsilon` is a defect: variables
with such bounds have been eliminated. -/
def ofBounds (start : List α) (b : Bounds α) : Except Fault (Rescaling α) := do
  let boxed ← entrywise isBoxed b.lower b.upper
  let lower ← Mask.pick boxed b.lower
  let upper ← Mask.pick boxed b.upper
  let widths ← entrywise halfWidth lower upper
  let others ← Mask.pick (Mask.others boxed) start
  let ones : List α := List.replicate (Mask.count (Mask.others boxed)) 1
  let factor ← Mask.fill boxed widths ones
  let shift ← Mask.fill boxed (← entrywise Bounds.middle lower upper) others
  match minimum? factor with
  | some least => if least < epsilon then throw (.defect .vanishingFactor)
  | none => pure ()
  return ⟨factor, shift⟩

/-- A system in the canonical variables. -/
def rescaleSystem (r : Rescaling α) (s : LinearSystem α) : Except Fault (LinearSystem α) :=
  if s.hasRows then do
    let rhs ← LinearSystem.shiftedRhs s.rows s.rhs r.shift
    return ⟨← s.rows.mapM fun row => entrywise (· * ·) row r.factor, rhs⟩
  else .ok s

end Rescaling

/-- A problem in its canonical variables. -/
def Problem.rescale {α : Type} [Scalar α] (p : Problem α) :
    Except Fault (Problem α × Rescaling α) := do
  let r ← Rescaling.ofBounds p.start p.bounds
  let inequalities ← r.rescaleSystem p.inequalities
  let equalities ← r.rescaleSystem p.equalities
  let start ← r.toCanonical p.start
  let lower ← r.toCanonical p.bounds.lower
  let upper ← r.toCanonical p.bounds.upper
  return ({
    objective := some (r.onCanonical p.objective)
    start, inequalities, equalities
    bounds := ⟨lower, upper⟩
    constraints := p.constraints.map fun c => r.onCanonical (some c) }, r)

end Presolve
