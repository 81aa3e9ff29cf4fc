import Presolve.Linear.Mask
import Presolve.Value.Shape

/-!
# Bounds

A lower and an upper bound for every variable, infinite where there is none. A variable is *fixed*
if its bounds are nearly equal, so that bounds which differ only by rounding still fix it; its value
is then half-way between them. It has *infeasible* bounds if the lower one is the greater.
-/

namespace Presolve

open Scalar

structure Bounds (α : Type) where
  lower : List α
  upper : List α

namespace Bounds

variable {α : Type} [Scalar α]

/-- No bounds on `n` variables. -/
def free (n : Nat) : Bounds α := ⟨List.replicate n (-infinity), List.replicate n infinity⟩

/-- Are two bounds nearly equal? -/
def fixes (lo hi : α) : Bool := decide (Scalar.abs (lo - hi) < 2 * epsilon)

/-- The point half-way between two bounds. -/
def middle (lo hi : α) : α := (lo + hi) / 2

/-- The variables whose bounds exclude each other. -/
def infeasible (b : Bounds α) : List Bool := List.zipWith (fun lo hi => decide (hi < lo)) b.lower b.upper

/-- The variables that are fixed. -/
def fixed (b : Bounds α) : List Bool := List.zipWith fixes b.lower b.upper

/-- The values of the marked variables, half-way between their bounds. -/
def middles (mask : List Bool) (b : Bounds α) : Except Fault (List α) := do
  entrywise middle (← Mask.pick mask b.lower) (← Mask.pick mask b.upper)

/-- The least width between the bounds of a variable, halved; infinite without variables. -/
def halfWidth (b : Bounds α) : Except Fault α :=
  if b.lower.isEmpty then .ok infinity
  else do
    match minimum? (← entrywise (· - ·) b.upper b.lower) with
    | some width => return width / 2
    | none => throw lengthMismatch

variable [Interchange α]

/-- One of the bounds of `n` variables; none given means infinite ones. -/
def readSide (side : BoundName) (invoker : String) (n : Nat) (v : Value α) : Except Fault (List α) :=
  match v.vectorLength? with
  | some length =>
    if length = 0 then
      .ok (List.replicate n (match side with | .lower => -infinity | .upper => infinity))
    else if length = n then v.toVector
    else .error (.invalid (.bound side) invoker)
  | none => .error (.invalid (.bound side) invoker)

/-- Reads both bounds of `n` variables. -/
def read (invoker : String) (n : Nat) (lower upper : Value α) : Except Fault (Bounds α) := do
  let lower ← readSide .lower invoker n lower
  let upper ← readSide .upper invoker n upper
  return ⟨lower, upper⟩

end Bounds
end Presolve
