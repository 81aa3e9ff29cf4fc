import Presolve.Number.Binary64

/-!
# The numbers a problem is prepared with

Everything from the classification of constraints to the choice of a solver is written
once, over any type with the operations of `Scalar`. It runs over doubles (the instance
below) and is read over exact numbers with two infinities in the theory.

The comparisons are those of numbers with an undefined value: `x < y` and `x ≤ y` both
fail when a side is undefined, so an undefined `x` is one with `¬ x ≤ x`. The maxima and
minima differ in what they do with such an argument, and each says which.
-/

namespace Presolve

/-- Numbers with infinities and an undefined value, and what preparing a problem needs of
them. -/
class Scalar (α : Type) extends Add α, Sub α, Mul α, Div α, Neg α, LT α, LE α where
  decLt : DecidableRel (· < · : α → α → Prop)
  decLe : DecidableRel (· ≤ · : α → α → Prop)
  /-- The number nearest to a fraction with a positive denominator. -/
  ofFraction : Int → Nat → α
  infinity : α
  abs : α → α
  /-- The integer that a finite number without a fractional part is. -/
  toInt? : α → Option Int
  /-- `farther tol d x`: is `‖d‖` more than `tol * max 1 ‖x‖`, with Euclidean norms? -/
  farther : α → List α → List α → Bool

namespace Scalar

variable {α : Type} [Scalar α]

instance (x y : α) : Decidable (x < y) := decLt x y
instance (x y : α) : Decidable (x ≤ y) := decLe x y

instance (priority := low) instOfNat (n : Nat) : OfNat α n := ⟨ofFraction n 1⟩

/-- The gap between `1` and the next double, `2 ^ -52`: the least radius and scaling factor, and
half the width below which two bounds fix a variable. -/
def epsilon : α := ofFraction 1 (Nat.pow 2 52)

/-- The barrier value that stands in for an undefined or huge result of a user's function. -/
def huge : α := ofFraction (Nat.pow 2 100) 1

/-- Does an integer round to a finite double? -/
def fits (i : Int) : Bool := i.natAbs < Nat.pow 2 1024 - Nat.pow 2 970

/-- The number an integer is converted to, unless it is out of the range of doubles. -/
def ofInt? (i : Int) : Option α :=
  if fits i then some (ofFraction i 1) else none

/-- A number that is none, the result of operations without a meaning. -/
def undefined : α := infinity - infinity

/-- An undefined number compares to nothing, not even to itself. -/
def isUndefined (x : α) : Bool := !decide (x ≤ x)

/-- Equality as numbers: zero has one value, and an undefined number equals nothing. -/
def same (x y : α) : Bool := decide (x ≤ y) && decide (y ≤ x)

def isFinite (x : α) : Bool := decide (x < infinity) && decide (-infinity < x)

/-! ## Maxima and minima -/

/-- The first number unless the second is greater. -/
def larger (x y : α) : α := if x < y then y else x

/-- The first number unless the second is less. -/
def smaller (x y : α) : α := if y < x then y else x

/-- The greater of two numbers, undefined if one of them is. -/
def join (x y : α) : α := if x ≤ y then y else if y ≤ x then x else x + y

/-- The lesser of two numbers, undefined if one of them is. -/
def meet (x y : α) : α := if x ≤ y then x else if y ≤ x then y else x + y

/-- The greatest of a list of numbers, undefined if one of them is; an empty list has none. -/
def maximum? : List α → Option α
  | [] => none
  | x :: xs => some (xs.foldl join x)

/-- The least of a list of numbers, undefined if one of them is; an empty list has none. -/
def minimum? : List α → Option α
  | [] => none
  | x :: xs => some (xs.foldl meet x)

/-- The greatest of zero and the defined ones among `xs`, the last of equal ones. -/
def worst (xs : List α) : α :=
  xs.foldl (fun r x => if isUndefined x ∨ x < r then r else x) 0

/-- `x` raised to `lo`; undefined if an argument is. -/
def atLeast (lo x : α) : α := if isUndefined x then x else if lo < x then x else lo

/-- `x` lowered to `hi`; undefined if an argument is. -/
def atMost (hi x : α) : α := if isUndefined x then x else if x < hi then x else hi

/-- `x` moved into `[lo, hi]`, to `hi` if the interval is empty; undefined if an argument is. -/
def clamp (lo hi x : α) : α := atMost hi (atLeast lo x)

end Scalar

/-- Numbers that are read and written through doubles. -/
class Interchange (α : Type) where
  ofDouble : Float → α
  toDouble : α → Float

/-! ## Doubles -/

namespace Binary64

/-- The Euclidean norm, summed from the left. -/
def norm (xs : List Float) : Float :=
  (xs.foldl (fun s x => s + x * x) 0).sqrt

end Binary64

instance : Scalar Float where
  decLt := fun x y => inferInstanceAs (Decidable (x < y))
  decLe := fun x y => inferInstanceAs (Decidable (x ≤ y))
  ofFraction num den := Binary64.nearest (num < 0) num.natAbs den
  infinity := Binary64.ofMantissa false 0 2047
  abs := Float.abs
  toInt? := Binary64.toInt?
  farther tol d x :=
    let size := Binary64.norm x
    decide (tol * (if 1 < size then size else 1) < Binary64.norm d)

instance : Interchange Float := ⟨id, id⟩

end Presolve
