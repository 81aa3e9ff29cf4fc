import Presolve.Fault
import Presolve.Number.Scalar

/-!
# Vectors

Vectors are lists. An operation on two vectors goes entry by entry; a vector of one entry goes with
every entry of the other, and any other difference in length is a fault. Sums run from the left.
-/

namespace Presolve

variable {α β γ : Type}

/-- The fault of vectors whose lengths do not fit. -/
def lengthMismatch : Fault := .badValue "operands could not be broadcast together"

/-- Applies an operation entry by entry. -/
def entrywise (f : α → β → γ) (xs : List α) (ys : List β) : Except Fault (List γ) :=
  if xs.length = ys.length then .ok (List.zipWith f xs ys)
  else
    match xs, ys with
    | [x], ys => .ok (ys.map (f x))
    | xs, [y] => .ok (xs.map (f · y))
    | _, _ => .error lengthMismatch

/-- Vectors of one length always fit. -/
theorem entrywise_of_length_eq (f : α → β → γ) {xs : List α} {ys : List β}
    (h : xs.length = ys.length) : entrywise f xs ys = .ok (List.zipWith f xs ys) := by
  simp [entrywise, h]

/-- `count` entries from a vector that has as many, or from a single entry. -/
def spread (count : Nat) (xs : List α) : Except Fault (List α) :=
  if xs.length = count then .ok xs
  else
    match xs with
    | [x] => .ok (List.replicate count x)
    | _ => .error lengthMismatch

section

variable [Scalar α]

/-- The sum of a vector. -/
def total (xs : List α) : α := xs.foldl (· + ·) 0

/-- The sum of the products of the entries of two vectors of one length. -/
def dot (xs ys : List α) : α := total (List.zipWith (· * ·) xs ys)

/-- The products of the rows of a matrix with a vector, which must be as long as every row. -/
def applyRows (rows : List (List α)) (x : List α) : Except Fault (List α) :=
  if rows.all fun row => row.length == x.length then .ok (rows.map (dot · x))
  else .error lengthMismatch

end

end Presolve
