import Presolve.Linear.Entrywise

/-!
# Masks

A mask marks some of the entries of a vector. `select` takes the marked entries out, and
`merge` puts two vectors together: the first fills the marked places and the second the others.
-/

namespace Presolve.Mask

variable {α : Type}

/-- The marked entries, in order. -/
def select : List Bool → List α → List α
  | true :: mask, x :: xs => x :: select mask xs
  | false :: mask, _ :: xs => select mask xs
  | _, _ => []

/-- The number of marked entries. -/
def count (mask : List Bool) : Nat := mask.count true

/-- The mask of the other entries. -/
def others (mask : List Bool) : List Bool := mask.map not

/-- A vector with entries of `marked` at the marked places and of `unmarked` at the others, each in
order. -/
def merge : List Bool → List α → List α → List α
  | true :: mask, x :: marked, unmarked => x :: merge mask marked unmarked
  | false :: mask, marked, y :: unmarked => y :: merge mask marked unmarked
  | _, _, _ => []

/-- The marked entries of a vector that is as long as the mask. -/
def pick (mask : List Bool) (xs : List α) : Except Fault (List α) :=
  if mask.length = xs.length then .ok (select mask xs) else .error .badIndex

/-- Puts two vectors together; a single entry fills all its places. -/
def fill (mask : List Bool) (marked unmarked : List α) : Except Fault (List α) := do
  let marked ← spread (count mask) marked
  let unmarked ← spread (count (others mask)) unmarked
  return merge mask marked unmarked

theorem length_select : ∀ {mask : List Bool} {xs : List α}, mask.length = xs.length →
    (select mask xs).length = count mask
  | [], [], _ => rfl
  | true :: mask, x :: xs, h => by
    have h : mask.length = xs.length := by simpa using h
    simpa [select, count] using length_select h
  | false :: mask, x :: xs, h => by
    have h : mask.length = xs.length := by simpa using h
    simpa [select, count] using length_select h

end Presolve.Mask
