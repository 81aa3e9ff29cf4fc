import Presolve.LeastSquares.Constrained

/-!
# Positive quadratic forms in factors

A positive quadratic form is kept as `L D Lᵀ`, with a unit lower triangle `L` and a positive
diagonal `D`, since a form in factors stays positive under updates in spite of rounding. A form is
the list of its columns: each has an entry of `D` and, below it, the entries of `L`.

`Factors.add` adds a multiple of the square of a linear form, `t z zᵀ`, by changing the columns one
after the other.
-/

namespace Presolve.LeastSquares

/-- A column of the factors. -/
structure Pivot where
  diagonal : Float
  below : List Float

abbrev Factors := List Pivot

namespace Factors

/-- The sum of squares of `n` variables. -/
def identity (n : Nat) : Factors :=
  (List.range n).map fun i => ⟨1, List.replicate (n - 1 - i) 0⟩

/-- The rows of the triangle `√D Lᵀ`, whose square is the form. -/
def root (f : Factors) : Triangle :=
  f.map fun p => p.diagonal.sqrt :: p.below.map (p.diagonal.sqrt * ·)

/-- The product with a vector. -/
def apply : Factors → List Float → List Float
  | p :: ps, x :: xs =>
    let y := p.diagonal * (x + dot p.below xs)
    y :: addScaled y p.below (apply ps xs)
  | _, _ => []

/-- The `x` with `L x = z`. -/
def solveLower : Factors → List Float → List Float
  | p :: ps, z :: zs => z :: solveLower ps (addScaled (-z) p.below zs)
  | _, _ => []

/-- Changes the columns for an update by `z`. For every column there is the inverse weight that the
update has left after it; `t` is the one before. -/
def change : Float → List Float → Factors → List Float → Factors
  | t, next :: weights, p :: ps, z :: zs =>
    let delta := z / p.diagonal
    let ratio := next / t
    let beta := delta / next
    let zs' := addScaled (-z) p.below zs
    let below :=
      if 4 < ratio then List.zipWith (fun l z => t / next * l + beta * z) p.below zs
      else addScaled beta zs' p.below
    ⟨ratio * p.diagonal, below⟩ :: change next weights ps zs'
  | _, _, ps, _ => ps

/-- Running sums from the left, each after its term. -/
def runningSums (start : Float) : List Float → List Float
  | [] => []
  | x :: xs => (start + x) :: runningSums (start + x) xs

/-- Adds `weight · z zᵀ`. If the weight is negative and rounding would take the form's positivity,
the weight is lessened until it does not. -/
def add (weight : Float) (z : List Float) (f : Factors) : Factors :=
  if weight == 0 then f
  else
    let terms := List.zipWith (fun p u => u * u / p.diagonal) f (solveLower f z)
    let t := 1 / weight
    if 0 < weight then change t (runningSums t terms) f z
    else
      -- The inverse weight that has to be left in the end is known, so the sums run backwards.
      let last := terms.foldl (· + ·) t
      let last := if 0 ≤ last then accuracy / weight else last
      match (last :: runningSums last (terms.reverse.map (- ·))).reverse with
      | t :: weights => change t weights f z
      | [] => f

end Factors

end Presolve.LeastSquares
