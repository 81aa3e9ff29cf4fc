import Presolve.Linear.Entrywise

/-!
# Reflections and triangles

The tools of least squares in double precision. A reflection turns a vector into a multiple of the
first unit vector; reflecting one column after the other, each from its own coordinate on, reduces
a matrix to an upper triangle; and systems with such a triangle are solved entry by entry.

Vectors are lists. A triangle is the list of its rows, each from the diagonal on.
-/

namespace Presolve.LeastSquares

/-- `x + t y`. -/
def addScaled (t : Float) (y x : List Float) : List Float :=
  List.zipWith (fun a b => a + t * b) x y

/-- The greatest absolute value. -/
def magnitude (x : List Float) : Float :=
  x.foldl (fun m a => if m < a.abs then a.abs else m) 0

/-- The Euclidean length. Where the squares are out of range they are measured in units of the greatest
entry. -/
def length (x : List Float) : Float :=
  let squares := dot x x
  if 1e-290 < squares ∧ squares < 1e290 then squares.sqrt
  else
    let unit := magnitude x
    if unit ≤ 0 then 0 else unit * (x.foldl (fun s a => s + a / unit * (a / unit)) 0).sqrt

/-- The entry by entry transposed matrix of `n` columns. -/
def columns (n : Nat) (rows : List (List Float)) : List (List Float) :=
  (List.range n).map fun j => rows.map fun row => row.getD j 0

/-! ## Reflections -/

/-- The reflection that turns some vector into `lead` times the first unit vector: it takes away
`factor` times the component along the axis, which begins with one. -/
structure Reflection where
  lead : Float
  axis : List Float
  factor : Float

namespace Reflection

/-- The reflection for a vector, which changes the sign of its first entry so that nothing
cancels. A vector of this form stays as it is. -/
def ofVector : List Float → Reflection
  | [] => ⟨0, [], 0⟩
  | x :: rest =>
    let size := length rest
    if size == 0 then ⟨x, [], 0⟩
    else
      let whole := length [x.abs, size]
      let lead := if x < 0 then whole else -whole
      ⟨lead, 1 :: rest.map (· * (1 / (x - lead))), (lead - x) / lead⟩

/-- The image of a vector. The component is summed from the last entry on. -/
def apply (r : Reflection) (x : List Float) : List Float :=
  if r.factor == 0 then x
  else
    let component := (List.zipWith (· * ·) x r.axis).foldr (· + ·) 0
    List.zipWith (fun a b => a + component * (-r.factor * b)) x r.axis

end Reflection

/-! ## Triangles -/

abbrev Triangle := List (List Float)

namespace Triangle

def diagonal (t : Triangle) : List Float := t.map fun row => row.headD 0

/-- The `x` with `T x = b`. -/
def solve : Triangle → List Float → List Float
  | row :: rows, b :: bs =>
    let x := solve rows bs
    (b - dot row.tail x) / row.headD 0 :: x
  | _, _ => []

/-- The `x` with `x T = b`. -/
def solveLeft : Triangle → List Float → List Float
  | row :: rows, b :: bs =>
    let x := b / row.headD 0
    x :: solveLeft rows (addScaled (-x) row.tail bs)
  | _, _ => []

end Triangle

/-! ## Reduction to a triangle -/

/-- Reflections that reduce some columns to a triangle. The first reflection moves all coordinates,
and each later one leaves one coordinate more alone. -/
structure Reduction where
  reflections : List Reflection
  triangle : Triangle

namespace Reduction

def empty : Reduction := ⟨[], []⟩

/-- The number of columns that were reduced. -/
def rank (q : Reduction) : Nat := q.reflections.length

/-- Applies reflections in turn, keeping the leading coordinate after each. -/
def turn : List Reflection → List Float → List Float
  | [], x => x
  | r :: rs, x =>
    match r.apply x with
    | [] => []
    | head :: tail => head :: turn rs tail

/-- A vector in the reduced coordinates. -/
def apply (q : Reduction) (x : List Float) : List Float := turn q.reflections x

/-- The reduced coordinates of a vector that the triangle speaks of. -/
def inside (q : Reduction) (x : List Float) : List Float := (q.apply x).take q.rank

/-- The reduced coordinates of a vector below the triangle. -/
def outside (q : Reduction) (x : List Float) : List Float := (q.apply x).drop q.rank

/-- Reduces one more column. -/
def push (q : Reduction) (column : List Float) : Reduction :=
  let r := Reflection.ofVector (q.outside column)
  ⟨q.reflections ++ [r],
    List.zipWith (fun row x => row ++ [x]) q.triangle (q.inside column) ++ [[r.lead]]⟩

def ofColumns (columns : List (List Float)) : Reduction := columns.foldl push empty

end Reduction

end Presolve.LeastSquares
