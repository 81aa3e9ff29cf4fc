import Presolve.LeastSquares.Nonnegative

/-!
# Constrained least squares

The point that satisfies linear equations and inequalities and comes nearest to satisfying further
equations, the objective, in the sense of least squares, with the weight that each constraint has in
balancing the objective.

The equations are removed one by one: a reflection turns the first into an equation for one unknown,
whose value moves to the right-hand sides. Under inequalities alone the objective is reduced to a
triangle, which makes it the distance from the origin; the nearest point to the origin in a
polyhedron is found through its dual, a nonnegative least squares problem.
-/

namespace Presolve.LeastSquares

/-- The relative accuracy of double precision arithmetic. -/
def accuracy : Float := 2.220446049250313e-16

/-- A linear form and its value: `coefficients · x` is to be equal to, at least or near `value`. -/
structure Row where
  coefficients : List Float
  value : Float

namespace Row

def head (r : Row) : Float := r.coefficients.headD 0

/-- By how much the form exceeds its value. -/
def excess (r : Row) (x : List Float) : Float := dot r.coefficients x - r.value

def reflect (q : Reflection) (r : Row) : Row := { r with coefficients := q.apply r.coefficients }

/-- The relative size of what rounding may leave of a form that vanishes. -/
def noise : Float := 16 * accuracy

/-- The row for the other unknowns, once the first has a value. If the form hangs on the first unknown
alone, what rounding left of the others is nothing. -/
def fix (x : Float) (r : Row) : Row :=
  let others := r.coefficients.tail
  let known := r.head * x
  let value := r.value - known
  if magnitude others ≤ noise * length r.coefficients then
    ⟨others.map fun _ => 0, if value.abs ≤ noise * (r.value.abs + known.abs) then 0 else value⟩
  else ⟨others, value⟩

/-- The row for the unknowns in the opposite order. -/
def reversed (r : Row) : Row := { r with coefficients := r.coefficients.reverse }

end Row

/-- A point, the excess of the objective there, and the weights of the constraints. -/
structure Answer where
  point : List Float
  excess : List Float
  equationWeights : List Float
  inequalityWeights : List Float

/-- The point with `coefficients · x ≥ value` for all rows that is nearest to the origin in `n`
dimensions, with the weights of the rows. -/
def leastPoint (n : Nat) (rows : List Row) : Except Trouble (List Float × List Float) := do
  let (y, distance) ← nonnegative (rows.map fun r => r.coefficients ++ [r.value])
    (List.replicate n 0 ++ [1])
  if distance ≤ 0 then throw .incompatible
  let slack := 1 - dot (rows.map Row.value) y
  if ¬ 1 < 1 + slack then throw .incompatible
  let scale := 1 / slack
  return ((columns n (rows.map Row.coefficients)).map (scale * dot · y), y.map (scale * ·))

/-- Least squares in `n` unknowns under inequalities. -/
def underInequalities (n : Nat) (objective inequalities : List Row) : Except Trouble Answer := do
  let q := Reduction.ofColumns (columns n (objective.map Row.coefficients))
  let target := q.inside (objective.map Row.value)
  let (offset, weights) ←
    if inequalities.isEmpty then
      if q.triangle.diagonal.any fun d => decide (d.abs ≤ accuracy.sqrt) then throw .rankDeficient
      pure (List.replicate n 0, [])
    else
      if q.triangle.diagonal.any fun d => !decide (accuracy ≤ d.abs) then throw .singularObjective
      leastPoint n <| inequalities.map fun r =>
        let form := q.triangle.solveLeft r.coefficients
        ⟨form, r.value - dot form target⟩
  let x := q.triangle.solve (addScaled 1 target offset)
  return ⟨x, objective.map (Row.excess · x), [], weights⟩

/-- Least squares in `n` unknowns under equations and inequalities, removing the equations one by
one, each with the first of the unknowns. When they leave no unknown, the inequalities have no say.
The unknowns are in the opposite order until no equation is left. -/
def underEquations (inequalities objective : List Row) : Nat → List Row → Except Trouble Answer
  | 0, _ => .ok ⟨[], objective.map (- Row.value ·), [], inequalities.map fun _ => 0⟩
  | n + 1, [] => do
    let answer ← underInequalities (n + 1) (objective.map Row.reversed) (inequalities.map Row.reversed)
    return { answer with point := answer.point.reverse }
  | n + 1, e :: equations => do
    let q := Reflection.ofVector e.coefficients
    if !decide (accuracy ≤ q.lead.abs) then throw .singularEquations
    let x := e.value / q.lead
    let objective := objective.map (Row.reflect q)
    let inequalities := inequalities.map (Row.reflect q)
    let equations := equations.map (Row.reflect q)
    let rest ← underEquations (inequalities.map (Row.fix x)) (objective.map (Row.fix x)) n
      (equations.map (Row.fix x))
    let pull := dot (objective.map Row.head) rest.excess
      - dot (inequalities.map Row.head) rest.inequalityWeights
    let weight := (pull - dot (equations.map Row.head) rest.equationWeights) / q.lead
    return { rest with
      point := q.apply (x :: rest.point)
      equationWeights := weight :: rest.equationWeights }

/-- The point in `n` dimensions that satisfies equations and inequalities and is best for the
objective. The equations are removed from the last one on, and each of them fixes the last of the
unknowns that are left. -/
def constrained (n : Nat) (objective equations inequalities : List Row) : Except Trouble Answer := do
  if n < equations.length then throw .moreEquationsThanUnknowns
  let answer ← underEquations (inequalities.map Row.reversed) (objective.map Row.reversed) n
    (equations.map Row.reversed).reverse
  return { answer with
    point := answer.point.reverse
    equationWeights := answer.equationWeights.reverse }

end Presolve.LeastSquares
