import Presolve.LeastSquares.Factors
import Presolve.Transform.Start

/-!
# The nearest point of a polyhedron

Looks for the point nearest to the start of a problem among those that satisfy its linear rows and
its bounds, in double precision. Each round asks for the best step of a quadratic model under the
requirements as they stand (`direction`), goes along it as far as a merit function falls
(`shorten`), and corrects the model by the change of the gradient (`improvedForm`). The merit of a
point is its distance and the shortfall of every requirement, with a penalty for each.

If the requirements have no common step, a share of their shortfall is let go, at a high price, and
the search does not end in that round. If no step lowers the merit, the model starts afresh; after
the fifth time the search ends.
-/

namespace Presolve

open LeastSquares

namespace NearestPoint

/-- Why the search ended without a point. -/
inductive Failure where
  | trouble (t : Trouble)
  | noDescent
  | roundLimit
deriving DecidableEq, Repr

def Failure.reason : Failure → String
  | trouble .moreEquationsThanUnknowns => "More equality constraints than independent variables"
  | trouble .tooManyMoves => "More than 3*n iterations in LSQ subproblem"
  | trouble .incompatible => "Inequality constraints incompatible"
  | trouble .singularObjective => "Singular matrix E in LSQ subproblem"
  | trouble .singularEquations => "Singular matrix C in LSQ subproblem"
  | trouble .rankDeficient => "Rank-deficient equality constraint subproblem HFTI"
  | noDescent => "Positive directional derivative for linesearch"
  | roundLimit => "Iteration limit reached"

/-! ## What is asked for -/

/-- The linear form `normal · x + offset` has to be zero, or at least zero. -/
structure Requirement where
  isEquation : Bool
  normal : List Float
  offset : Float

namespace Requirement

def value (x : List Float) (r : Requirement) : Float := dot r.normal x + r.offset

/-- By how much a value of the form misses the requirement. -/
def shortfall (r : Requirement) (value : Float) : Float :=
  if r.isEquation then value.abs else if value < 0 then -value else 0

/-- What a step has to do for the form with the given value. -/
def forStep (r : Requirement) (value : Float) : Row := ⟨r.normal, -value⟩

end Requirement

/-- The centre that the point is to be near to, the requirements, equations first, and for every
variable a lower and an upper bound, if it has them. -/
structure Target where
  centre : List Float
  requirements : List Requirement
  lower : List (Option Float)
  upper : List (Option Float)

namespace Target

def dimension (t : Target) : Nat := t.centre.length

def offsets (t : Target) (x : List Float) : List Float := List.zipWith (· - ·) x t.centre

/-- Half the squared distance from the centre. -/
def distance (t : Target) (x : List Float) : Float := 0.5 * dot (t.offsets x) (t.offsets x)

def values (t : Target) (x : List Float) : List Float := t.requirements.map (Requirement.value x)

/-- The shortfalls of the requirements whose forms have the given values. -/
def shortfalls (t : Target) (values : List Float) : List Float :=
  List.zipWith Requirement.shortfall t.requirements values

/-- The sum of the normals with weights. -/
def combined (t : Target) (weights : List Float) : List Float :=
  (columns t.dimension (t.requirements.map Requirement.normal)).map (dot · weights)

/-- The point between the bounds that is nearest to `x`. -/
def clip (t : Target) (x : List Float) : List Float :=
  let low (lo : Option Float) (x : Float) : Float := match lo with
    | some lo => if x < lo then lo else x
    | none => x
  let high (hi : Option Float) (x : Float) : Float := match hi with
    | some hi => if hi < x then hi else x
    | none => x
  List.zipWith high t.upper (List.zipWith low t.lower x)

end Target

/-! ## The step -/

/-- A step, the weights of the requirements in finding it, and the share of their shortfall that it
takes away: all of it unless `isRelaxed`. -/
structure Direction where
  step : List Float
  weights : List Float
  share : Float
  isRelaxed : Bool

/-- The rows that keep `x + s` between bounds. -/
def boundRows (lower upper : List (Option Float)) (x : List Float) : List Row :=
  let n := x.length
  let side (sign : Float) (bounds : List (Option Float)) : List Row :=
    (bounds.zip x).zipIdx.filterMap fun ((bound, x), i) =>
      bound.map fun b => ⟨(List.range n).map fun j => if i = j then sign else 0, sign * (b - x)⟩
  side 1 lower ++ side (-1) upper

/-- The rows of the model whose square is the quadratic form, and whose best step without
requirements is downhill from `gradient`. -/
def modelRows (form : Factors) (gradient : List Float) : List Row :=
  ((form.root.zip (form.root.solveLeft gradient)).zipIdx).map fun ((row, y), i) =>
    ⟨List.replicate i 0 ++ row, -y⟩

/-- The best step under all requirements. -/
def Target.fullDirection (t : Target) (form : Factors) (x gradient values : List Float) :
    Except Trouble Direction := do
  let (equations, others) := (t.requirements.zip values).partition fun (r, _) => r.isEquation
  let rows (rs : List (Requirement × Float)) : List Row := rs.map fun (r, v) => r.forStep v
  let answer ← constrained t.dimension (modelRows form gradient) (rows equations)
    (rows others ++ boundRows t.lower t.upper x)
  return ⟨answer.point, answer.equationWeights ++ answer.inequalityWeights.take others.length, 1, false⟩

/-- The best step if a share of every shortfall may remain, at a price. The share is one more
unknown. -/
def Target.relaxedDirection (t : Target) (form : Factors) (x gradient values : List Float)
    (price : Float) : Except Trouble Direction := do
  let n := t.dimension
  let widened (r : Requirement) (v : Float) : Row :=
    let relief := if r.isEquation then -v else r.shortfall v
    ⟨r.normal ++ [relief], -v⟩
  let (equations, others) := (t.requirements.zip values).partition fun (r, _) => r.isEquation
  let rows (rs : List (Requirement × Float)) : List Row := rs.map fun (r, v) => widened r v
  let objective := (modelRows form gradient).map fun r => ⟨r.coefficients ++ [0], r.value⟩
  let answer ← constrained (n + 1) (objective ++ [⟨List.replicate n 0 ++ [price], 0⟩])
    (rows equations)
    (rows others ++ boundRows (t.lower ++ [some 0]) (t.upper ++ [some 1]) (x ++ [0]))
  let left := answer.point.getD n 0
  let left := if left < 0 then 0 else if 1 < left then 1 else left
  return ⟨answer.point.take n, answer.equationWeights ++ answer.inequalityWeights.take others.length,
    1 - left, true⟩

/-- The prices that are tried for what remains of a shortfall. -/
def prices : List Float := [1e2, 1e3, 1e4, 1e5, 1e6, 1e7]

/-- The first answer that is not that the requirements exclude each other. -/
def firstCompatible {α β : Type} (f : α → Except Trouble β) : List α → Except Trouble β
  | [] => .error .incompatible
  | x :: xs =>
    match f x with
    | .error .incompatible => firstCompatible f xs
    | r => r

/-- The best step from a point, relaxed if no step meets all requirements, and kept between the
bounds. -/
def Target.direction (t : Target) (form : Factors) (x gradient values : List Float) :
    Except Trouble Direction := do
  let relaxed := firstCompatible (t.relaxedDirection form x gradient values) prices
  let d ← match t.fullDirection form x gradient values with
    | .error .incompatible => relaxed
    | .error .singularEquations =>
      if t.dimension = (t.requirements.filter Requirement.isEquation).length then relaxed
      else .error .singularEquations
    | r => r
  let room : Target := { t with
    lower := List.zipWith (fun bound x => bound.map (· - x)) t.lower x
    upper := List.zipWith (fun bound x => bound.map (· - x)) t.upper x }
  return { d with step := room.clip d.step }

/-! ## Along the step -/

/-- A point on the way, with its distance and the values of the requirements. -/
structure Trial where
  point : List Float
  step : List Float
  distance : Float
  values : List Float

/-- The distance of a point and its shortfalls, each with its penalty. -/
def Target.merit (t : Target) (penalties : List Float) (distance : Float) (values : List Float) : Float :=
  distance + dot penalties (t.shortfalls values)

/-- Shortens a step until the merit falls by at least a tenth of what its slope promises; at most
`left` times. -/
def Target.shorten (t : Target) (penalties x : List Float) (start : Float) :
    Nat → Float → Float → List Float → Trial
  | left, factor, slope, step =>
    let slope := factor * slope
    let step := step.map (factor * ·)
    let point := t.clip (addScaled 1 step x)
    let trial : Trial := ⟨point, step, t.distance point, t.values point⟩
    let change := t.merit penalties trial.distance trial.values - start
    match left with
    | 0 => trial
    | left + 1 =>
      if change ≤ slope / 10 then trial
      else
        let factor := slope / (2 * (slope - change))
        t.shorten penalties x start left (if 0.1 < factor then factor else 0.1) slope step

/-- The model after a step along which the gradient of the merit changed by `change`. A change
against the step is mixed with what the model expected; no change leaves no model. -/
def improvedForm (form : Factors) (step change : List Float) : Option Factors :=
  let expected := form.apply step
  let bend := dot step change
  let expectedBend := dot step expected
  let least := 0.2 * expectedBend
  let (bend, change) :=
    if bend < least then
      let part := (expectedBend - least) / (expectedBend - bend)
      (least, addScaled (1 - part) expected (change.map (part * ·)))
    else (bend, change)
  if bend == 0 || expectedBend == 0 then none
  else some ((form.add (1 / bend) change).add (-1 / expectedBend) expected)

/-! ## The search -/

/-- The accuracy that the search stops at. -/
def precision : Float := 1e-6

/-- Between two rounds: the point, the model, the penalties of the requirements, and how often the
model may start afresh. -/
structure State where
  point : List Float
  form : Factors
  penalties : List Float
  restarts : Nat

/-- Is a point final, to some accuracy: no shortfall, and either the distance or the point hardly
changed? -/
def Target.isFinal (t : Target) (accuracy : Float) (before : Float) (d : Direction) (trial : Trial) : Bool :=
  (decide ((trial.distance - before).abs < accuracy) || decide (length trial.step < accuracy))
    && decide (total (t.shortfalls trial.values) < accuracy)
    && !d.isRelaxed && !trial.distance.isNaN

/-- Searches for at most `rounds` rounds. -/
def Target.search (t : Target) : Nat → State → Except Failure (List Float)
  | 0, _ => .error .roundLimit
  | rounds + 1, s =>
    let x := s.point
    let gradient := t.offsets x
    let distance := t.distance x
    let values := t.values x
    match t.direction s.form x gradient values with
    | .error trouble => .error (.trouble trouble)
    | .ok d =>
      let restart (penalties : List Float) (trial : Trial) : Except Failure (List Float) :=
        match s.restarts with
        | 0 =>
          if t.isFinal (10 * precision) distance d trial then .ok trial.point
          else .error .noDescent
        | restarts + 1 => t.search rounds ⟨trial.point, .identity t.dimension, penalties, restarts⟩
      let sizes := d.weights.map Float.abs
      let slope := dot gradient d.step
      let shortfalls := t.shortfalls values
      if slope.abs + dot sizes (values.map Float.abs) < precision ∧ total shortfalls < precision
          ∧ ¬ d.isRelaxed ∧ ¬ distance.isNaN then .ok x
      else
        let penalties := List.zipWith (fun old new =>
          let mean := (old + new) / 2
          if new < mean then mean else new) s.penalties sizes
        let merit := dot penalties shortfalls
        let slope' := slope - merit * d.share
        if 0 ≤ slope' then restart penalties ⟨x, d.step, distance, values⟩
        else
          let trial := t.shorten penalties x (distance + merit) 10 1 slope' d.step
          if t.isFinal precision distance d trial then .ok trial.point
          else
            let pull := t.combined d.weights
            let lagged (x : List Float) : List Float := List.zipWith (· - ·) (t.offsets x) pull
            let change := List.zipWith (· - ·) (lagged trial.point) (lagged x)
            match improvedForm s.form trial.step change with
            | none => restart penalties trial
            | some form => t.search rounds { s with point := trial.point, form, penalties }

/-- The number of rounds of a search. -/
def roundLimit : Nat := 200

/-! ## Queries -/

/-- The requirements of a system, rows that have to be equal to their right-hand sides or at most
them. -/
def systemRequirements (isEquation : Bool) (n : Nat) (s : LinearSystem Float) :
    Except Fault (List Requirement) :=
  if s.rhs.isEmpty then .ok []
  else if s.rows.any fun row => row.length != n then .error lengthMismatch
  else entrywise (fun row b =>
    if isEquation then ⟨true, row, -b⟩ else ⟨false, row.map (- ·), b⟩) s.rows s.rhs

/-- The target of a query; bounds that are not finite are none. -/
def Target.ofQuery (n : Nat) (q : NearestQuery Float) : Except Fault Target := do
  let equations ← systemRequirements true n q.equalities
  let inequalities ← systemRequirements false n q.inequalities
  let finite (x : Float) : Option Float := if x.isFinite then some x else none
  let pairs ← spread n (q.bounds.lower.zip q.bounds.upper)
  return {
    centre := ← spread n q.start
    requirements := equations ++ inequalities
    lower := pairs.map fun (lo, _) => finite lo
    upper := pairs.map fun (_, hi) => finite hi }

end NearestPoint

/-- The search for the nearest point in double precision. -/
def nearestPoint : NearestSearch Float := fun q => do
  let start ← q.bounds.clip q.start
  let t ← NearestPoint.Target.ofQuery start.length q
  match t.search NearestPoint.roundLimit
    ⟨start, .identity t.dimension, t.requirements.map fun _ => 0, 4⟩ with
  | .ok x => return .point x
  | .error failure => return .failure failure.reason

end Presolve
