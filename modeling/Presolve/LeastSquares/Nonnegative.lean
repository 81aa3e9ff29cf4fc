import Presolve.LeastSquares.Triangle

/-!
# Nonnegative least squares

Which combination of some columns with nonnegative weights comes nearest to a target? An active
set is kept: the columns inside have positive weights that are optimal for them. The column outside
with the greatest inner product with what is left of the target enters; then the weights move
towards the new optimum, and a column whose weight falls to zero leaves, until all are positive.

Each move solves one least squares problem. What is left of the target gets shorter with every
column that enters, so no active set comes back and the moves end; their number is bounded all the
same, since rounding may keep them going.
-/

namespace Presolve.LeastSquares

/-- Why a constrained least squares problem has no answer. -/
inductive Trouble where
  | moreEquationsThanUnknowns
  | tooManyMoves
  | incompatible
  | singularObjective
  | singularEquations
  | rankDeficient
deriving DecidableEq, Repr

namespace Nonnegative

/-- A column, its place among the columns given, and its weight. -/
structure Term where
  place : Nat
  column : List Float
  weight : Float

/-- The columns inside the active set in the order in which they entered, and those outside in the
order in which they are tried. -/
structure ActiveSet where
  inside : List Term
  outside : List Term

/-- The columns inside, reduced to a triangle. -/
def ActiveSet.reduction (s : ActiveSet) : Reduction :=
  Reduction.ofColumns (s.inside.map Term.column)

/-- How much of what is left of a target lies in the direction of a column; none if the column
would not enter with a positive weight, or depends on the columns inside as far as rounding lets
one tell. -/
def gain? (q : Reduction) (rest column : List Float) : Option Float :=
  let r := Reflection.ofVector (q.outside column)
  let known := length (q.inside column)
  let gain := dot (q.outside column) rest
  if 0 < gain ∧ known < known + 0.01 * r.lead.abs ∧ 0 < (r.apply rest).headD 0 / r.lead then some gain
  else none

/-- The place of the greatest gain in a list, the first of equal ones. -/
def best? (gains : List (Option Float)) : Option Nat :=
  (gains.zipIdx.foldl (fun best (gain, i) =>
    match gain, best with
    | some g, some (b, _) => if b < g then some (g, i) else best
    | some g, none => some (g, i)
    | none, _ => best) none).map Prod.snd

/-- Takes an entry out of a list and puts the first one in its place. -/
def takeOut {α : Type} (i : Nat) : List α → List α
  | [] => []
  | x :: rest => if i = 0 then rest else rest.set (i - 1) x

/-- Lets the most promising column enter, if there is one. -/
def ActiveSet.enter? (target : List Float) (s : ActiveSet) : Option ActiveSet := do
  let q := s.reduction
  let rest := q.outside target
  if rest.isEmpty then none
  let i ← best? (s.outside.map fun term => gain? q rest term.column)
  let term ← s.outside[i]?
  some ⟨s.inside ++ [term], takeOut i s.outside⟩

/-- How far the weights can move towards an optimum, at most all the way, and the place of the
column that stops them, the last of several. -/
def reach (weights optimum : List Float) : Float × Option Nat :=
  (weights.zip optimum).zipIdx.foldl (fun (step, stop) ((w, z), i) =>
    if 0 < z then (step, stop)
    else
      let t := -w / (z - w)
      if step < t then (step, stop) else (t, some i)) (1, none)

/-- Moves the weights towards the optimum of the columns inside. The columns whose weights stop the
move or fall to zero leave; the answer also says whether there were any. -/
def ActiveSet.move (target : List Float) (s : ActiveSet) : ActiveSet × Bool :=
  let q := s.reduction
  let optimum := q.triangle.solve (q.inside target)
  let (step, stop) := reach (s.inside.map Term.weight) optimum
  let moved := List.zipWith (fun term z => { term with weight := (1 - step) * term.weight + step * z })
    s.inside optimum
  match stop with
  | none => ({ s with inside := moved }, false)
  | some i =>
    let stopped := (moved[i]?.toList).map fun term => { term with weight := 0 }
    let others := moved.eraseIdx i
    let left := stopped ++ others.filter fun term => decide (term.weight ≤ 0)
    ({ inside := others.filter fun term => !decide (term.weight ≤ 0)
       outside := (left.map fun term => { term with weight := 0 }).reverse ++ s.outside }, true)

/-- Moves and lets columns enter until no column is left to enter; at most `fuel` moves. -/
def settle (target : List Float) : Nat → ActiveSet → Except Trouble ActiveSet
  | 0, _ => .error .tooManyMoves
  | fuel + 1, s =>
    match s.move target with
    | (s, true) => if s.inside.isEmpty then .error .tooManyMoves else settle target fuel s
    | (s, false) =>
      match s.enter? target with
      | none => .ok s
      | some s => settle target fuel s

end Nonnegative

/-- The nonnegative weights of the columns whose combination is nearest to a target, and the
distance that is left. -/
def nonnegative (columns : List (List Float)) (target : List Float) :
    Except Trouble (List Float × Float) := do
  let start : Nonnegative.ActiveSet := ⟨[], columns.zipIdx.map fun (column, i) => ⟨i, column, 0⟩⟩
  let s ← match start.enter? target with
    | none => pure start
    | some s => Nonnegative.settle target (3 * columns.length) s
  let weight (i : Nat) : Float :=
    ((s.inside.find? fun term => term.place == i).map Nonnegative.Term.weight).getD 0
  return ((List.range columns.length).map weight, length (s.reduction.outside target))

end Presolve.LeastSquares
