import Presolve.Linear.Entrywise
import Presolve.Value.Items
import Presolve.Value.Reals

/-!
# Sample functions

A few objectives and constraints that go by names, so that a problem can be written as plain data.
An objective may be moved to a center.

* `sphere`: the sum of the squares.
* `rosenbrock`: the sum of `100 (x' - x²)² + (1 - x)²` over neighbours `x`, `x'`.
* `rastrigin`: `10` for each variable, and the sum of `x² - 10 cos (2 π x)`.
* `unit_ball`, `unit_sphere`: the square of the norm is at most one, or one.
-/

namespace Presolve.Sample

/-! ## Objectives -/

inductive Shape where
  | sphere
  | rosenbrock
  | rastrigin
deriving DecidableEq, Repr

namespace Shape

def name : Shape → String
  | sphere => "sphere"
  | rosenbrock => "rosenbrock"
  | rastrigin => "rastrigin"

/-- All shapes in the order of their names. -/
def all : List Shape := [rastrigin, rosenbrock, sphere]

def ofName? (name : String) : Option Shape := all.find? fun shape => shape.name == name

def sum (xs : List Float) : Float := xs.foldl (· + ·) 0

def square (x : Float) : Float := x * x

/-- The terms of neighbours. -/
def neighbours : List Float → List Float
  | x :: y :: rest => (100 * square (y - square x) + square (1 - x)) :: neighbours (y :: rest)
  | _ => []

/-- The double nearest to `2 π`. -/
def fullTurn : Float := 6.283185307179586

def value (z : List Float) : Shape → Float
  | sphere => sum (z.map square)
  | rosenbrock => sum (neighbours z)
  | rastrigin =>
    10 * z.length.toFloat + sum (z.map fun x => square x - 10 * Float.cos (fullTurn * x))

end Shape

/-- A shape, moved to a center if there is one. -/
structure Objective where
  shape : Shape
  center : Option (List Float)

namespace Objective

/-- The value at a point, of which a single coordinate goes with all of the center. -/
def evaluate (o : Objective) (x : List Float) : Except Fault Float :=
  match o.center with
  | none => .ok (o.shape.value x)
  | some center => (entrywise (· - ·) x center).map (Shape.value · o.shape)

/-- The objective as a record with a name and a center. -/
def toValue (o : Objective) : Value Float :=
  let center := o.center.elim .absent fun c => .tuple (c.map Value.real)
  .function ⟨"ToyObjective", none⟩ (some [("name", .text o.shape.name), ("center", center)])
    fun x => (o.evaluate x).map .real

/-- A coordinate of a center: one number, perhaps as the single entry of an array. -/
def coordinate (v : Value Float) : Except Fault Float :=
  match v with
  | .entry _ cell => cell.toReal
  | .array grid =>
    match grid.cells.entries with
    | [.complex _ _] => .error .wrongType
    | [cell] => cell.toReal
    | _ => .error .wrongType
  | .objects _ [item] => alone item
  | v => alone v
where
  alone (v : Value Float) : Except Fault Float :=
    match v.toCell with
    | .complex _ _ | .absent => .error .wrongType
    | cell => cell.toReal

/-- The items of a center as coordinates. -/
def readCenter (center : Value Float) : Except Fault (List Float) :=
  match center.items? with
  | none => .error .wrongType
  | some items => items.mapM coordinate

/-- The shape of a name. -/
def readShape (name : Value Float) : Except Fault Shape :=
  match name with
  | .list _ | .mapping _ | .array _ | .objects _ _ => .error .wrongType
  | name =>
    match name.name?.bind Shape.ofName? with
    | some shape => .ok shape
    | none =>
      name.toText >>= fun text => .error (.missingKey ("unknown objective '" ++ text ++ "'; available: "
        ++ ", ".intercalate (Shape.all.map Shape.name)))

/-- The objective that a value describes: a name, or a dictionary with a name and perhaps a center.
An absent value describes none. -/
def ofSpec? (spec : Value Float) : Except Fault (Option Objective) := do
  if spec.text?.isSome then return some ⟨← readShape spec, none⟩
  match spec with
  | .absent => return none
  | .mapping entries =>
    match Value.lookup? "name" entries with
    | none => throw (.missingKey "name")
    | some name =>
      let shape ← readShape name
      match (Value.lookup? "center" entries).getD .absent with
      | .absent => return some ⟨shape, none⟩
      | center => return some ⟨shape, some (← readCenter center)⟩
  | .array _ | .objects _ _ => throw .badIndex
  | .entry _ _ => throw (if spec.bytes?.isSome then .wrongType else .badIndex)
  | _ => throw .wrongType

end Objective

/-! ## Constraints -/

inductive Constraint where
  | unitBall
  | unitSphere
deriving DecidableEq, Repr

namespace Constraint

def name : Constraint → String
  | unitBall => "unit_ball"
  | unitSphere => "unit_sphere"

/-- All constraints in the order of their names. -/
def all : List Constraint := [unitBall, unitSphere]

/-- The values of the inequalities and of the equalities at a point. -/
def evaluate (x : List Float) (c : Constraint) : List Float × List Float :=
  let excess := Shape.sphere.value x - 1
  match c with
  | unitBall => ([excess], [])
  | unitSphere => ([], [excess])

def toValue (c : Constraint) : Value Float :=
  .function ⟨"function", some c.name⟩ none fun x =>
    let (ineq, eq) := c.evaluate x
    .ok (.tuple [.ofList ineq, .ofList eq])

/-- The constraint that a value names. An absent value names none. -/
def ofName? (name : Value Float) : Except Fault (Option Constraint) :=
  match name with
  | .absent => .ok none
  | .list _ | .mapping _ | .array _ | .objects _ _ => .error .wrongType
  | name =>
    match name.name?.bind fun s => all.find? fun c => c.name == s with
    | some c => .ok (some c)
    | none =>
      name.toText >>= fun text => .error (.missingKey ("unknown constraint '" ++ text ++ "'; available: "
        ++ ", ".intercalate (all.map Constraint.name)))

end Constraint
end Presolve.Sample
