import Presolve.Value.Reals

/-!
# What a value is good for

Scalars, flags, vectors and matrices among arbitrary values, and their conversion to numbers.

* Nothing, an empty text and an array without entries are the empty vector and the empty matrix,
  and no scalar.
* A flag is no number; a number that is zero or one is a flag.
* Complex numbers are refused everywhere.
* A vector that stands for a matrix is one row.
-/

namespace Presolve.Value

variable {α : Type}

/-- Nothing, or an array without entries. -/
def isEmpty (v : Value α) : Bool :=
  match v, v.text?, v.bytes? with
  | absent, _, _ => true
  | _, some s, _ => s.isEmpty
  | _, _, some bs => bs.isEmpty
  | v, _, _ =>
    match v.nest? with
    | some nest => nest.type != .object && nest.size == 0
    | none => false

/-! ## Scalars -/

/-- The entry of an array with a single one, in at most two dimensions. -/
def onlyCell? (grid : Grid α) : Option (Cell α) :=
  match grid.cells.entries with
  | [cell] => if grid.cells.rank ≤ 2 then some cell else none
  | _ => none

/-- The number that a value is, as it was given. A flag is no number. -/
def scalarCell? (v : Value α) : Option (Cell α) :=
  match v with
  | int i => some (.int i)
  | real x => some (.real x)
  | entry type cell => if type.isReal then some cell else none
  | array grid => if grid.type.isReal then onlyCell? grid else none
  | _ => none

/-- Is the value a single real number, finite or not? -/
def isRealScalar (v : Value α) : Bool := v.scalarCell?.isSome

variable [Scalar α] [Interchange α]

/-- The real number that a value is; none if it is not one, a fault if it is out of range. -/
def realScalar? (v : Value α) : Except Fault (Option α) :=
  match v.scalarCell? with
  | none => .ok none
  | some cell => cell.toReal.map some

/-- The integer that a value is: of a real number, one that is finite and without a fractional
part. -/
def integerScalar? (v : Value α) : Except Fault (Option Int) :=
  v.realScalar?.map fun x? => x?.bind Scalar.toInt?

def isIntegerScalar (v : Value α) : Except Fault Bool :=
  v.integerScalar?.map Option.isSome

/-- The flag that a value is: a Boolean, or the number zero or one. -/
def flag? (v : Value α) : Except Fault (Option Bool) :=
  let ofNumber : Except Fault (Option Bool) := v.realScalar?.map fun x? =>
    x?.bind fun x =>
      if Scalar.same x 0 then some false else if Scalar.same x 1 then some true else none
  match v with
  | bool b | entry .bool (.bool b) => .ok (some b)
  | array grid =>
    match grid.type, grid.cells.entries with
    | .bool, [.bool b] => .ok (some b)
    | _, _ => ofNumber
  | _ => ofNumber

def isFlag (v : Value α) : Except Fault Bool :=
  v.flag?.map Option.isSome

/-! ## Vectors and matrices -/

omit [Scalar α] [Interchange α] in
/-- The array of real numbers that a value is; texts and flags are none. -/
def realNest? (v : Value α) : Option (Nest α) := v.nest?.filter fun nest => nest.type.isReal

omit [Scalar α] [Interchange α] in
/-- The length of a vector: one row, one column, one dimension or a single number. -/
def vectorLength? (v : Value α) : Option Nat :=
  if v.isEmpty then some 0
  else v.realNest?.bind fun nest =>
    match nest.shape with
    | [] | [_] => some nest.size
    | [rows, cols] => if min rows cols = 1 then some nest.size else none
    | _ => none

omit [Scalar α] [Interchange α] in
/-- The length of a column: one dimension, a single number, or a matrix with one column. -/
def columnLength? (v : Value α) : Option Nat :=
  if v.isEmpty then some 0
  else v.realNest?.bind fun nest =>
    match nest.shape with
    | [] | [_] => some nest.size
    | [rows, cols] => if cols = 1 then some rows else none
    | _ => none

omit [Scalar α] [Interchange α] in
/-- The numbers of rows and columns of a matrix; a vector is one row. -/
def matrixShape? (v : Value α) : Option (Nat × Nat) :=
  if v.isEmpty then some (0, 0)
  else v.realNest?.bind fun nest =>
    match nest.shape with
    | [] => some (1, 1)
    | [cols] => some (1, cols)
    | [rows, cols] => some (rows, cols)
    | _ => none

/-- The entries of a vector as numbers. -/
def toVector (v : Value α) : Except Fault (List α) :=
  if v.isEmpty then .ok [] else v.flatReals

/-- The rows of a matrix as numbers. -/
def toMatrix (v : Value α) : Except Fault (List (List α)) :=
  if v.isEmpty then .ok []
  else v.toReals.map fun (shape, entries) =>
    match shape with
    | [rows, cols] => Tensor.split cols rows entries
    | _ => [entries]

end Presolve.Value
