import Presolve.Decimal.Reader
import Presolve.Value.Nest

/-!
# Values as real numbers

`toReals` converts the leaves of a value to numbers, which is more than their types promise: texts that
are numerals are read, an absent value is an undefined number, and of a complex entry of an array the
real part is taken. A complex number by itself is no real number.
-/

namespace Presolve

variable {α : Type} [Scalar α] [Interchange α]

/-- The number that an integer is converted to. -/
def realOfInt (i : Int) : Except Fault α :=
  match Scalar.ofInt? i with
  | some x => .ok x
  | none => .error .overflow

/-- The number that a text stands for. -/
def realOfText (s : Text) : Except Fault α :=
  match s.string?.bind Numeral.read? with
  | some x => .ok (Interchange.ofDouble x)
  | none => .error (.badValue ("could not convert string to float: " ++ Text.quoted s))

/-- The number that bytes stand for, which are characters of ASCII. -/
def realOfBytes (bs : List UInt8) : Except Fault α :=
  if bs.all (· < 128) then realOfText (String.ofList (bs.map fun b => Char.ofNat b.toNat))
  else .error (.badValue ("could not convert string to float: " ++ Text.quotedBytes bs))

/-- An entry as a number. -/
def Cell.toReal : Cell α → Except Fault α
  | .bool b => .ok (if b then 1 else 0)
  | .int i => realOfInt i
  | .real x => .ok x
  | .complex re _ => .ok re
  | .text s => realOfText s
  | .bytes bs => realOfBytes bs
  | .absent => .ok Scalar.undefined
  | .opaqueItem => .error .wrongType

namespace Value

/-- A leaf as a number. A sequence that is a leaf of an array of arbitrary values is none, except for an
array with a single entry. -/
def toReal (v : Value α) : Except Fault α :=
  match v with
  | entry _ cell => cell.toReal
  | complex _ _ => .error .wrongType
  | list _ | tuple _ | objects _ _ => .error .sequenceForNumber
  | array grid =>
    match grid.cells.entries with
    | [.complex _ _] => .error .sequenceForNumber
    | [cell] => cell.toReal
    | _ => .error .sequenceForNumber
  | v => v.toCell.toReal

/-- A value as an array of numbers: the extents of the dimensions and the entries. -/
def toReals (v : Value α) : Except Fault (List Nat × List α) :=
  match v.nest? with
  | none => .error .raggedNesting
  | some nest => (nest.leaves.entries.mapM toReal).map fun xs => (nest.shape, xs)

/-- A value as a vector of numbers, whatever the dimensions of its array. -/
def flatReals (v : Value α) : Except Fault (List α) := v.toReals.map (·.2)

end Value
end Presolve
