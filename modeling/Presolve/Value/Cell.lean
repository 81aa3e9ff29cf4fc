import Presolve.Text.Basic

/-!
# Entries of arrays and their types

All entries of an array are of one type. Where values of several types meet in an array, the entries
are taken for a type that is wide enough for all of them: `CellType.join`.
-/

namespace Presolve

/-- An entry of an array, or a single number or text of one of the types of entries. -/
inductive Cell (α : Type) where
  | bool (b : Bool)
  | int (i : Int)
  | real (x : α)
  | complex (re im : α)
  | text (s : Text)
  | bytes (bs : List UInt8)
  | absent
  /-- Something that is no number. -/
  | opaqueItem

/-- The types of entries: truth values, integers of eight bits, integers and natural numbers of 64
bits, reals in single and in double precision, complex numbers, bytes, texts, and arbitrary
values. -/
inductive CellType where
  | bool
  | byte
  | int
  | nat
  | single
  | real
  | complex
  | bytes
  | text
  | object
deriving DecidableEq, Repr

namespace CellType

def name : CellType → String
  | bool => "bool"
  | byte => "uint8"
  | int => "int64"
  | nat => "uint64"
  | single => "float32"
  | real => "float64"
  | complex => "complex128"
  | bytes => "bytes_"
  | text => "str_"
  | object => "object"

/-- How much a type can hold. None of the three types of the same width holds all of another. -/
def width : CellType → Nat
  | bool => 0
  | byte => 1
  | int | nat | single => 2
  | real => 3
  | complex => 4
  | bytes => 5
  | text => 6
  | object => 7

/-- The narrowest type that is taken for values of both types: the wider one, and reals for two
different types of one width. -/
def join (a b : CellType) : CellType :=
  if a = b then a
  else if a.width < b.width then b
  else if b.width < a.width then a
  else real

/-- It does not matter which of two types comes first. -/
theorem join_comm (a b : CellType) : join a b = join b a := by
  cases a <;> cases b <;> decide

/-- Integers and reals. -/
def isReal (t : CellType) : Bool :=
  match t with
  | byte | int | nat | single | real => true
  | _ => false

/-- Integers, reals and complex numbers. -/
def isNumeric (t : CellType) : Bool := t.isReal || t == complex

/-- The type of an integer: one outside the words of 64 bits is an arbitrary value. -/
def ofInt (i : Int) : CellType :=
  if -0x8000000000000000 ≤ i ∧ i < 0x8000000000000000 then int
  else if 0 ≤ i ∧ i < 0x10000000000000000 then nat
  else object

end CellType
end Presolve
