import Presolve.Value.Text

/-!
# Values as arrays

Nested lists of one shape are an array. `nest?` reads any value as one: the values that the lists hold in
the end, the leaves, and a type that is wide enough for all of them. Only ragged nesting fails, and
nesting that is too deep. What is neither a sequence nor an array is an array without dimensions.

`toArray` takes the leaves for the type of all of them: numbers for the texts of numbers where there
are texts, and so on.
-/

namespace Presolve

/-- Leaves in nested lists of one shape, and a type for all of them. -/
structure Nest (α : Type) where
  type : CellType
  leaves : Tensor (Value α)

namespace Nest

variable {α : Type}

/-- An array without dimensions. -/
def single (type : CellType) (leaf : Value α) : Nest α := ⟨type, .scalar leaf⟩

def shape (n : Nest α) : List Nat := n.leaves.shape

/-- The number of leaves. -/
def size (n : Nest α) : Nat := n.leaves.size

/-- The most dimensions that an array may have. -/
def maxRank : Nat := 64

/-- Arrays of one shape as the rows of an array; a list of nothing is a vector of reals. -/
def stack? (rows : List (Nest α)) : Option (Nest α) :=
  ((Tensor.stack? (rows.map leaves)).filter fun t => t.rank ≤ maxRank).map fun t =>
    match rows with
    | [] => ⟨.real, t⟩
    | row :: rest => ⟨rest.foldl (fun type r => type.join r.type) row.type, t⟩

end Nest

namespace Value

variable {α : Type}

mutual

/-- A value as an array, unless its nesting is ragged. -/
def nest? : Value α → Option (Nest α)
  | bool b => some (.single .bool (bool b))
  | int i => some (.single (.ofInt i) (int i))
  | real x => some (.single .real (real x))
  | complex re im => some (.single .complex (complex re im))
  | text s => some (.single .text (text s))
  | bytes bs => some (.single .bytes (bytes bs))
  | entry type cell => some (.single type (entry type cell))
  | list items => (nests? items).bind Nest.stack?
  | tuple items => (nests? items).bind Nest.stack?
  | array grid => some ⟨grid.type, grid.cells.map (entry grid.type)⟩
  | objects shape items =>
    ((Tensor.vector items).reshape? shape).map fun leaves => ⟨.object, leaves⟩
  | v => some (.single .object v)

/-- Every value of a list as an array. -/
def nests? : List (Value α) → Option (List (Nest α))
  | [] => some []
  | item :: rest =>
    match item.nest?, nests? rest with
    | some nest, some nests => some (nest :: nests)
    | _, _ => none

end

end Value

/-! ## Taking leaves for a wider type -/

/-- Bytes and texts in arrays end before the zeros at their end. -/
def trimZeros (s : Text) : Text :=
  ⟨(s.codes.reverse.dropWhile (· == .char '\x00')).reverse⟩

section

variable {α : Type} [Scalar α]

/-- An integer or a flag as an integer. -/
def Cell.toInteger : Cell α → Cell α
  | .bool b => .int (if b then 1 else 0)
  | cell => cell

/-- A flag or an integer as a real. -/
def Cell.toRealCell : Cell α → Cell α
  | .bool b => .real (if b then 1 else 0)
  | .int i => .real (Scalar.ofFraction i 1)
  | cell => cell

/-- A flag or a real number as a complex one. -/
def Cell.toComplex (cell : Cell α) : Cell α :=
  match cell.toRealCell with
  | .real x => .complex x 0
  | cell => cell

variable [Interchange α]

/-- A leaf as an entry of an array of a type that is wide enough for it. Bytes are no text if they are
not those of ASCII. -/
def Value.cellOf (type : CellType) (leaf : Value α) : Except Fault (Cell α) :=
  match type with
  | .bool | .object => .ok leaf.toCell
  | .byte | .int | .nat => .ok leaf.toCell.toInteger
  | .single | .real => .ok leaf.toCell.toRealCell
  | .complex => .ok leaf.toCell.toComplex
  | .bytes =>
    match leaf.bytes? with
    | some bs => .ok (.bytes (bs.reverse.dropWhile (· == 0)).reverse)
    | none => do
      match (← leaf.toText).string? with
      | some s => return .bytes s.toUTF8.toList
      | none => throw .unencodable
  | .text =>
    match leaf.bytes? with
    | some bs =>
      if bs.all (· < 128) then .ok (.text (trimZeros (String.ofList (bs.map fun b => Char.ofNat b.toNat))))
      else .error .undecodable
    | none => leaf.toText.map fun t => .text (trimZeros t)

/-- Applies a function that may fail to every entry of an array. -/
def Tensor.mapExcept {ε β : Type} (f : ε → Except Fault β) (t : Tensor ε) : Except Fault (Tensor β) := do
  match (Tensor.vector (← t.entries.mapM f)).reshape? t.shape with
  | some t => return t
  | none => throw (.badValue "")

/-- A value in the form of an array: one whose entries are of one type, or one of arbitrary values. -/
def Value.toArray (v : Value α) : Except Fault (Value α) := do
  let some nest := v.nest? | throw .raggedNesting
  if nest.type = .object then
    return objects nest.shape (nest.leaves.entries.map bare)
  else return array ⟨nest.type, ← nest.leaves.mapExcept (cellOf nest.type)⟩

end

end Presolve
