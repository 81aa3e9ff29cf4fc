import Presolve.Value.Items
import Presolve.Value.Reals
import Presolve.Value.Truth

/-!
# Arrays of a given type

`arrayOf` makes an array of a type from any value, converting its leaves: reals are cut to integers,
integers go round at the ends of their type, numerals are read where numbers are asked for, and
anything has a text. An array of arbitrary values takes lists for dimensions as far as their shapes
agree, and keeps what lies below.
-/

namespace Presolve

variable {α : Type}

/-! ## Arbitrary values -/

/-- The items of a list or an array, which may be one of the rows of an array. -/
def Value.rows? (v : Value α) : Option (List (Value α)) :=
  match v with
  | .list items | .tuple items => some items
  | .array _ | .objects _ _ => v.items?.map (·.map bare)
  | _ => none

/-- The extents of the dimensions that the shapes of values agree on, at most `fuel`, and what lies
below. -/
def commonNesting : Nat → List (Value α) → List Nat × List (Value α)
  | 0, vs => ([], vs)
  | fuel + 1, vs =>
    match vs.mapM Value.rows? with
    | some (first :: rest) =>
      if rest.all fun row => row.length == first.length then
        let (shape, leaves) := commonNesting fuel (first :: rest).flatten
        (first.length :: shape, leaves)
      else ([], vs)
    | _ => ([], vs)

/-! ## Integers -/

variable [Scalar α] [Interchange α]

/-- A number without its fractional part; infinite and undefined ones have none. -/
def truncated (x : Float) : Except Fault Int :=
  match Binary64.toRat? x with
  | some r => .ok (if r < 0 then -((-r).floor) else r.floor)
  | none => .error (if x ≤ x then .overflow else .badValue "no integer")

/-- The words of 64 bits with a sign. -/
def asWord (i : Int) : Except Fault Int := if CellType.ofInt i = .int then .ok i else .error .overflow

/-- An integer as one of a type of integers, going round at the ends of the type. -/
def CellType.wrapped (type : CellType) (i : Int) : Int :=
  match type with
  | .byte => i % 0x100
  | .nat => i % 0x10000000000000000
  | _ => (i + 0x8000000000000000) % 0x10000000000000000 - 0x8000000000000000

/-- An integer of a type of integers from a number or numeral. Only an integer as it is has to be one of
the type; all else goes round at its ends. -/
def Value.toIntegerOf (type : CellType) (leaf : Value α) : Except Fault Int := do
  match leaf, leaf.toCell with
  | .entry _ _, .int i => return type.wrapped i
  | .entry _ _, .real x | .entry _ _, .complex x _ =>
    match truncated (Interchange.toDouble x) >>= asWord with
    | .ok i => return type.wrapped i
    | .error _ => return type.wrapped (-0x8000000000000000)
  | _, .bool b => return type.wrapped (if b then 1 else 0)
  | _, .int i => if type.wrapped i = i then return i else throw .overflow
  | _, .real x => return type.wrapped (← truncated (Interchange.toDouble x) >>= asWord)
  | _, .text s => ofText s
  | _, .bytes bs => ofText (Text.ofString (String.ofList (bs.map fun b => Char.ofNat b.toNat)))
  | _, _ => throw .wrongType
where
  ofText (s : Text) : Except Fault Int := do
    let some i := s.string?.bind Numeral.readInteger? | throw (.badValue "no integer")
    return type.wrapped (← asWord i)

/-! ## Arrays -/

/-- A leaf as an entry of an array of a type. -/
def Value.converted (type : CellType) (leaf : Value α) : Except Fault (Cell α) :=
  match type with
  | .bool => .ok (.bool leaf.holdsAlone)
  | .byte | .int | .nat => (leaf.toIntegerOf type).map .int
  | .single => leaf.toReal.map fun x =>
    .real (Interchange.ofDouble (Binary64.toSingle (Interchange.toDouble x)))
  | .real => leaf.toReal.map .real
  | .complex =>
    match leaf.toCell with
    | .complex re im => .ok (.complex re im)
    | .absent => .ok (.complex Scalar.undefined Scalar.undefined)
    | _ => leaf.toReal.map (.complex · 0)
  | .bytes | .text | .object => leaf.cellOf type

/-- An array of a type made from a value. -/
def Value.arrayOf (type : CellType) (v : Value α) : Except Fault (Value α) := do
  if type = .object then
    let (shape, leaves) := commonNesting Nest.maxRank [.list [v]]
    return .objects shape.tail leaves
  else
    let some nest := v.nest? | throw .raggedNesting
    return .array ⟨type, ← nest.leaves.mapExcept (Value.converted type)⟩

/-- An array in another shape, which must have as many entries. -/
def Value.reshaped (shape : List Nat) (v : Value α) : Except Fault (Value α) :=
  match v with
  | .array grid =>
    match grid.cells.reshape? shape with
    | some cells => .ok (.array ⟨grid.type, cells⟩)
    | none => .error (.badValue "another number of entries expected")
  | .objects _ items =>
    if items.length = volume shape then .ok (.objects shape items)
    else .error (.badValue "another number of entries expected")
  | _ => .error .wrongType

/-- The only item of an array without dimensions. -/
def Value.only (v : Value α) : Value α :=
  match v with
  | .array grid => (grid.cells.entries.head?.map (Value.entry grid.type)).getD .absent
  | .objects _ (item :: _) => item
  | v => v

end Presolve
