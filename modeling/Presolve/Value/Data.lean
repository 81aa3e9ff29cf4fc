import Presolve.Value.Items
import Presolve.Value.Text
import Presolve.Json.Text

/-!
# Values as data

The JSON data of a value. Infinite and undefined numbers are texts, arrays are nested lists, and the
keys of a dictionary are its keys as texts. What JSON has no form for is written as its text. There are no
data where such a text does not exist.
-/

namespace Presolve

variable {α : Type} [Scalar α] [Interchange α]

namespace Json

/-- A number in data: JSON knows finite numbers only. -/
def ofNumber (x : α) : Json α :=
  if Scalar.isUndefined x then text "nan"
  else if Scalar.isFinite x then real x
  else if 0 < x then text "inf"
  else text "-inf"

omit [Scalar α] [Interchange α] in
/-- Items in nested lists, by the extents of the dimensions. -/
def nest : List Nat → List (Json α) → Json α
  | [], items => items.headD null
  | extent :: shape, items => array ((Tensor.split (volume shape) extent items).map (nest shape))

/-- A vector in data. -/
def ofVector (xs : List α) : Json α := array (xs.map ofNumber)

/-- A matrix in data, row by row. -/
def ofMatrix (rows : List (List α)) : Json α := array (rows.map ofVector)

omit [Scalar α] [Interchange α] in
/-- Flags in data. -/
def ofFlags (flags : List Bool) : Json α := array (flags.map bool)

/-- A value that may be missing. -/
def ofOption {β : Type} (f : β → Json α) : Option β → Json α
  | some x => f x
  | none => null

end Json

/-- An entry in data; something that is no number has no form of its own. -/
def Cell.toJson : Cell α → Json α
  | .bool b => .bool b
  | .int i => .int i
  | .real x => .ofNumber x
  | .complex re im => .text (complexText re im)
  | .text s => .text s
  | .bytes bs => .text (Text.quotedBytes bs)
  | .absent | .opaqueItem => .null

namespace Value

/-- The entries of an array in data. An array without dimensions has items only if its one entry
can be walked through. -/
def gridJson (grid : Grid α) : Except Fault (Json α) :=
  match grid.cells.shape, grid.cells.entries with
  | [], [.text s] => .ok (.array (s.singles.map .text))
  | [], [.bytes bs] => .ok (.array (bs.map fun b => .int b.toNat))
  | [], _ => .error .wrongType
  | shape, entries => .ok (.nest shape (entries.map Cell.toJson))

mutual

/-- A value in data. -/
def toJson : Value α → Except Fault (Json α)
  | absent => .ok .null
  | bool b => .ok (.bool b)
  | int i => .ok (.int i)
  | real x => .ok (.ofNumber x)
  | complex re im => .ok (.text (complexText re im))
  | text s => .ok (.text s)
  | bytes bs => .ok (.text (Text.quotedBytes bs))
  | list items => (itemsJson items).map .array
  | tuple items => (itemsJson items).map .array
  | mapping entries => (entriesJson entries).map .ofFields
  | entry _ cell => .ok cell.toJson
  | array grid => gridJson grid
  | objects [] [item] => item.walkJson
  | objects shape items => (itemsJson items).map (.nest shape)
  | kind k => .ok (.text k.name)
  | solver s => .ok (.text s.name)
  | invoker i => .ok (.text i.name)
  | options fields => (toLiteral (options fields)).map fun (s : String) => .text s
  | function view parts? call => (toLiteral (function view parts? call)).map fun (s : String) => .text s

/-- The items of a value in data; an array is walked through row by row. -/
def walkJson : Value α → Except Fault (Json α)
  | list items => (itemsJson items).map .array
  | tuple items => (itemsJson items).map .array
  | text s | entry _ (.text s) => .ok (.array (s.singles.map .text))
  | bytes bs | entry _ (.bytes bs) => .ok (.array (bs.map fun b => .int b.toNat))
  | mapping entries => (keysJson entries).map .array
  | array ⟨_, ⟨extent :: shape, entries, _⟩⟩ => .ok (.nest (extent :: shape) (entries.map Cell.toJson))
  | objects (extent :: shape) items => (itemsJson items).map (.nest (extent :: shape))
  | _ => .error .wrongType

def itemsJson : List (Value α) → Except Fault (List (Json α))
  | [] => .ok []
  | item :: rest => do return (← item.toJson) :: (← itemsJson rest)

def keysJson : List (Value α × Value α) → Except Fault (List (Json α))
  | [] => .ok []
  | (key, _) :: rest => do return (← key.toJson) :: (← keysJson rest)

def entriesJson : List (Value α × Value α) → Except Fault (List (Text × Json α))
  | [] => .ok []
  | (key, value) :: rest => do return (← key.toText, ← value.toJson) :: (← entriesJson rest)

end

end Value
end Presolve
