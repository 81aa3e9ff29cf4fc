import Presolve.Value.Items
import Presolve.Number.Scalar

/-!
# Values as conditions

What counts as nothing does not hold: an absent value, zero, and a text, list, tuple or dictionary
without items. An array is a condition only if it has a single entry.
-/

namespace Presolve

variable {α : Type} [Scalar α]

/-- Does an entry of an array hold when it is taken for a condition? -/
def Cell.holds : Cell α → Bool
  | .bool b => b
  | .int i => i != 0
  | .real x => !Scalar.same x 0
  | .complex re im => !(Scalar.same re 0 && Scalar.same im 0)
  | .text s => !s.isEmpty
  | .bytes bs => !bs.isEmpty
  | .absent => false
  | .opaqueItem => true

namespace Value

/-- Does a value that is no array hold when it is taken for a condition? -/
def holdsAlone : Value α → Bool
  | list items => !items.isEmpty
  | tuple items => !items.isEmpty
  | mapping entries => !entries.isEmpty
  | v => v.toCell.holds

/-- Does a value hold when it is taken for a condition? -/
def holds : Value α → Except Fault Bool
  | array grid =>
    match grid.cells.entries with
    | [cell] => .ok cell.holds
    | _ => .error (.badValue "an array with a single entry expected")
  | objects _ items =>
    match items with
    | [item] => .ok item.holdsAlone
    | _ => .error (.badValue "an array with a single entry expected")
  | v => .ok v.holdsAlone

end Value
end Presolve
