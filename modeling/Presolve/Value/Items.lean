import Presolve.Value.Basic

/-!
# The items of a value

What a value consists of when it is walked through: the items of a list, the characters of a text,
the keys of a dictionary, the rows of an array.
-/

namespace Presolve

variable {α : Type}

namespace Tensor

variable {ε : Type}

/-- The rows of an array: its parts along the first dimension. -/
def rows (t : Tensor ε) : List (Tensor ε) :=
  match t.shape with
  | [] => []
  | extent :: shape =>
    (split (volume shape) extent t.entries).filterMap fun row => (vector row).reshape? shape

end Tensor

namespace Value

/-- The items of a value; none if it cannot be walked through. -/
def items? : Value α → Option (List (Value α))
  | list items => some items
  | tuple items => some items
  | text s | entry _ (.text s) => some (s.singles.map text)
  | bytes bs | entry _ (.bytes bs) => some (bs.map fun b => int b.toNat)
  | mapping entries => some (entries.map (·.1))
  | array grid =>
    match grid.cells.shape with
    | [] => none
    | [_] => some (grid.cells.entries.map (entry grid.type))
    | _ => some (grid.cells.rows.map fun row => array ⟨grid.type, row⟩)
  | objects shape items =>
    match shape with
    | [] => none
    | [_] => some items
    | extent :: shape => some ((Tensor.split (volume shape) extent items).map (objects shape))
  | _ => none

end Value
end Presolve
