import Presolve.Text.Basic

/-!
# JSON data

Integers and reals are kept apart, since they are written differently. The type of the
reals is a parameter: the program uses doubles, and what holds of texts holds for any
numbers with a text that reads back.

The fields of an object are a list in the order they were given. `object` and `sorted` build
the two forms that matter: one field for each key, and fields in the order of their keys.
-/

namespace Presolve

inductive Json (ν : Type) where
  | null
  | bool (b : Bool)
  | int (i : Int)
  | real (x : ν)
  | text (s : Text)
  | array (items : List (Json ν))
  | object (fields : List (Text × Json ν))

namespace Json

variable {ν : Type}

instance : Inhabited (Json ν) := ⟨null⟩

/-- Writes a field: a key that is there already keeps its place and takes the new value. -/
def setField (key : Text) (value : Json ν) : List (Text × Json ν) → List (Text × Json ν)
  | [] => [(key, value)]
  | (k, v) :: rest => if k = key then (key, value) :: rest else (k, v) :: setField key value rest

/-- The object in which every field is written in turn, so that the last value of a key wins. -/
def ofFields (fields : List (Text × Json ν)) : Json ν :=
  object (fields.foldl (fun acc field => setField field.1 field.2 acc) [])

/-- The value of a field of an object. -/
def field? (key : Text) : Json ν → Option (Json ν)
  | object fields => (fields.find? fun field => field.1 == key).map (·.2)
  | _ => none

/-! ## Key order -/

mutual

/-- The same data with the fields of every object in the order of their keys. -/
def sorted : Json ν → Json ν
  | array items => array (sortedItems items)
  | object fields => object ((sortedFields fields).mergeSort fun a b => decide (a.1 ≤ b.1))
  | value => value

def sortedItems : List (Json ν) → List (Json ν)
  | [] => []
  | item :: rest => item.sorted :: sortedItems rest

def sortedFields : List (Text × Json ν) → List (Text × Json ν)
  | [] => []
  | (key, value) :: rest => (key, value.sorted) :: sortedFields rest

end

end Json
end Presolve
