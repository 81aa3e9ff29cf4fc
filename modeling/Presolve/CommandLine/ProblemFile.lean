import Presolve.Json.Reader
import Presolve.Sample.Functions
import Presolve.Text.Lines

/-!
# Problem files

A problem as a JSON object. The objective and the constraint function are given by the names of sample
functions; in the other fields the texts `inf`, `-inf` and `nan`, at any depth, stand for the numbers
that JSON has no form for. Options and solver are taken as they are.
-/

namespace Presolve.CommandLine

/-! ## Values from JSON -/

/-- The number that a text stands for. -/
def number? (text : Text) : Option Float :=
  match text.string? with
  | some "inf" => some (1 / 0)
  | some "-inf" => some (-1 / 0)
  | some "nan" => some (0 / 0)
  | _ => none

mutual

/-- The value of JSON data, given what texts stand for. -/
def valueOfJson (text : Text → Value Float) : Json Float → Value Float
  | .null => .absent
  | .bool b => .bool b
  | .int i => .int i
  | .real x => .real x
  | .text s => text s
  | .array items => .list (valuesOfJson text items)
  | .object fields => .mapping (entriesOfJson text fields)

def valuesOfJson (text : Text → Value Float) : List (Json Float) → List (Value Float)
  | [] => []
  | item :: rest => valueOfJson text item :: valuesOfJson text rest

def entriesOfJson (text : Text → Value Float) :
    List (Text × Json Float) → List (Value Float × Value Float)
  | [] => []
  | (key, item) :: rest => (.text key, valueOfJson text item) :: entriesOfJson text rest

end

/-- Data as they are. -/
def plainValue : Json Float → Value Float := valueOfJson .text

/-- Data in which some texts stand for numbers. -/
def numericValue : Json Float → Value Float :=
  valueOfJson fun s => match number? s with
    | some x => .real x
    | none => .text s

/-! ## Problems -/

/-- A field of a problem file. -/
inductive ProblemField where
  | objective (o : Option Sample.Objective)
  | constraints (c : Option Sample.Constraint)
  | value (v : Value Float)

namespace ProblemField

/-- Reads a field by its key. -/
def read (key : Text) (data : Json Float) : Except Fault ProblemField :=
  match key.string? with
  | some "objective" => (Sample.Objective.ofSpec? (plainValue data)).map .objective
  | some "nonlcon" => (Sample.Constraint.ofName? (plainValue data)).map .constraints
  | some "options" | some "solver" => .ok (.value (plainValue data))
  | _ => .ok (.value (numericValue data))

def toValue : ProblemField → Value Float
  | objective o => o.elim .absent Sample.Objective.toValue
  | constraints c => c.elim .absent Sample.Constraint.toValue
  | value v => v

end ProblemField

/-- A problem as it is read from a file. -/
structure ProblemFile where
  fields : List (Text × ProblemField)

namespace ProblemFile

/-- Reads the text of the file at a path. -/
def read (path text : String) : Except Fault ProblemFile := do
  match Json.parseLenient (String.ofList (Text.unifyLineEnds text.toList)) with
  | .error e => throw (.badValue e.message)
  | .ok (.object fields) =>
    return ⟨← fields.mapM fun (key, data) => return (key, ← ProblemField.read key data)⟩
  | .ok _ => throw (.badValue (path ++ ": expected a JSON object"))

/-- The problem as a dictionary. -/
def toValue (p : ProblemFile) : Value Float :=
  .mapping (p.fields.map fun (key, field) => (.text key, field.toValue))

end ProblemFile
end Presolve.CommandLine
