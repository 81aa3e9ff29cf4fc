import Presolve.Record
import Presolve.Value.Reals
import Presolve.Value.Truth

/-!
# Outlines of records

An outline is a record filled in by hand, field by field, with plain values. It has the same data as
a record. What a plain value cannot be, such as a map between two spaces, is asked for in vain: an
outline without reduction and scaling maps every point to itself.
-/

namespace Presolve

/-- A record of which some fields are given. -/
structure Outline (α : Type) where
  invoker : Value α
  fields : List (String × Value α)

namespace Outline

variable {α : Type}

/-- The fields of a record besides the invoker, and what they hold if they are not given. -/
def defaults : List (String × Value α) :=
  [("facts", .absent), ("infeasible", .bool false), ("nofreex", .bool false),
   ("constrv_fixedx", .absent), ("raw_dim", .int 0), ("raw_type", .absent), ("refined_dim", .int 0),
   ("refined_type", .absent), ("reduced", .bool false), ("reduction", .absent),
   ("scaled", .bool false), ("scaling", .absent), ("solver", .absent), ("warnings", .list []),
   ("raw_data", .absent), ("refined_data", .absent)]

/-- An outline with the given fields, all of which a record must have. -/
def ofFields (invoker : Value α) (fields : List (String × Value α)) : Except Fault (Outline α) :=
  if fields.all fun field => (defaults : List (String × Value α)).any fun known => known.1 == field.1 then
    .ok ⟨invoker, fields⟩
  else .error .wrongType

/-- The value of a field. -/
def get (o : Outline α) (name : String) : Value α :=
  let find (fields : List (String × Value α)) : Option (Value α) :=
    (fields.find? fun field => field.1 == name).map (·.2)
  ((find o.fields).orElse fun _ => find defaults).getD .absent

/-- A part that only a preparation makes: there is none, or it is not what it should be. -/
def part (o : Outline α) (name : String) : Except Fault (Option Empty) :=
  if (o.get name).isAbsent then .ok none else .error .missingAttribute

/-- The diagnostics, of which an outline has none. -/
def messages (o : Outline α) : Except Fault (List String) :=
  match (o.get "warnings").items? with
  | none => .error .wrongType
  | some [] => .ok []
  | some _ => .error .missingAttribute

section

variable [Scalar α] [Interchange α]

/-- Fails where the outline says that a map was applied, for it has none. -/
def refuse (o : Outline α) (name : String) : Except Fault Unit := do
  if ← (o.get name).holds then throw .missingAttribute

/-- The caller's point for a point of the canonical space. -/
def restore (o : Outline α) (x : Value α) : Except Fault (List α) := do
  if (← (o.get "nofreex").holds) && !(o.get "facts").isAbsent then throw .missingAttribute
  let x ← x.flatReals
  o.refuse "scaled"
  o.refuse "reduced"
  return x

/-- The point of the canonical space for a caller's point. -/
def canonicalPoint (o : Outline α) (x : Value α) : Except Fault (List α) := do
  let x ← x.flatReals
  o.refuse "reduced"
  o.refuse "scaled"
  return x

/-- What was kept of an input or a result, in data. -/
def snapshotJson (v : Value α) : Except Fault (Json α) :=
  match v with
  | .absent => .ok .null
  | .mapping entries => do
    return .ofFields (← entries.mapM fun entry => return (← entry.1.toText, ← Record.partJson entry.2))
  | _ => .error .missingAttribute

/-- The outline in data. -/
def toJson (o : Outline α) : Except Fault (Json α) := do
  let _ ← o.part "facts"
  let _ ← o.part "reduction"
  let _ ← o.part "scaling"
  let _ ← o.messages
  let plain (name : String) : Except Fault (Text × Json α) := return (name, ← (o.get name).toJson)
  let made : List (Text × Json α) :=
    [("invoker", ← o.invoker.toJson), ("facts", .null), ("free", .null), ("scaling_factor", .null),
      ("shift", .null), ("warnings", .array []), ("raw_data", ← snapshotJson (o.get "raw_data")),
      ("refined_data", ← snapshotJson (o.get "refined_data"))]
  return .object (made ++ (← ["infeasible", "nofreex", "constrv_fixedx", "raw_dim", "raw_type",
    "refined_dim", "refined_type", "reduced", "scaled", "solver"].mapM plain))

end

end Outline
end Presolve
