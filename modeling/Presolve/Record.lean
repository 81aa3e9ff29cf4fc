import Presolve.Diagnostic.Journal
import Presolve.Digest.Sha256
import Presolve.Solver.Settings
import Presolve.Transform.Elimination
import Presolve.Transform.Rescaling

/-!
# Records of preparations

The record of a preparation holds what was found, what was done, and the problem and settings that a
solver gets. It maps points of the canonical space, where the solver works, to the caller's variables
and back: rescaling is undone first and elimination second.
-/

namespace Presolve

/-- What a caller passes: the parts of a problem and options, all unchecked. -/
structure Input (α : Type) where
  objective : Value α := .absent
  start : Value α := .absent
  inequalityRows : Value α := .absent
  inequalityRhs : Value α := .absent
  equalityRows : Value α := .absent
  equalityRhs : Value α := .absent
  lower : Value α := .absent
  upper : Value α := .absent
  constraints : Value α := .absent
  options : Value α := .absent

structure Record (α : Type) where
  invoker : Invoker
  facts : Facts α
  /-- The violation of the constraints at the only point between the bounds, if all variables are
  fixed. -/
  fixedViolation : Option α
  rawDimension : Nat
  rawKind : ProblemKind
  refinedDimension : Nat
  refinedKind : ProblemKind
  elimination : Option (Elimination α)
  rescaling : Option (Rescaling α)
  diagnostics : List (Diagnostic α)
  /-- The input, which is kept in debug mode. -/
  input : Option (Input α)
  problem : Problem α
  settings : Settings α

namespace Record

variable {α : Type}

def isReduced (r : Record α) : Bool := r.elimination.isSome

def isScaled (r : Record α) : Bool := r.rescaling.isSome

/-- The solver that the problem is meant for. -/
def solver (r : Record α) : Option Solver := r.settings.solver

section

variable [Scalar α]

/-- The point of the caller's variables that a point of the canonical space stands for. If all
variables are fixed it is the fixed point, whatever the solver found. -/
def restore (r : Record α) (x : List α) : Except Fault (List α) :=
  if r.facts.allFixed then .ok r.facts.fixedValues
  else do
    let x ← match r.rescaling with
      | some s => s.toUnscaled x
      | none => .ok x
    match r.elimination with
    | some e => e.expand x
    | none => return x

/-- The point of the canonical space for a point of the caller's variables. -/
def canonicalPoint (r : Record α) (x : List α) : Except Fault (List α) := do
  let x ← match r.elimination with
    | some e => e.restrict x
    | none => .ok x
  match r.rescaling with
  | some s => s.toCanonical x
  | none => return x

end

/-! ## Data -/

variable [Scalar α] [Interchange α]

/-- A part of the input in data: options with all their fields, a function by its name. -/
def partJson (v : Value α) : Except Fault (Json α) :=
  match v with
  | .options fields => optionsJson fields
  | .function view _ _ => .ok (.text (view.ownName?.getD view.typeName))
  | v => v.toJson

def inputJson (i : Input α) : Except Fault (Json α) := do
  return .object [
    ("objective", ← partJson i.objective),
    ("x0", ← partJson i.start),
    ("Aineq", ← partJson i.inequalityRows),
    ("bineq", ← partJson i.inequalityRhs),
    ("Aeq", ← partJson i.equalityRows),
    ("beq", ← partJson i.equalityRhs),
    ("lb", ← partJson i.lower),
    ("ub", ← partJson i.upper),
    ("nonlcon", ← partJson i.constraints),
    ("options", ← partJson i.options)]

omit [Scalar α] in
/-- Diagnostics in data, with their numbers. -/
def diagnosticsJson (ds : List (Diagnostic α)) : Json α :=
  .array (ds.zipIdx.map fun (d, i) =>
    .object [
      ("sequence", .int i),
      ("warning_id", .text d.id),
      ("message", .text d.message)])

/-- The record in data. -/
def toJson (r : Record α) : Except Fault (Json α) := do
  let input ← match r.input with
    | some i => inputJson i
    | none => .ok .null
  return .object [
    ("invoker", .text r.invoker.name),
    ("facts", r.facts.toJson),
    ("infeasible", .bool r.facts.infeasible),
    ("nofreex", .bool r.facts.allFixed),
    ("constrv_fixedx", .ofOption .ofNumber r.fixedViolation),
    ("raw_dim", .int r.rawDimension),
    ("raw_type", .text r.rawKind.name),
    ("refined_dim", .int r.refinedDimension),
    ("refined_type", .text r.refinedKind.name),
    ("reduced", .bool r.isReduced),
    ("free", .ofOption (fun e => .ofFlags e.free) r.elimination),
    ("scaled", .bool r.isScaled),
    ("scaling_factor", .ofOption (fun s => .ofVector s.factor) r.rescaling),
    ("shift", .ofOption (fun s => .ofVector s.shift) r.rescaling),
    ("solver", .ofOption (fun s => .text s.name) r.solver),
    ("warnings", diagnosticsJson r.diagnostics),
    ("raw_data", input),
    ("refined_data", .object [("problem", r.problem.toJson), ("options", r.settings.toJson)])]

end Record

/-! ## Fingerprints -/

section

variable {α : Type} [Interchange α]

/-- The canonical text of data that can be written. -/
def canonicalText (layout : Json.Layout) (data : Json α) : Except Fault String :=
  if data.isWritable then .ok (data.render shortestText layout) else .error .tooManyDigits

/-- The digest of the canonical text. -/
def fingerprint (data : Json α) : Except Fault String :=
  (canonicalText .compact data).map Sha256.hexDigest

end

end Presolve
