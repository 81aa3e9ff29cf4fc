import Presolve.Value.Data

/-!
# Settings

The settings of a solver: every option with a value. The number of interpolation points is not set
while no solver has been chosen.
-/

namespace Presolve

structure Settings (α : Type) where
  npt : Option Int
  maxfun : Int
  rhobeg : α
  rhoend : α
  ftarget : α
  classical : Bool
  scale : Bool
  quiet : Bool
  debug : Bool
  chkfunval : Bool
  solver : Option Solver

namespace Settings

variable {α : Type}

/-- The settings as options, each with its value. -/
def toOptions (s : Settings α) : OptionName → Value α
  | .npt => s.npt.elim .absent .int
  | .maxfun => .int s.maxfun
  | .rhobeg => .real s.rhobeg
  | .rhoend => .real s.rhoend
  | .ftarget => .real s.ftarget
  | .classical => .bool s.classical
  | .scale => .bool s.scale
  | .quiet => .bool s.quiet
  | .debug => .bool s.debug
  | .chkfunval => .bool s.chkfunval
  | .solver => s.solver.elim .absent .solver

end Settings

section

variable {α : Type} [Scalar α] [Interchange α]

mutual

/-- A value as a part of a record in data: options and records are objects of their parts, also inside
lists and dictionaries. The parts of a record are no key, so a dictionary with a record among its keys has
no data. -/
def Value.partJson : Value α → Except Fault (Json α)
  | .options fields => do
    return .object (← OptionName.all.mapM fun name => return ((name.key : Text), ← (fields name).partJson))
  | .function _ (some parts) _ => (namedPartsJson parts).map .ofFields
  | .list items | .tuple items => (partsJson items).map .array
  | .mapping entries => (entryPartsJson entries).map .ofFields
  | v => v.toJson

def Value.partsJson : List (Value α) → Except Fault (List (Json α))
  | [] => .ok []
  | item :: rest => do return (← item.partJson) :: (← partsJson rest)

def Value.namedPartsJson : List (String × Value α) → Except Fault (List (Text × Json α))
  | [] => .ok []
  | (name, value) :: rest => do return (name, ← value.partJson) :: (← namedPartsJson rest)

def Value.entryPartsJson : List (Value α × Value α) → Except Fault (List (Text × Json α))
  | [] => .ok []
  | (key, value) :: rest =>
    if key.holdsRecord then .error .wrongType
    else do return (← key.toText, ← value.partJson) :: (← entryPartsJson rest)

end

/-- Options in data, each under its name. -/
def optionsJson (fields : OptionName → Value α) : Except Fault (Json α) := (Value.options fields).partJson

/-- Settings in data. -/
def Settings.toJson (s : Settings α) : Json α :=
  .object [
    ("npt", .ofOption .int s.npt),
    ("maxfun", .int s.maxfun),
    ("rhobeg", .ofNumber s.rhobeg),
    ("rhoend", .ofNumber s.rhoend),
    ("ftarget", .ofNumber s.ftarget),
    ("classical", .bool s.classical),
    ("scale", .bool s.scale),
    ("quiet", .bool s.quiet),
    ("debug", .bool s.debug),
    ("chkfunval", .bool s.chkfunval),
    ("solver", .ofOption (fun solver => .text solver.name) s.solver)]

end

end Presolve
