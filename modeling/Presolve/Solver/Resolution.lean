import Presolve.Constraint.Bounds
import Presolve.Diagnostic.Journal
import Presolve.Solver.Settings

/-!
# Resolving options

Turns the options that a caller passes into settings. An option that is not set takes its default;
one that is set to something valid keeps its value; one that is invalid is reported and replaced. No
value of an option is a complaint, only options that are no options at all.

* The number of interpolation points `npt` is an option of some solvers only, between `n + 2` and
  `(n + 1) (n + 2) / 2`.
* The budget `maxfun` exceeds the number of points that the solver needs.
* The radii satisfy `rhoend ≤ rhobeg` and are at least `epsilon`.
* A solver that limits its radius has `rhobeg` at most half the least width between bounds.
-/

namespace Presolve

open Scalar

variable {α : Type} [Scalar α] [Interchange α]

/-- Options that are set, by their keys. -/
abbrev Entries (α : Type) := List (Value α × Value α)

/-- The options that are set: all that are not empty in a dictionary, all that are not absent
in options. -/
def readEntries (source : String) (options : Value α) : Except Fault (Entries α) :=
  match options with
  | .absent => .ok []
  | .options fields => .ok (Value.setOptions fields)
  | .mapping entries => .ok (entries.filter fun entry => !entry.2.isEmpty)
  | _ => .error (.invalid .optionsNotMapping source)

/-- Is a text the key of an option of the solver? -/
def OptionName.isKeyOf (solver : Option Solver) (key : Text) : Bool :=
  key.isAmong ((known solver).map OptionName.key)

namespace Resolution

/-- What options are resolved for: an invoker and a problem with `n` variables. -/
structure Context (α : Type) where
  invoker : Invoker
  n : Nat
  bounds : Bounds α
  entries : Entries α

namespace Context

variable (c : Context α)

omit [Scalar α] [Interchange α] in
def find? (name : OptionName) : Option (Value α) := Value.lookup? name.key c.entries

omit [Scalar α] in
def report (anomaly : Anomaly α) : Prep α Unit := Prep.report c.invoker.name anomaly

end Context

/-! ## Solver -/

omit [Scalar α] [Interchange α] in
/-- The name of the solver that a value asks for. -/
def requestedName (v : Value α) : String :=
  match v with
  | .solver s => s.name
  | v => v.name?.getD "UNKNOWN_SOLVER"

/-- The solver to resolve options for: the invoker, or for the front end the one that was asked
for. -/
def solver (c : Context α) : Prep α (Option Solver) := do
  match c.invoker, c.find? .solver with
  | .frontEnd, none => return none
  | .frontEnd, some value =>
    let name := requestedName value
    let solver := Solver.parse? name
    if solver.isNone && name.toLower != Invoker.frontEnd.name then c.report .unknownSolver
    return solver
  | .solver s, none => return some s
  | .solver s, some value =>
    if Solver.parse? (requestedName value) ≠ some s then c.report .foreignSolver
    return some s

/-! ## Unknown options -/

omit [Scalar α] [Interchange α] in
/-- Is a key the name of an option of the solver? -/
def isKnown (solver : Option Solver) (key : Value α) : Bool :=
  key.text?.any (OptionName.isKeyOf solver)

omit [Scalar α] in
/-- The texts of unknown keys, in order. Several keys can be ordered only if all are texts. -/
def keyTexts (keys : List (Value α)) : Except Fault (List Text) :=
  match keys with
  | [key] => key.toText.map fun s => [s]
  | keys => do
    let texts ← keys.mapM fun key =>
      match key.text? with
      | some s => Except.ok s
      | none => .error Fault.wrongType
    return texts.mergeSort fun a b => decide (a ≤ b)

/-- Reports the options that the solver does not have. -/
def checkUnknown (c : Context α) (solver : Option Solver) : Prep α Unit := do
  let unknown := (c.entries.map (·.1)).filter fun key => !isKnown solver key
  if !unknown.isEmpty then c.report (.unknownOptions (← keyTexts unknown))

/-! ## Points and budget -/

/-- The number of interpolation points. -/
def npt (c : Context α) (solver : Option Solver) : Prep α (Option Int) := do
  match solver with
  | none => return none
  | some s =>
    let default : Int := s.defaultNpt c.n
    match c.find? .npt, s.takesNpt with
    | some value, true =>
      match ← value.integerScalar? with
      | some npt =>
        if (c.n : Int) + 2 ≤ npt ∧ npt ≤ Solver.fullQuadratic c.n then return some npt
        else
          c.report (.invalidNpt s)
          return some default
      | none =>
        c.report (.invalidNpt s)
        return some default
    | _, _ => return some default

/-- The budget of evaluations for a problem with `n` variables. -/
def defaultBudget (n : Nat) : Nat := 500 * n

/-- The budget of evaluations. -/
def maxfun (c : Context α) (solver : Option Solver) (npt : Option Int) : Prep α Int := do
  let default := defaultBudget c.n
  let fallback : Int := match npt with
    | some npt => max default (npt + 1)
    | none => default
  match c.find? .maxfun with
  | none => return fallback
  | some value =>
    match ← value.integerScalar? with
    | none =>
      c.report (.invalidBudget default)
      return fallback
    | some budget =>
      if budget ≤ 0 then
        c.report (.invalidBudget default)
        return fallback
      else
        match solver, npt with
        | none, _ =>
          if budget ≤ (c.n : Int) + 1 then
            c.report .smallBudget
            return (c.n : Int) + 2
          else return budget
        | some s, some npt =>
          if budget ≤ npt then
            c.report (.budgetBelow s)
            return npt + 1
          else return budget
        | some _, none => return budget

/-! ## Radii -/

/-- The radius of the first trust region by default. -/
def defaultRhobeg : α := 1

/-- The radius of the last trust region by default. -/
def defaultRhoend : α := ofFraction 1 1000000

/-- The default radii for a solver. One that limits its radius starts from a radius that fits
between the bounds, and its last radius shrinks with it unless the problem will be rescaled. -/
def defaultRadii (c : Context α) (solver : Option Solver) : Except Fault (α × α) :=
  if solver.any Solver.limitsRadius then do
    let rhobeg := smaller defaultRhobeg (← c.bounds.halfWidth)
    let willScale ← match c.find? .scale with
      | some value => value.flag?
      | none => .ok none
    let rhoend := if willScale = some true then defaultRhoend
      else defaultRhoend / defaultRhobeg * rhobeg
    return (rhobeg, rhoend)
  else return (defaultRhobeg, defaultRhoend)

/-- The first radius in the absence of a valid one: the default, or a greater last radius. -/
def fallbackRhobeg (c : Context α) (default : α) : Except Fault α :=
  match c.find? .rhoend with
  | none => .ok default
  | some value => value.realScalar?.map fun x? => x?.elim default (larger default)

/-- The radius of the first trust region. -/
def rhobeg (c : Context α) (solver : Option Solver) (default : α) : Prep α α := do
  let halfWidth ← c.bounds.halfWidth
  let value ← match c.find? .rhobeg with
    | none => fallbackRhobeg c default
    | some value =>
      match (← value.realScalar?).filter fun x => decide (0 < x) with
      | none =>
        c.report (.invalidRhobeg default)
        fallbackRhobeg c default
      | some x =>
        match solver.filter Solver.limitsRadius with
        | some s =>
          if halfWidth < x then
            c.report (.wideRhobeg s)
            pure halfWidth
          else pure x
        | none => pure x
  return larger value epsilon

/-- The last radius in proportion to the first one by default. Without a positive default the
proportion is that of an unbounded problem. -/
def radiusRatio (rhobegDefault rhoendDefault : α) : α :=
  if 0 < rhobegDefault then rhoendDefault / rhobegDefault else defaultRhoend / defaultRhobeg

/-- The radius of the last trust region. -/
def rhoend (c : Context α) (rhobeg ratio : α) : Prep α α := do
  match c.find? .rhoend with
  | none => return larger (ratio * rhobeg) epsilon
  | some value =>
    match (← value.realScalar?).filter fun x => decide (x ≤ rhobeg) with
    | some x => return larger x epsilon
    | none =>
      c.report (.invalidRhoend ratio)
      return larger (ratio * rhobeg) epsilon

/-! ## Target and flags -/

/-- The objective value at which a solver may stop. -/
def ftarget (c : Context α) : Prep α α := do
  match c.find? .ftarget with
  | none => return -infinity
  | some value =>
    match ← value.realScalar? with
    | some x => return x
    | none =>
      c.report .invalidFtarget
      return -infinity

/-- The value of a flag. -/
def flag (c : Context α) (name : FlagName) : Prep α Bool := do
  match c.find? name.option with
  | none => return name.default
  | some value =>
    match ← value.flag? with
    | some b => return b
    | none =>
      c.report (.invalidFlag name)
      return name.default

/-- Are function values checked at the end? Only in debug mode. -/
def chkfunval (c : Context α) (debug : Bool) : Prep α Bool := do
  match c.find? .chkfunval with
  | none => return false
  | some value =>
    match ← value.flag? with
    | none =>
      c.report .invalidCheck
      return false
    | some check =>
      if check && !debug then
        c.report .checkWithoutDebug
        return false
      else return check

/-! ## All options -/

/-- The settings that the options of a context are resolved to. -/
def settings (c : Context α) : Prep α (Settings α) := do
  let solver ← solver c
  checkUnknown c solver
  let (rhobegDefault, rhoendDefault) ← defaultRadii c solver
  let npt ← npt c solver
  let maxfun ← maxfun c solver npt
  let rhobeg ← rhobeg c solver rhobegDefault
  let rhoend ← rhoend c rhobeg (radiusRatio rhobegDefault rhoendDefault)
  let ftarget ← ftarget c
  let classical ← flag c .classical
  if classical then c.report .classicalMode
  let scale ← flag c .scale
  let quiet ← flag c .quiet
  let debug ← flag c .debug
  if debug then c.report .debugMode
  let chkfunval ← chkfunval c debug
  if chkfunval then c.report (.checkMode solver)
  return { npt, maxfun, rhobeg, rhoend, ftarget, classical, scale, quiet, debug, chkfunval, solver }

end Resolution

/-- Resolves options for an invoker and a problem with `n` variables and the given bounds. -/
def resolveOptions (invoker : Invoker) (options : Value α) (n : Nat) (bounds : Bounds α) :
    Prep α (Settings α) := do
  let entries ← readEntries invoker.name options
  Resolution.settings ⟨invoker, n, bounds, entries⟩

end Presolve
