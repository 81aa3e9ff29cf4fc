import Presolve.Diagnostic.Log
import Presolve.Number.Scalar
import Presolve.Decimal.Text
import Presolve.Solver.Catalogue

/-!
# Anomalies

What a preparation finds wrong with its input and works around. An anomaly has a tag, which with
the name of the invoker makes its identifier, and a text.
-/

namespace Presolve

/-- The flags among the options. -/
inductive FlagName where
  | classical
  | scale
  | quiet
  | debug
deriving DecidableEq, Repr

namespace FlagName

def option : FlagName → OptionName
  | classical => .classical
  | scale => .scale
  | quiet => .quiet
  | debug => .debug

/-- The value of a flag that is not set. -/
def default : FlagName → Bool
  | quiet => true
  | _ => false

/-- The tag of an invalid flag. -/
def tag : FlagName → String
  | classical => "InvalidClassicalFlag"
  | scale => "InvalidScaleFlag"
  | quiet => "InvalidQuietFlag"
  | debug => "InvalidDebugflag"

end FlagName

inductive Anomaly (α : Type) where
  | noObjective
  | unknownFields (names : List Text)
  | unknownSolver
  /-- A solver other than the invoker was asked for. -/
  | foreignSolver
  /-- The solver that was asked for does not handle the problem. -/
  | unsuitableSolver (solver : Solver) (kind : ProblemKind)
  | unknownOptions (names : List Text)
  | invalidNpt (solver : Solver)
  /-- The budget is no positive integer; it is set to the given default. -/
  | invalidBudget (default : Nat)
  /-- The budget is too small for any solver. -/
  | smallBudget
  /-- The budget is too small for the solver. -/
  | budgetBelow (solver : Solver)
  | invalidRhobeg (default : α)
  /-- The first radius does not fit between the bounds. -/
  | wideRhobeg (solver : Solver)
  | invalidRhoend (ratio : α)
  | invalidFtarget
  | invalidFlag (flag : FlagName)
  | invalidCheck
  /-- Checking function values was asked for outside debug mode. -/
  | checkWithoutDebug
  | classicalMode
  | debugMode
  | checkMode (solver : Option Solver)
  | revisedStart
  | rescaled

namespace Anomaly

variable {α : Type}

/-- Anomalies of options can be recovered from. -/
def category : Anomaly α → Category
  | noObjective | unknownFields _ | revisedStart | rescaled => .preprocessing
  | _ => .recoverableOption

def tag : Anomaly α → String
  | noObjective => "NoObjective"
  | unknownFields _ => "UnknownProbField"
  | unknownSolver => "UnknownSolver"
  | foreignSolver | unsuitableSolver _ _ => "InvalidSolver"
  | unknownOptions _ => "UnknownOption"
  | invalidNpt _ => "InvalidNpt"
  | invalidBudget _ | smallBudget | budgetBelow _ => "InvalidMaxfun"
  | invalidRhobeg _ | wideRhobeg _ => "InvalidRhobeg"
  | invalidRhoend _ => "InvalidRhoend"
  | invalidFtarget => "InvalidFtarget"
  | invalidFlag flag => flag.tag
  | invalidCheck | checkWithoutDebug => "InvalidChkfunval"
  | classicalMode => "Classical"
  | debugMode => "Debug"
  | checkMode _ => "Chkfunval"
  | revisedStart => "ReviseX0"
  | rescaled => "ProblemScaled"

/-- A number with six places. -/
def places [Interchange α] (x : α) : String := Numeral.fixed 6 (Interchange.toDouble x)

/-- The text for the given invoker. -/
def text [Interchange α] (source : String) : Anomaly α → Text
  | noObjective => "there is no objective function."
  | unknownFields [name] => "problem with an unknown field " ++ name ++ "; it is ignored."
  | unknownFields names =>
    "problem with unknown fields " ++ Text.join ", " names ++ "; they are ignored."
  | unknownSolver => "unknown solver specified; " ++ source ++ " will select one automatically."
  | foreignSolver => "a solver different from " ++ source ++ " is specified; it is ignored."
  | unsuitableSolver solver kind =>
    solver.name ++ " cannot solve a " ++ kind.label ++ " problem; " ++ source
      ++ " will select a solver automatically."
  | unknownOptions [name] => "unknown option " ++ name ++ "; it is ignored."
  | unknownOptions names => "unknown options " ++ Text.join ", " names ++ "; they are ignored."
  | invalidNpt solver =>
    "invalid npt. for " ++ solver.name
      ++ ", it should be an integer and n+2 <= npt <= (n+1)*(n+2)/2; it is set to 2n+1."
  | invalidBudget default =>
    "invalid maxfun; it should be a positive integer; it is set to " ++ toString default ++ "."
  | smallBudget =>
    "invalid maxfun; it should be a positive integer at least n+2; it is set to n+2."
  | budgetBelow solver => "invalid maxfun; " ++ solver.name ++ " " ++ solver.budgetRule ++ "."
  | invalidRhobeg default =>
    "invalid rhobeg; it should be a positive number; it is set to max(" ++ places default
      ++ ", rhoend)."
  | wideRhobeg solver =>
    "invalid rhobeg; " ++ solver.name
      ++ " requires rhobeg <= min(ub-lb)/2; it is set to min(ub-lb)/2."
  | invalidRhoend ratio =>
    "invalid rhoend; we should have rhobeg >= rhoend > 0; it is set to " ++ places ratio
      ++ "*rhobeg."
  | invalidFtarget => "invalid ftarget; it should be real number; it is set to -inf."
  | invalidFlag flag =>
    "invalid " ++ flag.option.key ++ " flag; it should be true(1) or false(0); it is set to "
      ++ (if flag.default then "true" else "false") ++ "."
  | invalidCheck =>
    "invalid chkfunval flag; it should be true(1) or false(0); it is set to false."
  | checkWithoutDebug =>
    "chkfunval=true but debug=false; chkfunval is set to false; set both flags to true to check "
      ++ "function values."
  | classicalMode =>
    "in classical mode, which is recommended only for research purpose; set "
      ++ "options.classical=false to disable classical mode."
  | debugMode => "in debug mode; set options.debug=false to disable debug."
  | checkMode solver =>
    "checking whether "
      ++ (if solver = some .cobyla then
        "fx=fun(x) and conval=con(x) at exit, which costs an extra function/constraint evaluation"
      else "fx=fun(x) at exit, which costs an extra function evaluation")
      ++ "; set options.chkfunval=false to disable the check."
  | revisedStart => "x0 is revised to satisfy the constraints."
  | rescaled =>
    "problem scaled according to bound constraints; do this only if the bounds reflect the scaling "
      ++ "of variables; if not, set options.scale=false to disable scaling."

end Anomaly

/-! ## Diagnostics -/

/-- An anomaly and the name of the invoker that reports it. -/
structure Diagnostic (α : Type) where
  source : String
  anomaly : Anomaly α

namespace Diagnostic

variable {α : Type}

def id (d : Diagnostic α) : String := d.source ++ ":" ++ d.anomaly.tag

def message [Interchange α] (d : Diagnostic α) : Text :=
  d.source ++ ": " ++ d.anomaly.text d.source

instance [Interchange α] : Notice (Diagnostic α) := ⟨id, message, fun d => d.anomaly.category⟩

end Diagnostic
end Presolve
