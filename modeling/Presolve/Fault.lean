import Presolve.Problem.Kind
import Presolve.Solver.Name
import Presolve.Text.Quoted

/-!
# What can go wrong

A preparation ends in a `Fault` when it cannot go on. Most faults are complaints about the
input, with the name of the invoker in front; a defect is an internal contradiction; a warning
ends the preparation where the caller escalates it. The other faults arise when values are used
as what they are not.

`ErrorClass` is the hierarchy that complaints and defects are reported in: every class has a name,
a tag for identifiers, and the classes it belongs to.
-/

namespace Presolve

/-! ## Classes of errors -/

inductive ErrorClass where
  | preprocessing
  | input
  | objective
  | objectiveShape
  | start
  | linearConstraint
  | bound
  | nonlinearConstraint
  | constraintOutput
  | options
  | problemKind
  | problem
  | unexpected
deriving DecidableEq, Repr

namespace ErrorClass

def all : List ErrorClass :=
  [preprocessing, input, objective, objectiveShape, start, linearConstraint, bound,
    nonlinearConstraint, constraintOutput, options, problemKind, problem, unexpected]

def name : ErrorClass → String
  | preprocessing => "PreprocessingError"
  | input => "InvalidInputError"
  | objective => "InvalidObjective"
  | objectiveShape => "InvalidObjectiveShape"
  | start => "InvalidX0"
  | linearConstraint => "InvalidLinearConstraint"
  | bound => "InvalidBound"
  | nonlinearConstraint => "InvalidNonlinearConstraint"
  | constraintOutput => "ConstraintNotNumeric"
  | options => "InvalidOptions"
  | problemKind => "InvalidProblemType"
  | problem => "InvalidProblem"
  | unexpected => "UnexpectedError"

/-- The end of the identifiers of a class. -/
def tag : ErrorClass → String
  | preprocessing => "PreprocessingError"
  | input => "InvalidInput"
  | objective => "InvalidFun"
  | objectiveShape => "ObjectiveNotScalar"
  | start => "InvalidX0"
  | linearConstraint => "InvalidLinCon"
  | bound => "InvalidBound"
  | nonlinearConstraint => "InvalidCon"
  | constraintOutput => "ConstrNotNumeric"
  | options => "InvalidOptions"
  | problemKind => "InvalidProb"
  | problem => "InvalidProb"
  | unexpected => "Unexpected"

/-- A class and the classes it belongs to, from the narrowest to the widest. -/
def lineage : ErrorClass → List ErrorClass
  | preprocessing => [preprocessing]
  | unexpected => [unexpected, preprocessing]
  | input => [input, preprocessing]
  | objectiveShape => [objectiveShape, objective, input, preprocessing]
  | constraintOutput => [constraintOutput, nonlinearConstraint, input, preprocessing]
  | c => [c, input, preprocessing]

def ofName? (name : String) : Option ErrorClass :=
  all.find? fun c => c.name == name

/-- The full message of an error of a class: a complaint about input is prefixed with who raised
it, a defect with the place. -/
def message (c : ErrorClass) (source text : String) : String :=
  if c = unexpected then source ++ ": UNEXPECTED ERROR: " ++ text
  else if input ∈ c.lineage ∧ source ≠ "" then source ++ ": " ++ text
  else text

/-- The identifier of an error with a tag. -/
def identifier (source tag : String) : String :=
  (if source = "" then "dfo_prep" else source) ++ ":" ++ tag

end ErrorClass

/-! ## Complaints about the input -/

/-- Which of the two linear systems. -/
inductive SystemName where
  | inequalities
  | equalities
deriving DecidableEq, Repr

def SystemName.suffix : SystemName → String
  | inequalities => "ineq"
  | equalities => "eq"

/-- Which of the two bounds. -/
inductive BoundName where
  | lower
  | upper
deriving DecidableEq, Repr

def BoundName.name : BoundName → String
  | lower => "lb"
  | upper => "ub"

/-- What is wrong with the input of a preparation. -/
inductive Complaint where
  | objectiveNotFunction
  | objectiveNotScalar
  | startNotReal
  | linearSystem (system : SystemName)
  | bound (side : BoundName)
  | constraintNotFunction
  | constraintNotNumeric
  | optionsNotMapping
  | kindNotSolved (kind : ProblemKind)
  | notMapping
  | noStart
deriving DecidableEq, Repr

namespace Complaint

def errorClass : Complaint → ErrorClass
  | objectiveNotFunction => .objective
  | objectiveNotScalar => .objectiveShape
  | startNotReal => .start
  | linearSystem _ => .linearConstraint
  | bound _ => .bound
  | constraintNotFunction => .nonlinearConstraint
  | constraintNotNumeric => .constraintOutput
  | optionsNotMapping => .options
  | kindNotSolved _ => .problemKind
  | notMapping => .problem
  | noStart => .problem

/-- The text of a complaint of the given invoker. -/
def text (invoker : String) : Complaint → String
  | objectiveNotFunction => "FUN should be a function handle or a function name."
  | objectiveNotScalar => "objective function should return a scalar value."
  | startNotReal => "X0 should be a real vector/scalar."
  | linearSystem system =>
    let w := system.suffix
    "A" ++ w ++ " should be a real matrix, B" ++ w ++ " should be a real column, and size(A" ++ w
      ++ ")=[length(B" ++ w ++ "), length(X0)] unless A" ++ w ++ "=B" ++ w ++ "=[]."
  | bound side =>
    let w := side.name
    w ++ " should be a real vector and length(" ++ w ++ ")=length(x0) unless " ++ w ++ "=[]."
  | constraintNotFunction => "nonlcon should be a function handle or a function name."
  | constraintNotNumeric => "constraint function should return two numeric vectors."
  | optionsNotMapping => "OPTIONS should be a mapping or an Options instance."
  | kindNotSolved kind =>
    kind.label ++ " problem received; " ++ invoker ++ " cannot solve it."
  | notMapping => "the unique input is not a problem-defining mapping."
  | noStart => "PROBLEM misses the x0 field(s)."

end Complaint

/-! ## Defects -/

/-- An internal contradiction, or a call that no caller should make. -/
inductive Defect where
  | unknownInvoker
  | notFrontEnd
  /-- No rule for a kind of problems, given by its text. -/
  | noRule (kind : String)
  | unsuitableSolver (solver : Solver)
  | vanishingFactor
deriving DecidableEq, Repr

namespace Defect

/-- Where a defect is found. -/
def place : Defect → String
  | unknownInvoker => "prepare"
  | vanishingFactor => "scale_problem"
  | _ => "select_solver"

def tag : Defect → String
  | unknownInvoker => "InvalidInvoker"
  | notFrontEnd => "InvalidInvoker"
  | noRule _ => "InvalidProbType"
  | unsuitableSolver _ => "InvalidSolver"
  | vanishingFactor => "InvalidScaling"

def text : Defect → String
  | unknownInvoker =>
    "invoker should be one of " ++ ", ".intercalate (Invoker.all.map Invoker.name) ++ "."
  | notFrontEnd => "select_solver serves only pdfo."
  | noRule kind => "unknown problem type '" ++ kind ++ "' received."
  | unsuitableSolver solver => "invalid solver '" ++ solver.name ++ "' selected."
  | vanishingFactor => "invalid scaling factor returned."

end Defect

/-! ## Warnings -/

/-- The categories of warnings: the second is part of the first. -/
inductive Category where
  | preprocessing
  | recoverableOption
deriving DecidableEq, Repr

namespace Category

def name : Category → String
  | preprocessing => "PreprocessingWarning"
  | recoverableOption => "RecoverableOptionWarning"

def ofName? (name : String) : Option Category :=
  [preprocessing, recoverableOption].find? fun c => c.name == name

/-- Does a category belong to another one? -/
def within (c wider : Category) : Bool := wider == preprocessing || c == wider

end Category

/-! ## Files -/

/-- Why a file cannot be opened. -/
inductive FileError where
  | notFound
  | notPermitted
  | notDirectory
  | isDirectory
deriving DecidableEq, Repr

namespace FileError

/-- The number of the error. -/
def number : FileError → Nat
  | notFound => 2
  | notPermitted => 13
  | notDirectory => 20
  | isDirectory => 21

def text : FileError → String
  | notFound => "No such file or directory"
  | notPermitted => "Permission denied"
  | notDirectory => "Not a directory"
  | isDirectory => "Is a directory"

/-- The message about the file at a path. -/
def message (e : FileError) (path : String) : String :=
  "[Errno " ++ toString e.number ++ "] " ++ e.text ++ ": " ++ Text.quoted path

end FileError

/-! ## Faults -/

/-- Why a computation has no result. -/
inductive Fault where
  | invalid (complaint : Complaint) (invoker : String)
  | defect (d : Defect)
  | escalated (category : Category) (message : Text)
  /-- A value of a type that the operation does not take. -/
  | wrongType
  /-- A value of the right type that the operation cannot use. -/
  | badValue (message : String)
  /-- Bytes that are no text. -/
  | undecodable
  /-- A text that no bytes stand for. -/
  | unencodable
  /-- A number too large for a double. -/
  | overflow
  /-- A mask whose length is not that of the vector. -/
  | badIndex
  /-- A key that is not there; the text says which. -/
  | missingKey (text : Text)
  /-- A value without the operation that was asked of it. -/
  | missingAttribute
  /-- A failure inside a user's function. -/
  | arithmetic
  | file (error : FileError) (path : String)
deriving DecidableEq, Repr

namespace Fault

/-- Nested lists whose shapes differ are no array. -/
def raggedNesting : Fault := .badValue "lists of one shape expected"

/-- An integer that is too long to be written. -/
def tooManyDigits : Fault :=
  .badValue ("Exceeds the limit (4300 digits) for integer string conversion; "
    ++ "use sys.set_int_max_str_digits() to increase the limit")

/-- A sequence where a number is expected. -/
def sequenceForNumber : Fault := .badValue "a number expected, not a sequence"

/-- The class, message and identifier of an error of the preparation itself. -/
def report? : Fault → Option (ErrorClass × String × String)
  | invalid complaint invoker =>
    let c := complaint.errorClass
    some (c, c.message invoker (complaint.text invoker), ErrorClass.identifier invoker c.tag)
  | defect d =>
    some (.unexpected, ErrorClass.message .unexpected d.place d.text,
      ErrorClass.identifier d.place d.tag)
  | _ => none

end Fault
end Presolve
