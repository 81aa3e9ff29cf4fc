import Presolve.Trace.LineTemplate

/-!
# Loggers

The loggers of the program have names under one root. Each has a threshold and a handler, which has a
threshold and a template of its own. Every operation that sets a threshold sets it for all loggers that
are there, for their handlers and for the loggers to come; a new template replaces the handlers of the
loggers that are there.

Thresholds are set one after the other. One that is no threshold fails with the first logger, so that it
leaves everything as it was as long as there is a logger; the parts of the program see to that.

A logger with threshold zero has no limit of its own, so that the limit above all loggers counts, which
is the level of warnings. A line with a level of zero or less is never shown.
-/

namespace Presolve.Trace

/-- Changes the members of a list one after the other, up to the first change that fails. -/
def inTurn {σ : Type} (change : σ → Except Fault Unit × σ) : List σ → Except Fault Unit × List σ
  | [] => (.ok (), [])
  | x :: xs =>
    match change x with
    | (.ok (), x) =>
      let (result, xs) := inTurn change xs
      (result, x :: xs)
    | (.error f, x) => (.error f, x :: xs)

/-- Shows the lines from a threshold on, by a template. -/
structure Handler where
  threshold : Level
  template : LineTemplate
deriving DecidableEq, Repr

/-- Sets the threshold of a handler. -/
def Handler.setThreshold (threshold : Except Fault Level) (h : Handler) : Except Fault Unit × Handler :=
  match threshold with
  | .ok threshold => (.ok (), { h with threshold })
  | .error f => (.error f, h)

structure Logger where
  name : Text
  threshold : Level
  handlers : List Handler
  /-- Are lines handed on to what is above all loggers? -/
  propagates : Bool
deriving DecidableEq, Repr

namespace Logger

/-- A logger that is made while a threshold is set. -/
def fresh (threshold : Level) (name : Text) : Logger :=
  { name, threshold, handlers := [⟨threshold, .standard⟩], propagates := false }

/-- Sets the threshold of a logger and then those of its handlers. -/
def setThreshold (threshold : Except Fault Level) (l : Logger) : Except Fault Unit × Logger :=
  match threshold with
  | .ok level =>
    let (result, handlers) := inTurn (Handler.setThreshold threshold) l.handlers
    (result, { l with threshold := level, handlers })
  | .error f => (.error f, l)

/-- Sets the threshold of a logger and puts one handler in place of its own. -/
def setHandler (threshold : Except Fault Level) (template : LineTemplate) (l : Logger) :
    Except Fault Unit × Logger :=
  match threshold with
  | .ok level => (.ok (), { l with threshold := level, handlers := [⟨level, template⟩] })
  | .error f => (.error f, l)

/-- The level from which a logger passes lines to its handlers. -/
def limit (l : Logger) : Int := if l.threshold.number = 0 then warning else l.threshold.number

/-- Does a logger pass lines of a level to its handlers? -/
def passes (l : Logger) (level : Int) : Bool := 0 < level && l.limit ≤ level

/-- The lines that a message is shown as, one by every handler whose threshold it reaches. An entry
holds the name of its level, so that there is none for a level whose number is too long. -/
def lines (l : Logger) (around : Surroundings) (level : Level) (message : Text) :
    Except Fault (List Text) :=
  if l.passes level.number then
    if Decimal.isWritable level.number then
      .ok <| (l.handlers.filter fun h => h.threshold.number ≤ level.number).filterMap fun h =>
        h.template.line? around ⟨l.name, level, message⟩
    else .error .tooManyDigits
  else .ok []

end Logger

/-- The loggers that are there, and the threshold of those to come. -/
structure Loggers where
  threshold : Level
  all : List Logger
deriving DecidableEq, Repr

namespace Loggers

/-- The root of the names. -/
def root : String := "dfo_prep"

/-- The parts of the program that leave a trace. -/
def parts : List String :=
  ["pipeline", "core.diagnostics", "preprocess.linear", "transforms.projection",
    "solver.selection"]

/-- A name under the root. -/
def fullName (name : Text) : Text :=
  if name.startsWith root then name else root ++ "." ++ name

/-- The loggers of the parts of the program. -/
def initial : Loggers :=
  let threshold := Level.ofInt warning
  ⟨threshold, parts.map fun (name : String) => .fresh threshold (fullName name)⟩

/-- The logger of a name. -/
def find? (ls : Loggers) (name : Text) : Option Logger :=
  ls.all.find? fun l => l.name == name

/-- The logger of a name, which is made unless it is there. -/
def named (ls : Loggers) (name : Text) : Logger × Loggers :=
  match ls.find? name with
  | some l => (l, ls)
  | none =>
    let l := Logger.fresh ls.threshold name
    (l, { ls with all := ls.all ++ [l] })

/-! ## Operations -/

variable {α : Type}

/-- The full name that a value asks for; without one it is the root. -/
def nameOfValue (v : Value α) : Except Fault Text :=
  if v.isAbsent then .ok root
  else
    match v.text? with
    | some name => .ok (fullName name)
    | none => .error (if v.bytes?.isSome then .wrongType else .missingAttribute)

/-- Asks for a logger, which is there from then on. -/
def request (ls : Loggers) (name : Value α) : Except Fault (Logger × Loggers) := do
  return ls.named (← nameOfValue name)

/-- Changes the loggers one after the other; the threshold of those to come is set last. -/
def change (ls : Loggers) (threshold : Except Fault Level) (change : Logger → Except Fault Unit × Logger) :
    Except Fault Unit × Loggers :=
  match inTurn change ls.all, threshold with
  | (.ok (), all), .ok threshold => (.ok (), { threshold, all })
  | (.ok (), all), .error f => (.error f, { ls with all })
  | (.error f, all), _ => (.error f, { ls with all })

/-- Sets the threshold of all loggers, those to come among them. -/
def changeThreshold (ls : Loggers) (level : Value α) : Except Fault Unit × Loggers :=
  let threshold := Level.thresholdOfValue level
  ls.change threshold (Logger.setThreshold threshold)

/-- Sets the threshold, and the template of the loggers that are there. -/
def changeTemplate [Scalar α] (ls : Loggers) (level template : Value α) : Except Fault Unit × Loggers :=
  let threshold := Level.thresholdOfValue level
  match LineTemplate.ofValue template with
  | .ok template => ls.change threshold (Logger.setHandler threshold template)
  | .error f => (.error f, ls)

/-- The loggers after a change that has to succeed. -/
def changed : Except Fault Unit × Loggers → Except Fault Loggers
  | (.ok (), ls) => .ok ls
  | (.error f, _) => .error f

/-- The loggers with another threshold. -/
def setThreshold (ls : Loggers) (level : Value α) : Except Fault Loggers :=
  changed (ls.changeThreshold level)

/-- The loggers with another threshold and template. -/
def configure [Scalar α] (ls : Loggers) (level template : Value α) : Except Fault Loggers :=
  changed (ls.changeTemplate level template)

/-- Writes a message with a logger: the lines that are shown. -/
def write (ls : Loggers) (name level : Value α) (message : Text) :
    Except Fault (List Text) × Loggers :=
  match ls.request name with
  | .error f => (.error f, ls)
  | .ok (logger, ls) => (Level.ofValue level >>= fun level => logger.lines .unknown level message, ls)

end Loggers
end Presolve.Trace
