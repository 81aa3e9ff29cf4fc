import Presolve.Diagnostic.Anomaly

/-!
# The journal of a preparation

A preparation may end in a fault, and on its way it reports anomalies and leaves a trace of events.
`Prep α β` is such a computation: from the category that the caller escalates and the journal so far
to a result and a longer journal. A fault does not lose the journal.
-/

namespace Presolve

/-- What a preparation did, for a reader who follows it step by step. -/
inductive Event (α : Type) where
  | reported (diagnostic : Diagnostic α)
  | removedRows (inequalities equalities : Nat)
  | infeasible
  | eliminated (before after : Nat)
  | classified (raw refined : ProblemKind)
  | stretched (ratio : α)
  | notConverged (reason : String)
  | kept (solver : Solver)
  | selected (solver : Solver) (kind : ProblemKind) (condition : String)
  | finished (kind : ProblemKind) (solver : Option Solver) (warnings : Nat)

namespace Event

variable {α : Type}

/-- The name of the part of the program that leaves the event. -/
def origin : Event α → String
  | reported _ => "dfo_prep.core.diagnostics"
  | removedRows _ _ => "dfo_prep.preprocess.linear"
  | notConverged _ => "dfo_prep.transforms.projection"
  | kept _ | selected _ _ _ => "dfo_prep.solver.selection"
  | _ => "dfo_prep.pipeline"

def text [Interchange α] : Event α → Text
  | reported d => d.id ++ " " ++ d.message
  | removedRows ineq eq =>
    "removed " ++ toString ineq ++ " trivial inequalities and " ++ toString eq
      ++ " trivial equalities"
  | infeasible => "problem is infeasible"
  | eliminated before after => "reduced dimension " ++ toString before ++ " -> " ++ toString after
  | classified raw refined => "problem type " ++ raw.name ++ " -> " ++ refined.name
  | stretched ratio =>
    "substantially scaled (ratio " ++ Numeral.rounded 3 (Interchange.toDouble ratio)
      ++ "); rhobeg reset to 1"
  | notConverged reason => "x0 projection did not converge: " ++ reason
  | kept solver => "keeping requested solver " ++ solver.name
  | selected solver kind condition =>
    "selected " ++ solver.name ++ " for " ++ kind.name ++ " problem (" ++ condition ++ ")"
  | finished kind solver warnings =>
    "prepared " ++ kind.name ++ " problem for " ++ (solver.elim "None" Solver.name) ++ " with "
      ++ toString warnings ++ " warning(s)"

/-- The line of the trace. -/
def line [Interchange α] (e : Event α) : Text := "[DEBUG] " ++ e.origin ++ ": " ++ e.text

end Event

/-- The diagnostics and the trace of a preparation. -/
structure Journal (α : Type) where
  log : DiagnosticLog (Diagnostic α) := {}
  trace : List (Event α) := []

/-- A computation that keeps a journal, may end in a fault, and knows which warnings end it. -/
abbrev Prep (α : Type) := ReaderT (Option Category) (ExceptT Fault (StateM (Journal α)))

namespace Prep

variable {α β : Type}

/-- Runs a computation from an empty journal. -/
def run (escalated : Option Category) (p : Prep α β) : Except Fault β × Journal α :=
  (ReaderT.run p escalated).run.run {}

/-- Leaves an event in the trace. -/
def leave (e : Event α) : Prep α Unit :=
  modify fun j => { j with trace := j.trace ++ [e] }

/-- Reports an anomaly in the name of an invoker. -/
def report [Interchange α] (source : String) (anomaly : Anomaly α) : Prep α Unit := do
  let d : Diagnostic α := ⟨source, anomaly⟩
  let escalated ← read
  let j ← get
  let (result, log) := j.log.add false escalated d
  set (Journal.mk log (j.trace ++ [Event.reported d]))
  liftM result

/-- The diagnostics so far. -/
def diagnostics : Prep α (List (Diagnostic α)) :=
  return (← get).log.entries

end Prep
end Presolve
