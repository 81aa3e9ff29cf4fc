import Presolve.CommandLine.ProblemFile
import Presolve.Preparation

/-!
# Inspecting a problem

A problem is prepared, and what was found and done is reported in lines of text. The report can also
be kept as JSON data, next to the settings and the fingerprint of the record.
-/

namespace Presolve.CommandLine

/-! ## Lines -/

/-- A rule across the page. -/
def rule (c : Char) : String := String.ofList (List.replicate 60 c)

/-- The first numbers of a vector. -/
def preview (xs : List Float) : String :=
  "[" ++ ", ".intercalate ((xs.take 5).map (Numeral.rounded 6))
    ++ (if 5 < xs.length then ", ..." else "") ++ "]"

/-- The lines about what a preparation found and did. -/
def summaryLines (path : String) (r : Record Float) : List String :=
  [rule '=', "Problem: " ++ path, rule '=',
   "Invoker: " ++ r.invoker.name,
   "Solver: " ++ r.solver.elim "-" Solver.name,
   "Dimension: " ++ toString r.rawDimension ++ " -> " ++ toString r.refinedDimension,
   "Type: " ++ r.rawKind.name ++ " -> " ++ r.refinedKind.name,
   "Infeasible: " ++ boolText r.facts.infeasible,
   "All variables fixed: " ++ boolText r.facts.allFixed]
  ++ (match r.fixedViolation with
    | some v => ["Constraint violation at fixed point: " ++ Numeral.scientific 6 v]
    | none => [])
  ++ ["Reduced: " ++ boolText r.isReduced, "Scaled: " ++ boolText r.isScaled]
  ++ (match r.rescaling with
    | some s => ["Scaling factor: " ++ preview s.factor]
    | none => [])
  ++ ["x0: " ++ preview r.problem.start,
   "npt=" ++ r.settings.npt.elim "None" toString ++ " maxfun=" ++ toString r.settings.maxfun
     ++ " rhobeg=" ++ Numeral.rounded 6 r.settings.rhobeg
     ++ " rhoend=" ++ Numeral.rounded 6 r.settings.rhoend]

/-- The lines about the diagnostics. -/
def warningLines (r : Record Float) : List Text :=
  ["", rule '-', "WARNINGS (" ++ toString r.diagnostics.length ++ ")", rule '-'].map Text.ofString
  ++ r.diagnostics.map fun d => Text.ofString (d.id ++ ": ") ++ d.message

/-! ## The report -/

/-- The report on a preparation. If its record has no fingerprint, the lines end in front of it. -/
structure Report where
  lines : List Text
  data : Except Fault (Json Float)

/-- The report on the record of a problem. -/
def Report.ofRecord (path : String) (r : Record Float) : Report :=
  let lines := (summaryLines path r).map Text.ofString ++ warningLines r
  let identified : Except Fault (Json Float × String) := do
    let info ← r.toJson
    return (info, ← fingerprint info)
  match identified with
  | .error f => ⟨lines, .error f⟩
  | .ok (info, digest) =>
    { lines := lines ++ ["", "Fingerprint: " ++ digest].map Text.ofString
      data := .ok (.object [
        ("problem", .text path), ("info", info), ("options", r.settings.toJson),
        ("fingerprint", .text digest)]) }

/-- The text in which the data of a report are kept. -/
def keptText (data : Json Float) : Except Fault String := canonicalText (.lines 2) data

/-! ## The preparation -/

/-- The line about a file that cannot be read as a problem. Other faults are not about the file. -/
def fileComplaint? : Fault → Option String
  | .file error path => some ("Error: " ++ error.message path)
  | .badValue message => some ("Error: " ++ message)
  | .missingKey text => some ("Error: " ++ Text.quoted text)
  | _ => none

/-- The line about a problem that cannot be prepared. -/
def problemComplaint? (f : Fault) : Option String :=
  f.report?.map fun (_, message, id) => "Error [" ++ id ++ "]: " ++ message

/-- Prepares a problem for an invoker. -/
def prepareFile (search : NearestSearch Float) (invoker : Option Invoker) (p : ProblemFile) :
    Prep Float (Record Float) :=
  match invoker with
  | some invoker => prepareFields search invoker p.toValue
  | none => throw (.defect .unknownInvoker)

end Presolve.CommandLine
