import Presolve.CommandLine.Arguments
import Presolve.CommandLine.Help
import Presolve.CommandLine.Inspection

/-!
# A session

What the program answers to a command line: an exit code, the lines for the reader, the trace if it
was asked for, and a file to keep. The files of the machine are seen through `Files`, so that a
session is a function. How the nearest point is searched for is left open.
-/

namespace Presolve.CommandLine

/-- The files of the machine: their texts, and whether a file can be written at a path. -/
structure Files where
  read : String → Except FileError String
  create : String → Except FileError Unit

/-- What a session ends in. A fault is one that the program does not expect. -/
structure Outcome where
  exit : Except Fault Nat
  output : List String := []
  trace : List String := []
  /-- A file that is written, with its text. -/
  kept : Option (String × String) := none

/-- The exit code for words that are no arguments. -/
def usageError : Nat := 2

/-! ## Commands -/

/-- The table of the kinds of problems that each solver handles. -/
def solverLines : List String :=
  let cell (text : String) : String :=
    String.ofList (List.replicate (24 - text.length) ' ') ++ text
  let label (text : String) : String :=
    text ++ String.ofList (List.replicate (8 - text.length) ' ') ++ " "
  let row (name : String) (mark : ProblemKind → String) : String :=
    label name ++ " ".intercalate (ProblemKind.all.map fun k => cell (mark k))
  let header := row "solver" ProblemKind.name
  [header, String.ofList (List.replicate header.length '-')]
  ++ (Solver.all.map fun s => row s.name fun k => if s.handles k then "yes" else "-")
  ++ [""]
  ++ Solver.all.map fun s => label s.name ++ s.summary

def version : String := "0.1.0"

def versionLines : List String :=
  ["dfo-prep " ++ version, "Problem preprocessing for derivative-free optimization"]

/-- The problem in the file at a path. -/
def load (files : Files) (path : String) : Except Fault ProblemFile := do
  let text ← (files.read path).mapError fun e => Fault.file e path
  ProblemFile.read path text

/-- Prints lines one after the other. No bytes stand for a half, so that a line with one is not
printed, and nothing after it. -/
def printed : List Text → List String × Except Fault Unit
  | [] => ([], .ok ())
  | line :: rest =>
    match line.string? with
    | none => ([], .error .unencodable)
    | some line =>
      let (lines, result) := printed rest
      (line :: lines, result)

/-- Prints the report on a record, and keeps its data in a file if that is asked for. A file whose text
cannot be made is there, but empty. -/
def report (files : Files) (path : String) (record : Record Float) (output : Option String) : Outcome :=
  let report := Report.ofRecord path record
  match printed report.lines, report.data, output with
  | (lines, .error f), _, _ => { exit := .error f, output := lines }
  | (lines, .ok ()), .error f, _ => { exit := .error f, output := lines }
  | (lines, .ok ()), .ok _, none => { exit := .ok 0, output := lines }
  | (lines, .ok ()), .ok data, some target =>
    match files.create target, keptText data with
    | .error e, _ => { exit := .error (.file e target), output := lines }
    | .ok (), .error f => { exit := .error f, output := lines, kept := some (target, "") }
    | .ok (), .ok text =>
      { exit := .ok 0
        output := lines ++ ["", "Results saved to: " ++ target]
        kept := some (target, text) }

/-- Reads, prepares and reports a problem. -/
def inspect (search : NearestSearch Float) (files : Files) (path : String) (invoker : Option Invoker)
    (output : Option String) : Outcome :=
  match load files path with
  | .error f =>
    match fileComplaint? f with
    | some line => { exit := .ok 1, output := [line] }
    | none => { exit := .error f }
  | .ok file =>
    let (result, journal) := (prepareFile search invoker file).run none
    let trace := journal.trace.map fun event => event.line.replaced
    match result with
    | .error f =>
      match problemComplaint? f with
      | some line => { exit := .ok 1, output := [line], trace }
      | none => { exit := .error f, trace }
    | .ok record => { report files path record output with trace }

/-! ## Sessions -/

/-- The answer to the words of a command line. -/
def run (search : NearestSearch Float) (files : Files) (texts : List String) : Outcome :=
  match Arguments.ofTexts texts with
  | .error (.help level) => { exit := .ok 0, output := level.page }
  | .error .usage => { exit := .ok usageError }
  | .ok arguments =>
    match arguments.command with
    | none => { exit := .ok 0, output := Level.page none }
    | some .solvers => { exit := .ok 0, output := solverLines }
    | some .version => { exit := .ok 0, output := versionLines }
    | some (.inspect path invoker output) =>
      let outcome := inspect search files path invoker output
      if arguments.verbose then outcome else { outcome with trace := [] }

end Presolve.CommandLine
