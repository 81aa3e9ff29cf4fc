import Presolve.CommandLine.Session
import Presolve.Transform.NearestPoint

/-!
# The program

Runs a session on the files of the machine. The file that a command reads is read beforehand, and the
file that it keeps is written afterwards; if that fails, the session is told so.
-/

namespace Presolve.CommandLine

/-- Why a file could not be opened, as far as sessions tell the reasons apart. -/
def fileError : IO.Error → FileError
  | .permissionDenied .. => .notPermitted
  | .inappropriateType .. => .isDirectory
  | _ => .notFound

/-- The text of a file. -/
def readText (path : String) : IO (Except FileError String) := do
  try
    return .ok (← IO.FS.readFile path)
  catch e => return .error (fileError e)

/-- Writes a file. -/
def writeText (path text : String) : IO (Except FileError Unit) := do
  try
    IO.FS.writeFile path text
    return .ok ()
  catch e => return .error (fileError e)

/-- The text of the file that a command reads. -/
def readProblem (texts : List String) : IO (Except FileError String) :=
  match Arguments.ofTexts texts with
  | .ok ⟨_, some (.inspect path _ _)⟩ => readText path
  | _ => return .error .notFound

/-- The message about a fault that the program does not expect. -/
def unexpectedLine : Fault → String
  | .file e path => e.message path
  | .badValue message => message
  | .missingKey text => text.replaced
  | .unencodable => "a line of the report holds what no bytes stand for"
  | _ => "the problem file holds a value that cannot be used"

/-- Shows the outcome of a session and gives its exit code. -/
def finish (o : Outcome) : IO UInt32 := do
  for line in o.trace do IO.eprintln line
  for line in o.output do IO.println line
  match o.exit with
  | .ok code =>
    if code = usageError then
      for line in (Level.page none).take 1 do IO.eprintln line
    return code.toUInt32
  | .error f =>
    IO.eprintln (unexpectedLine f)
    return 1

end Presolve.CommandLine

open Presolve Presolve.CommandLine in
/-- Answers the command line. -/
def main (texts : List String) : IO UInt32 := do
  let text ← readProblem texts
  let outcome := run nearestPoint ⟨fun _ => text, fun _ => .ok ()⟩ texts
  match outcome.kept with
  | none => finish outcome
  | some (path, kept) =>
    let written ← writeText path kept
    finish (run nearestPoint ⟨fun _ => text, fun _ => written⟩ texts)
