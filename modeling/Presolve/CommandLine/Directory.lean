import Presolve.CommandLine.Session
import Presolve.Transform.NearestPoint

/-!
# A directory in memory

A directory of text files without subdirectories, on which sessions can be run one after the other. It
is the only directory there is: a path that leads out of it leads nowhere.
-/

namespace Presolve.CommandLine

/-- Files by their names. -/
structure Directory where
  files : List (String × String)
deriving DecidableEq, Repr

namespace Directory

/-- The steps of a path inside the directory; none for a path that starts elsewhere. -/
def steps? (path : String) : Option (List String) :=
  if path.isEmpty || path.startsWith "/" then none
  else some ((path.splitOn "/").filter fun step => step != "" && step != ".")

/-- The text of the file of a name. -/
def text? (d : Directory) (name : String) : Option String :=
  (d.files.find? fun file => file.1 == name).map (·.2)

/-- Reads the file at a path. -/
def read (d : Directory) (path : String) : Except FileError String :=
  match steps? path with
  | none => .error (if path.startsWith "/" && path.all (· == '/') then .isDirectory else .notFound)
  | some [] => .error .isDirectory
  | some [name] =>
    match d.text? name with
    | some text => if path.endsWith "/" then .error .notDirectory else .ok text
    | none => .error .notFound
  | some (name :: _) => .error (if (d.text? name).isSome then .notDirectory else .notFound)

/-- Can a file be written at a path? -/
def create (d : Directory) (path : String) : Except FileError Unit :=
  match d.read path, steps? path with
  | .ok _, _ => .ok ()
  | .error .notFound, some [_] => if path.endsWith "/" then .error .isDirectory else .ok ()
  | .error e, _ => .error e

/-- Writes a file. -/
def write (d : Directory) (path text : String) : Directory :=
  let name := ((steps? path).getD []).headD path
  ⟨(name, text) :: d.files.filter fun file => file.1 != name⟩

def toFiles (d : Directory) : Files := ⟨d.read, d.create⟩

/-- Runs a session: its outcome, and the directory afterwards. -/
def run (d : Directory) (texts : List String) : Outcome × Directory :=
  let outcome := CommandLine.run nearestPoint d.toFiles texts
  (outcome, match outcome.kept with
    | some (path, text) => d.write path text
    | none => d)

end Directory
end Presolve.CommandLine
