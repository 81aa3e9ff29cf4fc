import Presolve.CommandLine.Words

/-!
# Help

The page of help of each level of the command line. A page has eighty columns, and the texts about
long switches stand on a line of their own.
-/

namespace Presolve.CommandLine

/-- The names of the commands between braces. -/
def commandChoices : String :=
  "\x7b" ++ ",".intercalate (CommandName.all.map CommandName.name) ++ "\x7d"

/-- The names of the invokers between braces. -/
def invokerChoices : String :=
  "\x7b" ++ ",".intercalate (Invoker.all.map Invoker.name) ++ "\x7d"

/-- What a command does. -/
def CommandName.summary : CommandName → String
  | inspect => "Preprocess a JSON problem"
  | solvers => "Print solver compatibility"
  | version => "Print version"

/-- An entry of a page: what it is about, filled up to the column of the text, and the text. -/
def helpEntry (column : Nat) (subject text : String) : String :=
  "  " ++ subject ++ String.ofList (List.replicate (column - 2 - subject.length) ' ') ++ text

/-- A text on a line of its own. -/
def helpText (text : String) : String := helpEntry 24 "" text

/-- The entry about help itself. -/
def helpOnHelp (column : Nat) : String :=
  helpEntry column "-h, --help" "show this help message and exit"

/-- The page of a level. -/
def Level.page : Level → List String
  | none =>
    ["usage: dfo-prep [-h] [--verbose] " ++ commandChoices ++ " ...",
     "",
     "dfo-prep - Problem Preprocessing for Derivative-Free Optimization",
     "",
     "positional arguments:",
     "  " ++ commandChoices,
     helpText "Commands"]
    ++ (CommandName.all.map fun c => helpEntry 24 ("  " ++ c.name) c.summary) ++
    ["",
     "options:",
     helpOnHelp 24,
     helpEntry 24 "--verbose, -v" "Log pipeline stages to stderr"]
  | some .inspect =>
    let indent := String.ofList (List.replicate 24 ' ')
    ["usage: dfo-prep inspect [-h]",
     indent ++ "[--invoker " ++ invokerChoices ++ "]",
     indent ++ "[--output OUTPUT]",
     indent ++ "problem",
     "",
     "positional arguments:",
     helpEntry 24 "problem" "Problem JSON file",
     "",
     "options:",
     helpOnHelp 24,
     "  --invoker " ++ invokerChoices ++ ", -i " ++ invokerChoices,
     helpText "Invoker (default: pdfo)",
     "  --output OUTPUT, -o OUTPUT",
     helpText "Output JSON file"]
  | some name =>
    ["usage: dfo-prep " ++ name.name ++ " [-h]",
     "",
     "options:",
     helpOnHelp 14]

end Presolve.CommandLine
