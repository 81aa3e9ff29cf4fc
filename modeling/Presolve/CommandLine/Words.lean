import Presolve.Solver.Name

/-!
# The words of a command line

Each level of the command line has its own switches. The words of a level are first told apart: the
separator `--`, operands, and switches, which may be abbreviated and may carry their argument. Behind
the separator all words are operands. A word that starts with a dash and is no switch is still not an
operand, unless it is a negative number or holds a blank.

Switches of one letter can share a word, as in `-vh`, as long as only the last takes an argument.
-/

namespace Presolve.CommandLine

/-! ## Commands and pages -/

inductive CommandName where
  | inspect
  | solvers
  | version
deriving DecidableEq, Repr

namespace CommandName

def all : List CommandName := [inspect, solvers, version]

def name : CommandName → String
  | inspect => "inspect"
  | solvers => "solvers"
  | version => "version"

def ofName? (name : String) : Option CommandName := all.find? fun c => c.name == name

end CommandName

/-- A level of the command line: that of the program, or that of a command. -/
abbrev Level := Option CommandName

/-- Why the words are no arguments: help was asked for, or they cannot be understood. -/
inductive Stop where
  | help (level : Level)
  | usage
deriving DecidableEq, Repr

/-! ## Switches -/

inductive Switch where
  | help
  | verbose
  | invoker
  | output
deriving DecidableEq, Repr

namespace Switch

/-- The spellings of a switch. -/
def spellings : Switch → List String
  | help => ["-h", "--help"]
  | verbose => ["--verbose", "-v"]
  | invoker => ["--invoker", "-i"]
  | output => ["--output", "-o"]

def takesArgument : Switch → Bool
  | invoker | output => true
  | help | verbose => false

end Switch

/-- The switches of a level. -/
def Level.switches : Level → List Switch
  | none => [.help, .verbose]
  | some .inspect => [.help, .invoker, .output]
  | some .solvers | some .version => [.help]

/-- The switches of a level, spelling by spelling. -/
def Level.spellings (level : Level) : List (String × Switch) :=
  level.switches.flatMap fun s => s.spellings.map fun spelling => (spelling, s)

/-- The switch of a spelling. -/
def Level.switch? (level : Level) (spelling : String) : Option Switch :=
  (level.spellings.find? fun entry => entry.1 == spelling).map (·.2)

/-! ## Classes of words -/

inductive Word where
  | operand (text : String)
  | separator
  /-- A switch under one of its spellings, with the argument in the same word. -/
  | switch (spelling : String) (s : Switch) (attached : Option String)
  /-- No switch of this level. -/
  | foreign (text : String)
deriving DecidableEq, Repr

namespace Word

/-- A word in front of its first equals sign, and what is behind it. -/
def splitEquals (text : String) : String × Option String :=
  let chars := text.toList
  let name := String.ofList (chars.takeWhile (· ≠ '='))
  match chars.dropWhile (· ≠ '=') with
  | _ :: rest => (name, some (String.ofList rest))
  | [] => (name, none)

/-- The switches that a word may stand for. A long one may be cut short; behind a short one there may
be its argument. -/
def candidates (level : Level) (text : String) : List Word :=
  match text.toList with
  | '-' :: '-' :: _ =>
    let (name, attached) := splitEquals text
    (level.spellings.filter fun entry => entry.1.startsWith name).map fun entry =>
      switch entry.1 entry.2 attached
  | dash :: letter :: rest =>
    let name := String.ofList [dash, letter]
    (level.spellings.filter fun entry => entry.1 == name).map fun entry =>
      switch entry.1 entry.2 (some (String.ofList rest))
  | _ => []

/-- Digits, and at most one point in front of a digit. -/
def isNegativeNumber (text : String) : Bool :=
  match text.toList with
  | '-' :: rest =>
    match rest.dropWhile Char.isDigit with
    | [] => !rest.isEmpty
    | '.' :: places => !places.isEmpty && places.all Char.isDigit
    | _ => false
  | _ => false

/-- The class of a word that is not the separator. -/
def classify (level : Level) (text : String) : Except Stop Word :=
  if !text.startsWith "-" || text = "-" then .ok (operand text)
  else
    match level.switch? text with
    | some s => .ok (switch text s none)
    | none =>
      let (name, attached) := splitEquals text
      match attached, level.switch? name with
      | some argument, some s => .ok (switch name s (some argument))
      | _, _ =>
        match candidates level text with
        | [word] => .ok word
        | _ :: _ :: _ => .error .usage
        | [] =>
          if isNegativeNumber text || text.toList.contains ' ' then .ok (operand text)
          else .ok (foreign text)

/-- The classes of the words of a level. -/
def ofTexts (level : Level) : List String → Except Stop (List Word)
  | [] => .ok []
  | text :: rest =>
    if text = "--" then .ok (separator :: rest.map operand)
    else do return (← classify level text) :: (← ofTexts level rest)

end Word

/-! ## What a switch asks for -/

/-- A switch and its argument. The separator in place of an argument leaves it without one. -/
structure Request where
  switch : Switch
  argument : Option String
deriving DecidableEq, Repr

namespace Request

/-- A request with the given argument. -/
def withArgument (s : Switch) (text : String) : Request :=
  ⟨s, if text = "--" then none else some text⟩

/-- A request whose argument is the next word; its rest is what the request leaves of the words. -/
def takeNext (s : Switch) (next : List Word) : Except Stop (Request × Nat) :=
  if s.takesArgument then
    match next with
    | .operand text :: _ => .ok (withArgument s text, 1)
    | _ => .error .usage
  else .ok (⟨s, none⟩, 0)

/-- The requests of the letters in one word. -/
def ofLetters (level : Level) (next : List Word) : List Char → Except Stop (List Request × Nat)
  | [] => .ok ([], 0)
  | c :: rest =>
    match level.switch? (String.ofList ['-', c]) with
    | none => .error .usage
    | some s =>
      if rest.isEmpty then (takeNext s next).map fun (r, n) => ([r], n)
      else if s.takesArgument then .ok ([withArgument s (String.ofList rest)], 0)
      else (ofLetters level next rest).map fun (rs, n) => (⟨s, none⟩ :: rs, n)

/-- The requests of a switch, and how many of the next words they use up. -/
def ofSwitch (level : Level) (spelling : String) (s : Switch) (attached : Option String)
    (next : List Word) : Except Stop (List Request × Nat) :=
  match attached with
  | none => (takeNext s next).map fun (r, n) => ([r], n)
  | some text =>
    if s.takesArgument then .ok ([withArgument s text], 0)
    else if spelling.startsWith "--" || text.isEmpty then .error .usage
    else (ofLetters level next text.toList).map fun (rs, n) => (⟨s, none⟩ :: rs, n)

end Request
end Presolve.CommandLine
