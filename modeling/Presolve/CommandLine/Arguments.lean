import Presolve.CommandLine.Words

/-!
# Arguments

What the words of a command line ask for. The first operand of the program is a command, which gets
all words behind it; `inspect` has one operand, the problem. Switches are obeyed in the order they
come, so that help is given before a later word can be wrong, and words that nobody takes are an error
in the end.
-/

namespace Presolve.CommandLine

inductive Command where
  /-- Without an invoker the preparation has nobody to be prepared for, and fails. -/
  | inspect (problem : String) (invoker : Option Invoker) (output : Option String)
  | solvers
  | version
deriving DecidableEq, Repr

structure Arguments where
  verbose : Bool
  command : Option Command
deriving DecidableEq, Repr

/-! ## One level -/

/-- What the words of a level have asked for so far. -/
structure Progress where
  verbose : Bool := false
  invoker : Option Invoker := some .frontEnd
  output : Option String := none
  operand : Option String := none
  command : Option Command := none
  leftOver : Bool := false

/-- Obeys a request. -/
def Progress.obey (level : Level) (p : Progress) (r : Request) : Except Stop Progress :=
  match r.switch with
  | .help => .error (.help level)
  | .verbose => .ok { p with verbose := true }
  | .output => .ok { p with output := r.argument }
  | .invoker =>
    match r.argument with
    | none => .ok { p with invoker := none }
    | some name =>
      match Invoker.ofName? name with
      | some invoker => .ok { p with invoker := some invoker }
      | none => .error .usage

/-- Takes operands: the new progress and how many words it used up beyond the first, or nothing. -/
abbrev TakeOperands := Progress → Word → List Word → Except Stop (Option (Progress × Nat))

/-- Goes through the words of a level from the left. -/
def walk (level : Level) (take : TakeOperands) (p : Progress) (words : List Word) :
    Except Stop Progress :=
  match words with
  | [] => .ok p
  | .switch spelling s attached :: rest => do
    let (requests, count) ← Request.ofSwitch level spelling s attached rest
    let p ← requests.foldlM (Progress.obey level) p
    walk level take p (rest.drop count)
  | .foreign _ :: rest => walk level take { p with leftOver := true } rest
  | word :: rest => do
    match ← take p word rest with
    | some (p, count) => walk level take p (rest.drop count)
    | none => walk level take { p with leftOver := true } rest
termination_by words.length
decreasing_by all_goals (simp_wf; try omega)

/-! ## Commands -/

/-- One operand, in front of which or behind which the separator may stand. -/
def takeProblem : TakeOperands := fun p word rest =>
  .ok (
    if p.operand.isSome then none
    else match word, rest with
    | .operand text, .separator :: _ => some ({ p with operand := some text }, 1)
    | .operand text, _ => some ({ p with operand := some text }, 0)
    | .separator, .operand text :: _ => some ({ p with operand := some text }, 1)
    | _, _ => none)

def takeNothing : TakeOperands := fun _ _ _ => .ok none

/-- The words behind a command. -/
def readCommand (name : CommandName) (texts : List String) : Except Stop (Command × Bool) := do
  let words ← Word.ofTexts (some name) texts
  match name with
  | .inspect =>
    let p ← walk (some .inspect) takeProblem {} words
    match p.operand with
    | some problem =>
      return (.inspect problem p.invoker (p.output.filter fun path => path != ""), p.leftOver)
    | none => throw .usage
  | .solvers => return (.solvers, (← walk (some .solvers) takeNothing {} words).leftOver)
  | .version => return (.version, (← walk (some .version) takeNothing {} words).leftOver)

/-- The first operand is a command and takes all words behind it, of which `texts` are the last. -/
def takeCommand (texts : List String) : TakeOperands := fun p word rest =>
  match word, rest with
  | .operand text, _ =>
    match CommandName.ofName? text with
    | none => .error .usage
    | some name => do
      let (command, leftOver) ← readCommand name (texts.drop (texts.length - rest.length))
      return some ({ p with command := some command, leftOver := p.leftOver || leftOver }, rest.length)
  | .separator, .operand _ :: _ => .error .usage
  | _, _ => .ok none

/-- The arguments that the words of a command line stand for. -/
def Arguments.ofTexts (texts : List String) : Except Stop Arguments := do
  let words ← Word.ofTexts none texts
  let p ← walk none (takeCommand texts) {} words
  if p.leftOver then throw .usage
  return ⟨p.verbose, p.command⟩

end Presolve.CommandLine
