import Presolve.Value.Basic

/-!
# Levels of the trace

A line of the trace has a level, and a logger shows the lines from its threshold on. Levels are
integers; six of them have names, two of those a second one.

The integer that a threshold was set to may have been a truth value. It counts as an integer then, but
it is still shown as what it was.
-/

namespace Presolve.Trace

/-! ## Names -/

/-- The names of levels, the first of each level being the one that is shown. -/
def levelNames : List (String × Int) :=
  [("CRITICAL", 50), ("ERROR", 40), ("WARNING", 30), ("INFO", 20), ("DEBUG", 10), ("NOTSET", 0),
   ("FATAL", 50), ("WARN", 30)]

/-- The level of warnings, which loggers start from. -/
def warning : Int := 30

/-- The level of a name. -/
def level? (name : String) : Option Int :=
  (levelNames.find? fun entry => entry.1 == name).map (·.2)

/-- The capital letters of ASCII that a character is written with: besides the small letters the
dotless i, the long s and the two ligatures of s and t have some. -/
def capital (c : Char) : List Char :=
  if c = 'ı' then ['I']
  else if c = 'ſ' then ['S']
  else if c = 'ﬅ' ∨ c = 'ﬆ' then ['S', 'T']
  else [c.toUpper]

/-- A text in capital letters. -/
def capitals (text : String) : String := String.ofList (text.toList.flatMap capital)

/-! ## Integers -/

/-- An integer that may have been given as a truth value. -/
structure Level where
  number : Int
  isFlag : Bool
deriving DecidableEq, Repr

namespace Level

def ofInt (number : Int) : Level := ⟨number, false⟩

/-- The text of the integer as it was given. -/
def digits (l : Level) : String :=
  if l.isFlag then (if l.number = 0 then "False" else "True") else toString l.number

/-- The name of a level: one of the six, or its number. -/
def name (l : Level) : String :=
  match levelNames.find? fun entry => entry.2 == l.number with
  | some (name, _) => name
  | none => "Level " ++ l.digits

variable {α : Type}

/-- The integer that a value is. -/
def ofValue (v : Value α) : Except Fault Level :=
  match v with
  | .int i => .ok ⟨i, false⟩
  | .bool b => .ok ⟨if b then 1 else 0, true⟩
  | _ => .error .wrongType

/-- The threshold that a value asks for: an integer, or a name in any case. A name of no level stands
for warnings. Two names are taken by what is no level, the basic format and the table of styles. -/
def thresholdOfValue (v : Value α) : Except Fault Level :=
  match v.text? with
  | some t =>
    let name := (t.string?.map capitals).getD ""
    if name = "BASIC_FORMAT" then .error (.badValue "Unknown level")
    else if name = "_STYLES" then .error .wrongType
    else .ok (ofInt ((level? name).getD warning))
  | none => ofValue v

end Level
end Presolve.Trace
