import Presolve.Value.Layout

/-!
# The text of a value

How a value is shown in messages and, where JSON has no form for it, in data. `shown` shows a
text as it is, and `literal` shows it in quotes; inside lists, tuples and dictionaries items are
always shown as literals.

Integers are written up to a number of digits only. A value that holds a longer one has no text:
`toText` and `toLiteral` fail.
-/

namespace Presolve

variable {α : Type} [Interchange α]

namespace Value

/-- The name of a value of a closed set. -/
def constantName (type name : String) : String :=
  type ++ "." ++ (name.map fun c => if c = '-' then '_' else c).toUpper

/-- A value of a closed set with its name and its text. -/
def constantLiteral (type name : String) : String :=
  "<" ++ constantName type name ++ ": " ++ Text.quoted name ++ ">"

/-- Items between brackets, with commas between them. -/
def bracketed (opening closing : String) (items : List String) : String :=
  opening ++ ", ".intercalate items ++ closing

/-- A single entry of a type, a text among them in quotes. -/
def cellWord (type : CellType) : Cell α → String
  | .bool b => boolText b
  | .int i => toString i
  | .real x => if type = .single then Numeral.shortestSingle (Interchange.toDouble x) else shortestText x
  | .complex re im => complexText re im
  | .text s => s.quoted
  | .bytes bs => Text.quotedBytes bs
  | .absent | .opaqueItem => "None"

/-- A single entry of a type as a text. -/
def cellText (type : CellType) : Cell α → Text
  | .text s => s
  | cell => cellWord type cell

/-- A single entry of a type as a literal: its text behind the name of the type. -/
def cellLiteral (type : CellType) (cell : Cell α) : String :=
  match cell with
  | .bool b => "np." ++ boolText b ++ "_"
  | cell =>
    let inner := match cell with
      | .complex re im => complexParts re im
      | cell => cellWord type cell
    "np." ++ type.name ++ "(" ++ inner ++ ")"

/-- The literal of a value as an item of an array: lists are marked, since the brackets of an array
look the same. -/
def markList (item : Value α) (inner : String) : String :=
  match item with
  | list _ => bracketed "list(" ")" [inner]
  | _ => inner

mutual

/-- A value as a literal. -/
def literal : Value α → String
  | absent => "None"
  | bool b => boolText b
  | int i => toString i
  | real x => shortestText x
  | complex re im => complexText re im
  | text s => s.quoted
  | bytes bs => Text.quotedBytes bs
  | list items => bracketed "[" "]" (literals items)
  | tuple [item] => "(" ++ item.literal ++ ",)"
  | tuple items => bracketed "(" ")" (literals items)
  | mapping entries => bracketed "\x7b" "\x7d" (entryLiterals entries)
  | entry type cell => cellLiteral type cell
  | array grid => grid.literal
  | objects shape items => arrayLiteral (some "object") shape (List.zipWith markList items (literals items))
  | kind k => constantLiteral "ProblemType" k.name
  | solver s => constantLiteral "Solver" s.name
  | invoker i => constantLiteral "Invoker" i.name
  | options fields =>
    bracketed "Options(" ")" (OptionName.all.map fun name => name.key ++ "=" ++ (fields name).literal)
  | function view none _ => "<" ++ (view.ownName?.elim (view.typeName ++ " object") ("function " ++ ·)) ++ ">"
  | function view (some parts) _ => bracketed (view.typeName ++ "(") ")" (partLiterals parts)

def literals : List (Value α) → List String
  | [] => []
  | item :: rest => item.literal :: literals rest

def entryLiterals : List (Value α × Value α) → List String
  | [] => []
  | (key, value) :: rest => (key.literal ++ ": " ++ value.literal) :: entryLiterals rest

def partLiterals : List (String × Value α) → List String
  | [] => []
  | (name, value) :: rest => (name ++ "=" ++ value.literal) :: partLiterals rest

end

/-- A value as a text: texts, entries and names of closed sets as they are, arrays without the name of
their type, all else as a literal. -/
def shown : Value α → Text
  | text s => s
  | entry type cell => cellText type cell
  | array grid =>
    match grid.cells.shape, grid.cells.entries with
    | [], [cell] => cellText grid.type cell
    | shape, entries => arrayText shape (cellTexts grid.type false entries)
  | objects [] [item] => item.shown
  | objects shape items => arrayText shape (items.map fun item => item.markList item.literal)
  | kind k => k.constant
  | solver s => constantName "Solver" s.name
  | invoker i => constantName "Invoker" i.name
  | value => value.literal

/-! ## Values that can be written -/

end Value

/-- Can an entry be written? Only an integer can be too long. -/
def Cell.isWritable : Cell α → Bool
  | .int i => Decimal.isWritable i
  | _ => true

namespace Value

mutual

/-- Can a value be written? Not if there is an integer of too many digits in it. -/
def isWritable : Value α → Bool
  | int i => Decimal.isWritable i
  | list items => areWritable items
  | tuple items => areWritable items
  | mapping entries => areWritableEntries entries
  | entry _ cell => cell.isWritable
  | array grid => grid.cells.entries.all Cell.isWritable
  | objects _ items => areWritable items
  | options fields => OptionName.all.all fun name => (fields name).isWritable
  | function _ (some parts) _ => areWritableParts parts
  | _ => true

def areWritable : List (Value α) → Bool
  | [] => true
  | item :: rest => item.isWritable && areWritable rest

def areWritableEntries : List (Value α × Value α) → Bool
  | [] => true
  | (key, value) :: rest => key.isWritable && value.isWritable && areWritableEntries rest

def areWritableParts : List (String × Value α) → Bool
  | [] => true
  | (_, value) :: rest => value.isWritable && areWritableParts rest

end

/-- The text of a value that can be written. -/
def toText (v : Value α) : Except Fault Text :=
  if v.isWritable then .ok v.shown else .error .tooManyDigits

/-- The literal of a value that can be written. -/
def toLiteral (v : Value α) : Except Fault String :=
  if v.isWritable then .ok v.literal else .error .tooManyDigits

end Value
end Presolve
