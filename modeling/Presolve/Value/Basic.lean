import Presolve.Fault
import Presolve.Solver.Option
import Presolve.Value.Cell
import Presolve.Value.Tensor

/-!
# The values a caller passes

A problem arrives as plain values of any type: numbers, nested lists, arrays, functions, or
something that makes no sense at all. `Value` is that type. What a value is good for is asked in
`Value/Nest` (is it an array, and of what type?), `Value/Reals` (what are its entries as numbers?),
`Value/Shape` (is it a vector, a matrix, a flag?) and `Value/Text` (how is it shown?).
-/

namespace Presolve

/-! ## Arrays -/

/-- An array whose entries are taken for one type. -/
structure Grid (α : Type) where
  type : CellType
  cells : Tensor (Cell α)

/-! ## Values -/

/-- How a function is shown: the name of its type, and its own name if it has one. -/
structure FunctionView where
  typeName : String
  ownName? : Option String
deriving DecidableEq, Repr

/-- A value that a caller passes or that a caller's function returns. -/
inductive Value (α : Type) where
  | absent
  | bool (b : Bool)
  | int (i : Int)
  | real (x : α)
  | complex (re im : α)
  | text (s : Text)
  | bytes (bs : List UInt8)
  | list (items : List (Value α))
  | tuple (items : List (Value α))
  | mapping (entries : List (Value α × Value α))
  /-- A single number, flag or text of one of the types of entries. -/
  | entry (type : CellType) (cell : Cell α)
  /-- An array of numbers, flags or texts. -/
  | array (grid : Grid α)
  /-- An array of arbitrary values in row-major order. -/
  | objects (shape : List Nat) (items : List (Value α))
  | kind (k : ProblemKind)
  | solver (s : Solver)
  | invoker (i : Invoker)
  /-- Options by their names; an absent value is an option that is not set. -/
  | options (fields : OptionName → Value α)
  /-- A function of a point. It may be a record with named parts. -/
  | function (view : FunctionView) (parts? : Option (List (String × Value α)))
      (call : List α → Except Fault (Value α))

/-- A function of a point, as a solver evaluates it. -/
abbrev Evaluator (α : Type) := List α → Except Fault (Value α)

namespace Value

variable {α : Type}

instance : Inhabited (Value α) := ⟨absent⟩

/-- A vector of numbers. -/
def ofList (xs : List α) : Value α :=
  array ⟨.real, (Tensor.vector xs).map .real⟩

def isAbsent : Value α → Bool
  | absent => true
  | _ => false

/-! ## Entries and what they stand for -/

/-- A value in place of the entry of an array. -/
def ofCell : Cell α → Value α
  | .bool b => bool b
  | .int i => int i
  | .real x => real x
  | .complex re im => complex re im
  | .text s => text s
  | .bytes bs => bytes bs
  | .absent | .opaqueItem => absent

/-- A value as an entry of an array of arbitrary values. -/
def toCell : Value α → Cell α
  | absent => .absent
  | bool b => .bool b
  | int i => .int i
  | real x => .real x
  | complex re im => .complex re im
  | text s => .text s
  | bytes bs => .bytes bs
  | entry _ cell => cell
  | _ => .opaqueItem

/-- A value by itself in place of an entry that holds it. -/
def bare : Value α → Value α
  | entry _ cell => ofCell cell
  | v => v

/-- The text that a value is. -/
def text? : Value α → Option Text
  | text s | entry _ (.text s) => some s
  | _ => none

/-- The characters of the text that a value is. A text with a half names nothing. -/
def name? (v : Value α) : Option String := v.text?.bind Text.string?

/-- The bytes that a value is. -/
def bytes? : Value α → Option (List UInt8)
  | bytes bs | entry _ (.bytes bs) => some bs
  | _ => none

/-! ## Dictionaries and options -/

/-- The value of the entry with a text for its key. -/
def lookup? (key : Text) (entries : List (Value α × Value α)) : Option (Value α) :=
  (entries.find? fun entry => entry.1.text? == some key).map (·.2)

/-- The options that are set, under their names; a solver is given by its name. -/
def setOptions (fields : OptionName → Value α) : List (Value α × Value α) :=
  OptionName.all.filterMap fun name =>
    match fields name with
    | absent => none
    | solver s => some (text name.key, text s.name)
    | value => some (text name.key, value)

/-! ## Records -/

mutual

/-- Is a value a record with named parts, or a tuple with such a record in it? -/
def holdsRecord : Value α → Bool
  | options _ | function _ (some _) _ => true
  | tuple items => anyHoldsRecord items
  | _ => false

def anyHoldsRecord : List (Value α) → Bool
  | [] => false
  | item :: rest => item.holdsRecord || anyHoldsRecord rest

end

end Value
end Presolve
