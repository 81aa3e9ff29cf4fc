import Presolve.Json.Basic
import Presolve.Decimal.Text

/-!
# JSON texts

The canonical text of JSON data: fields in the order of their keys, ASCII only, and either no
space at all or one item a line. Every character outside printable ASCII is written by its UTF-16
units, so the text of a string does not depend on an encoding and halves of pairs can be written too.
Data with an integer of too many digits have no text.
-/

namespace Presolve.Json

/-- How items are laid out: side by side, or one a line with an indent for each level. -/
inductive Layout where
  | compact
  | lines (indent : Nat)
deriving DecidableEq, Repr

namespace Layout

/-- What stands before an item of the given level. -/
def separator : Layout → Nat → List Char
  | compact, _ => []
  | lines indent, level => '\n' :: List.replicate (indent * level) ' '

/-- What stands after the colon of a field. -/
def afterColon : Layout → List Char
  | compact => []
  | lines _ => [' ']

end Layout

/-! ## Strings -/

/-- The UTF-16 units of a character. -/
def utf16 (c : Char) : List Nat :=
  let n := c.toNat
  if n < 0x10000 then [n]
  else [0xD800 + (n - 0x10000) / 0x400, 0xDC00 + (n - 0x10000) % 0x400]

/-- A UTF-16 unit as an escape of four hexadecimal digits. -/
def unitEscape (unit : Nat) : List Char :=
  '\\' :: 'u' :: Decimal.padLeft 4 (Nat.toDigits 16 unit)

/-- A character within a string. -/
def escape (c : Char) : List Char :=
  match c with
  | '"' => ['\\', '"']
  | '\\' => ['\\', '\\']
  | '\n' => ['\\', 'n']
  | '\r' => ['\\', 'r']
  | '\t' => ['\\', 't']
  | '\x08' => ['\\', 'b']
  | '\x0c' => ['\\', 'f']
  | c => if ' ' ≤ c ∧ c ≤ '~' then [c] else (utf16 c).flatMap unitEscape

/-- A code point within a string. -/
def escapeCode : CodePoint → List Char
  | .char c => escape c
  | .half h => unitEscape (CodePoint.half h).number

/-- A string in quotes. -/
def quoted (s : Text) : List Char :=
  '"' :: s.codes.flatMap escapeCode ++ ['"']

/-! ## Data -/

section

variable {ν : Type} (number : ν → String) (layout : Layout)

mutual

/-- The text of a value whose items are at `level`, its fields in the order they are in. -/
def write (level : Nat) : Json ν → List Char
  | null => "null".toList
  | bool b => if b then "true".toList else "false".toList
  | int i => (toString i).toList
  | real x => (number x).toList
  | text s => quoted s
  | array [] => ['[', ']']
  | array (item :: rest) =>
    '[' :: layout.separator level ++ item.write (level + 1) ++ writeItems level rest
      ++ layout.separator (level - 1) ++ [']']
  | object [] => ['\x7b', '\x7d']
  | object ((key, value) :: rest) =>
    '\x7b' :: layout.separator level ++ quoted key ++ ':' :: layout.afterColon
      ++ value.write (level + 1) ++ writeFields level rest ++ layout.separator (level - 1) ++ ['\x7d']

/-- The items after the first. -/
def writeItems (level : Nat) : List (Json ν) → List Char
  | [] => []
  | item :: rest =>
    ',' :: layout.separator level ++ item.write (level + 1) ++ writeItems level rest

/-- The fields after the first. -/
def writeFields (level : Nat) : List (Text × Json ν) → List Char
  | [] => []
  | (key, value) :: rest =>
    ',' :: layout.separator level ++ quoted key ++ ':' :: layout.afterColon
      ++ value.write (level + 1) ++ writeFields level rest

end

/-- The canonical text: with sorted fields, in the given layout. -/
def render (value : Json ν) : String :=
  String.ofList (value.sorted.write number layout 1)

end

/-! ## Data that can be written -/

section

variable {ν : Type}

mutual

/-- Can data be written? Not if there is an integer of too many digits in them. -/
def isWritable : Json ν → Bool
  | int i => Decimal.isWritable i
  | array items => areWritable items
  | object fields => areWritableFields fields
  | _ => true

def areWritable : List (Json ν) → Bool
  | [] => true
  | item :: rest => item.isWritable && areWritable rest

def areWritableFields : List (Text × Json ν) → Bool
  | [] => true
  | (_, value) :: rest => value.isWritable && areWritableFields rest

end

end

end Presolve.Json
