import Presolve.Text.Basic
import Presolve.Text.Printable

/-!
# Quoted texts

How a text or a sequence of bytes is shown inside a message: in single quotes, unless it holds a
single quote and no double one, with a backslash before what would end it and escapes for what
cannot be printed. What is shown so can always be printed.
-/

namespace Presolve.Text

/-- The quote that is written around characters: the double one only where it saves escapes. -/
def quoteFor (s : List Char) : Char :=
  if '\'' ∈ s ∧ '"' ∉ s then '"' else '\''

/-- A number in hexadecimal, with zeros in front up to a width. -/
def hex (width n : Nat) : List Char :=
  let digits := Nat.toDigits 16 n
  List.replicate (width - digits.length) '0' ++ digits

/-- A character by its number. -/
def numbered (c : Char) : List Char :=
  if c.toNat < 0x100 then '\\' :: 'x' :: hex 2 c.toNat
  else if c.toNat < 0x10000 then '\\' :: 'u' :: hex 4 c.toNat
  else '\\' :: 'U' :: hex 8 c.toNat

/-- A character of a text within the given quotes. -/
def escapeIn (quote c : Char) : List Char :=
  if c = quote ∨ c = '\\' then ['\\', c]
  else if c = '\n' then ['\\', 'n']
  else if c = '\r' then ['\\', 'r']
  else if c = '\t' then ['\\', 't']
  else if isPrintable c then [c]
  else numbered c

/-- The half of a pair by its number. -/
def numberedHalf (h : Fin 0x800) : List Char := '\\' :: 'u' :: hex 4 (CodePoint.half h).number

/-- A text with the given escapes for characters, and numbers for halves. -/
def escaped (escape : Char → List Char) (t : Text) : List Char :=
  t.codes.flatMap fun
    | .char c => escape c
    | .half h => numberedHalf h

/-- The quote that is written around a text. -/
def quote (t : Text) : Char := quoteFor (t.codes.filterMap CodePoint.char?)

/-- A text in quotes. -/
def quoted (t : Text) : String :=
  String.ofList (t.quote :: t.escaped (escapeIn t.quote) ++ [t.quote])

/-- A text in quotes, with numbers for the characters beyond ASCII. -/
def quotedAscii (t : Text) : String :=
  let escape (c : Char) : List Char := if c.toNat < 0x80 then escapeIn t.quote c else numbered c
  String.ofList (t.quote :: t.escaped escape ++ [t.quote])

/-- A text as it is, except for numbers in place of halves. -/
def replaced (t : Text) : String := String.ofList (t.escaped fun c => [c])

/-- Bytes in quotes behind the letter `b`: printable ASCII as it is, the rest in hexadecimal. -/
def quotedBytes (bytes : List UInt8) : String :=
  let cs := bytes.map fun b => Char.ofNat b.toNat
  let quote := quoteFor cs
  let escape (c : Char) : List Char :=
    if c.toNat < 0x80 then escapeIn quote c else '\\' :: 'x' :: hex 2 c.toNat
  String.ofList ('b' :: quote :: cs.flatMap escape ++ [quote])

end Presolve.Text
