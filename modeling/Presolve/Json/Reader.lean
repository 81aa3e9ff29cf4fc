import Presolve.Json.Basic
import Presolve.Decimal.Basic

/-!
# Reading JSON texts

A reader for whole texts that says where and why it stops. Two dialects differ in one
point: the lenient one also takes the words `NaN`, `Infinity` and `-Infinity` for numbers.

A function of the reader takes the characters that are left and returns a value with the
characters behind it. A place in the text is the number of characters left there; `ReadError`
turns it into a line and a column. The nesting of values is bounded by the length of the text,
which is the fuel of the three functions that call each other.
-/

namespace Presolve.Json

/-- What is wrong with a text. -/
inductive Flaw where
  | noValue
  | noKey
  | noColon
  | noComma
  | openString
  | controlCharacter
  | badEscape
  | badUnit
  | extraText
  | byteOrderMark
  /-- An integer with more digits than are converted. -/
  | tooManyDigits (count : Nat)
deriving DecidableEq, Repr

namespace Flaw

def message : Flaw → String
  | noValue => "Expecting value"
  | noKey => "Expecting property name enclosed in double quotes"
  | noColon => "Expecting ':' delimiter"
  | noComma => "Expecting ',' delimiter"
  | openString => "Unterminated string starting at"
  | controlCharacter => "Invalid control character at"
  | badEscape => "Invalid \\escape"
  | badUnit => "Invalid \\uXXXX escape"
  | extraText => "Extra data"
  | byteOrderMark => "Unexpected UTF-8 BOM (decode using utf-8-sig)"
  | tooManyDigits count =>
    "Exceeds the limit (4300 digits) for integer string conversion: value has " ++ toString count
      ++ " digits; use sys.set_int_max_str_digits() to increase the limit"

end Flaw

/-- A flaw and the number of characters left where it was found. -/
structure Stop where
  flaw : Flaw
  left : Nat
deriving DecidableEq, Repr

/-- A flaw with its place: the characters in front of it, and its line and column, which count
from one. -/
structure ReadError where
  flaw : Flaw
  offset : Nat
  line : Nat
  column : Nat
deriving DecidableEq, Repr

def ReadError.message (e : ReadError) : String :=
  match e.flaw with
  | .tooManyDigits count => (Flaw.tooManyDigits count).message
  | flaw =>
    flaw.message ++ ": line " ++ toString e.line ++ " column " ++ toString e.column
      ++ " (char " ++ toString e.offset ++ ")"

/-- The place of a stop in its text. -/
def Stop.locate (text : List Char) (stop : Stop) : ReadError :=
  let before := text.take (text.length - stop.left)
  { flaw := stop.flaw
    offset := before.length
    line := before.count '\n' + 1
    column := (before.reverse.takeWhile (· ≠ '\n')).length + 1 }

namespace Reader

/-- A value read off the front of a text, and the rest of the text. -/
abbrev Result (β : Type) := Except Stop (β × List Char)

def stop {β : Type} (flaw : Flaw) (rest : List Char) : Except Stop β :=
  .error ⟨flaw, rest.length⟩

def isBlank (c : Char) : Bool := c == ' ' || c == '\t' || c == '\n' || c == '\r'

def skipBlanks (s : List Char) : List Char := s.dropWhile isBlank

/-! ## Strings -/

def hexDigit? (c : Char) : Option Nat :=
  if '0' ≤ c ∧ c ≤ '9' then some (c.toNat - '0'.toNat)
  else if 'a' ≤ c ∧ c ≤ 'f' then some (c.toNat - 'a'.toNat + 10)
  else if 'A' ≤ c ∧ c ≤ 'F' then some (c.toNat - 'A'.toNat + 10)
  else none

/-- Four hexadecimal digits. -/
def unit? (a b c d : Char) : Option Nat := do
  let a ← hexDigit? a
  let b ← hexDigit? b
  let c ← hexDigit? c
  let d ← hexDigit? d
  return ((a * 16 + b) * 16 + c) * 16 + d

/-- The code points of a sequence of numbers in which escapes may have left the halves of pairs: a high
half and the low half behind it are one character, and any other half stays one. -/
def joinHalves : List Nat → List CodePoint
  | [] => []
  | [u] => [.ofNumber u]
  | u :: v :: rest =>
    if 0xD800 ≤ u ∧ u < 0xDC00 ∧ 0xDC00 ≤ v ∧ v < 0xE000 then
      .char (Char.ofNat (0x10000 + (u - 0xD800) * 0x400 + (v - 0xDC00))) :: joinHalves rest
    else .ofNumber u :: joinHalves (v :: rest)

/-- The character that a letter behind a backslash stands for. -/
def escaped? : Char → Option Char
  | '"' => some '"'
  | '\\' => some '\\'
  | '/' => some '/'
  | 'b' => some '\x08'
  | 'f' => some '\x0c'
  | 'n' => some '\n'
  | 'r' => some '\r'
  | 't' => some '\t'
  | _ => none

/-- The numbers that a string up to its closing quote consists of. `start` is the number of characters left
at the opening quote. -/
def codePoints (start : Nat) : List Char → Except Stop (List Nat × List Char)
  | [] => .error ⟨.openString, start⟩
  | '"' :: rest => .ok ([], rest)
  | '\\' :: 'u' :: a :: b :: c :: d :: rest =>
    match unit? a b c d, rest with
    | some unit, _ :: _ => (codePoints start rest).map fun (us, r) => (unit :: us, r)
    | _, _ => stop .badUnit ('u' :: a :: b :: c :: d :: rest)
  | '\\' :: 'u' :: rest => stop .badUnit ('u' :: rest)
  | ['\\'] => .error ⟨.openString, start⟩
  | '\\' :: c :: rest =>
    match escaped? c with
    | none => stop .badEscape ('\\' :: c :: rest)
    | some c => (codePoints start rest).map fun (us, r) => (c.toNat :: us, r)
  | c :: rest =>
    if c.toNat < 0x20 then stop .controlCharacter (c :: rest)
    else (codePoints start rest).map fun (us, r) => (c.toNat :: us, r)

/-- A string behind its opening quote. -/
def string (start : Nat) (s : List Char) : Result Text :=
  (codePoints start s).map fun (us, r) => (⟨joinHalves us⟩, r)

/-! ## Numbers -/

def digitsValue (digits : List Char) : Nat :=
  digits.foldl (fun n c => 10 * n + (c.toNat - '0'.toNat)) 0

/-- An exponent behind its letter, if one follows. -/
def exponent? : List Char → Option (Int × List Char)
  | c :: rest =>
    if c = 'e' ∨ c = 'E' then
      let (negative, rest) :=
        match rest with
        | '+' :: rest => (false, rest)
        | '-' :: rest => (true, rest)
        | rest => (false, rest)
      let digits := rest.takeWhile Char.isDigit
      if digits.isEmpty then none
      else
        let n : Int := digitsValue digits
        some (if negative then -n else n, rest.drop digits.length)
    else none
  | [] => none

/-- The digits behind a point, if some follow. -/
def fraction? : List Char → Option (List Char × List Char)
  | '.' :: rest =>
    let digits := rest.takeWhile Char.isDigit
    if digits.isEmpty then none else some (digits, rest.drop digits.length)
  | _ => none

/-- The digits in front of the point: a zero stands alone. -/
def whole? : List Char → Option (List Char × List Char)
  | '0' :: rest => some (['0'], rest)
  | rest =>
    let digits := rest.takeWhile Char.isDigit
    if digits.isEmpty then none else some (digits, rest.drop digits.length)

/-- A number behind its sign: an integer unless it has a fraction or an exponent. The text of the number
starts at `start`. -/
def unsigned (negative : Bool) (start body : List Char) : Result (Json Float) :=
  match whole? body with
  | none => stop .noValue start
  | some (whole, rest) =>
    let fraction := fraction? rest
    let (places, rest) := fraction.getD ([], rest)
    let power := exponent? rest
    match fraction.isSome || power.isSome with
    | true =>
      let (e, rest) := power.getD (0, rest)
      .ok (.real (Decimal.toFloat negative ⟨digitsValue (whole ++ places), e - places.length⟩), rest)
    | false =>
      if Decimal.maxDigits < whole.length then stop (.tooManyDigits whole.length) start
      else
        let n : Int := digitsValue whole
        .ok (.int (if negative then -n else n), rest)

/-- A number with its sign. -/
def number (s : List Char) : Result (Json Float) :=
  match s with
  | '-' :: rest => unsigned true s rest
  | _ => unsigned false s s

/-! ## Values -/

/-- A word of the dialect and what it stands for. -/
def words (lenient : Bool) : List (List Char × Json Float) :=
  [("null".toList, .null), ("true".toList, .bool true), ("false".toList, .bool false)] ++
  if lenient then
    [("NaN".toList, .real (0 / 0)), ("Infinity".toList, .real (1 / 0)),
      ("-Infinity".toList, .real (-1 / 0))]
  else []

/-- A word or a number. -/
def atom (lenient : Bool) (s : List Char) : Result (Json Float) :=
  match (words lenient).find? fun word => word.1.isPrefixOf s with
  | some (word, value) => .ok (value, s.drop word.length)
  | none => number s

mutual

/-- The value at the front of a text. -/
def value (lenient : Bool) (fuel : Nat) (s : List Char) : Result (Json Float) :=
  match fuel with
  | 0 => stop .noValue s
  | fuel + 1 =>
    match s with
    | '"' :: rest => (string s.length rest).map fun (s, r) => (.text s, r)
    | '[' :: rest =>
      match skipBlanks rest with
      | ']' :: rest => .ok (.array [], rest)
      | rest => (items lenient fuel rest).map fun (xs, r) => (.array xs, r)
    | '\x7b' :: rest =>
      match skipBlanks rest with
      | '\x7d' :: rest => .ok (.object [], rest)
      | rest => (fields lenient fuel rest).map fun (fs, r) => (.ofFields fs, r)
    | s => atom lenient s

/-- One or more items up to the closing bracket. -/
def items (lenient : Bool) (fuel : Nat) (s : List Char) :
    Except Stop (List (Json Float) × List Char) :=
  match fuel with
  | 0 => stop .noValue s
  | fuel + 1 => do
    let (item, rest) ← value lenient fuel s
    match skipBlanks rest with
    | ']' :: rest => .ok ([item], rest)
    | ',' :: rest =>
      let (others, rest) ← items lenient fuel (skipBlanks rest)
      .ok (item :: others, rest)
    | rest => stop .noComma rest

/-- One or more fields up to the closing brace. -/
def fields (lenient : Bool) (fuel : Nat) (s : List Char) :
    Except Stop (List (Text × Json Float) × List Char) :=
  match fuel with
  | 0 => stop .noValue s
  | fuel + 1 =>
    match s with
    | '"' :: rest => do
      let (key, rest) ← string s.length rest
      match skipBlanks rest with
      | ':' :: rest =>
        let (item, rest) ← value lenient fuel (skipBlanks rest)
        match skipBlanks rest with
        | '\x7d' :: rest => .ok ([(key, item)], rest)
        | ',' :: rest =>
          let (others, rest) ← fields lenient fuel (skipBlanks rest)
          .ok ((key, item) :: others, rest)
        | rest => stop .noComma rest
      | rest => stop .noColon rest
    | s => stop .noKey s

end

/-- A whole text: one value with blanks around it. -/
def document (lenient : Bool) (s : List Char) : Except Stop (Json Float) :=
  match s with
  | '\uFEFF' :: _ => stop .byteOrderMark s
  | s => do
    let (value, rest) ← value lenient (2 * s.length + 1) (skipBlanks s)
    match skipBlanks rest with
    | [] => .ok value
    | rest => stop .extraText rest

end Reader

/-- Reads a text that follows the standard. -/
def parse (text : String) : Except ReadError (Json Float) :=
  (Reader.document false text.toList).mapError (·.locate text.toList)

/-- Reads a text that may also hold the words for infinite and undefined numbers. -/
def parseLenient (text : String) : Except ReadError (Json Float) :=
  (Reader.document true text.toList).mapError (·.locate text.toList)

end Presolve.Json
