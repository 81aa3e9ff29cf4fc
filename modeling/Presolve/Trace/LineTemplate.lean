import Presolve.Decimal.Text
import Presolve.Text.Class
import Presolve.Text.Quoted
import Presolve.Text.Word
import Presolve.Trace.Level
import Presolve.Value.Truth

/-!
# Templates of lines

A line of the trace is made from an entry by a template: a text with fields such as `%(name)s` or
`%(levelname)-8s`, in which the flags, the width and the precision come before the letter that says how
the field is written. A text is a template if it holds at least one field.

Besides its name, level and message an entry has fields about where and when it was written. What those
hold is not up to the program; they are written as the surroundings of the entry say.
-/

namespace Presolve.Trace

/-- An entry of the trace. -/
structure Entry where
  name : Text
  level : Level
  message : Text
deriving DecidableEq, Repr

/-! ## Fields -/

/-- How a field is laid out. -/
structure FieldLayout where
  flags : List Char
  width : Nat
  precision : Option Nat
deriving DecidableEq, Repr

/-- A part of a template. -/
inductive Piece where
  | text (c : CodePoint)
  | field (key : Text) (layout : FieldLayout) (letter : CodePoint)
deriving DecidableEq, Repr

/-- The fields of an entry about where and when it was written: by key, layout and letter, as far as they
are known and can be written so. -/
abbrev Surroundings := Text → FieldLayout → Char → Option Text

/-- Nothing is known about where and when an entry was written. -/
def Surroundings.unknown : Surroundings := fun _ _ _ => none

namespace FieldLayout

def isFlag (c : Char) : Bool := "#0+ -".toList.contains c

/-- A text between blanks up to the width. -/
def pad (l : FieldLayout) (t : Text) : Text :=
  let blanks : Text := String.ofList (List.replicate (l.width - t.length) ' ')
  if l.flags.contains '-' then t ++ blanks else blanks ++ t

/-- A text, cut to the precision. -/
def ofText (l : FieldLayout) (t : Text) : Text :=
  l.pad (match l.precision with
    | some count => ⟨t.codes.take count⟩
    | none => t)

/-- A number from its digits behind the sign and a mark. Zeros may fill the width. -/
def ofNumber (l : FieldLayout) (isNegative : Bool) (mark digits : List Char) : Text :=
  let sign := if isNegative then ['-'] else if l.flags.contains '+' then ['+']
    else if l.flags.contains ' ' then [' '] else []
  let head := sign ++ mark
  if l.flags.contains '0' && !l.flags.contains '-' then
    String.ofList (head ++ Decimal.padLeft (l.width - head.length) digits)
  else l.pad (String.ofList (head ++ digits))

/-- An integer by a letter for integers: in decimal, octal or hexadecimal digits. The precision is the
least number of these; the mark of the base comes before them if it is asked for. -/
def ofInt? (l : FieldLayout) (letter : Char) (i : Int) : Option Text :=
  let write (mark digits : List Char) : Option Text :=
    some (l.ofNumber (i < 0) (if l.flags.contains '#' then mark else [])
      (Decimal.padLeft (l.precision.getD 0) digits))
  match letter with
  | 'd' | 'i' | 'u' => write [] (Nat.toDigits 10 i.natAbs)
  | 'o' => write ['0', 'o'] (Nat.toDigits 8 i.natAbs)
  | 'x' => write ['0', 'x'] (Nat.toDigits 16 i.natAbs)
  | 'X' => write ['0', 'X'] ((Nat.toDigits 16 i.natAbs).map Char.toUpper)
  | _ => none

/-- The general form of a double with all of its `count` digits. -/
def general (count : Nat) (x : Float) : String :=
  let (num, den) := ((Binary64.parts? x).map Numeral.fraction).getD (0, 1)
  let exponent := (Decimal.significant count num den).exponent + count - 1
  if -4 ≤ exponent ∧ exponent < count then Numeral.fixed (count - 1 - exponent).toNat x
  else Numeral.scientific (count - 1) x

/-- A number with its point, even where no digit follows. -/
def pointed (digits : List Char) : List Char :=
  if '.' ∈ digits then digits
  else digits.takeWhile (· ≠ 'e') ++ '.' :: digits.dropWhile (· ≠ 'e')

/-- An integer by a letter for fractions: with a point, with an exponent, or in the general form. The
precision is the number of places or of digits. An integer out of the range of doubles has no such form. -/
def ofReal? (l : FieldLayout) (letter : Char) (i : Int) : Option Text :=
  let x := Binary64.ofInt i.natAbs
  let places := l.precision.getD 6
  let marked := l.flags.contains '#'
  let digits? : Option String := match letter.toLower with
    | 'f' => some (Numeral.fixed places x)
    | 'e' => some (Numeral.scientific places x)
    | 'g' => some (if marked then general (max places 1) x else Numeral.rounded (max places 1) x)
    | _ => none
  match digits? with
  | some digits =>
    let digits := if marked then pointed digits.toList else digits.toList
    if x.isFinite then
      some (l.ofNumber (i < 0) [] (if letter.isUpper then digits.map Char.toUpper else digits))
    else none
  | none => none

/-- The code point of a number, unless there is none. -/
def ofCode? (l : FieldLayout) (i : Int) : Option Text :=
  if 0 ≤ i ∧ i < 0x110000 then some (l.pad ⟨[CodePoint.ofNumber i.toNat]⟩) else none

/-- A text by a letter for texts: as it is, in quotes, in quotes without characters beyond ASCII, or as
the single code point that it is. -/
def ofText? (l : FieldLayout) (letter : Char) (t : Text) : Option Text :=
  match letter with
  | 's' => some (l.ofText t)
  | 'r' => some (l.ofText t.quoted)
  | 'a' => some (l.ofText t.quotedAscii)
  | 'c' => if t.length = 1 then some (l.pad t) else none
  | _ => none

/-- The number of a level by any letter. -/
def ofLevel? (l : FieldLayout) (letter : Char) (level : Level) : Option Text :=
  match letter with
  | 's' | 'r' | 'a' => some (l.ofText level.digits)
  | 'c' => l.ofCode? level.number
  | letter => (l.ofInt? letter level.number).or (l.ofReal? letter level.number)

end FieldLayout

/-- What a field holds that is up to the program. -/
inductive OwnField where
  | text (t : Text)
  | level (level : Level)
deriving DecidableEq, Repr

namespace Entry

/-- The field of a key, unless it is not up to the program. -/
def own? (e : Entry) (key : Text) : Option OwnField :=
  match key.string? with
  | some "name" => some (.text e.name)
  | some "message" => some (.text e.message)
  | some "levelname" => some (.text e.level.name)
  | some "levelno" => some (.level e.level)
  | _ => none

/-- A field of an entry, unless the entry does not have it or the letter is not for it. -/
def field? (e : Entry) (around : Surroundings) (key : Text) (layout : FieldLayout) (letter : Char) :
    Option Text :=
  match e.own? key with
  | some (.text t) => layout.ofText? letter t
  | some (.level level) => layout.ofLevel? letter level
  | none => around key layout letter

end Entry

/-- A part of a line, unless its field cannot be written. -/
def Piece.render? (around : Surroundings) (e : Entry) : Piece → Option Text
  | text c => some ⟨[c]⟩
  | field key layout (.char letter) => e.field? around key layout letter
  | field _ _ (.half _) => none

/-! ## Reading templates -/

namespace LineTemplate

def number (digits : List Char) : Nat :=
  digits.foldl (fun n c => 10 * n + (c.toNat - '0'.toNat)) 0

/-- What comes before the parenthesis that closes one, with `depth` more of them open, and what follows
it. -/
def closing? (depth : Nat) : List CodePoint → Option (List CodePoint × List CodePoint)
  | [] => none
  | .char '(' :: rest => (closing? (depth + 1) rest).map fun (key, rest) => (.char '(' :: key, rest)
  | .char ')' :: rest =>
    match depth with
    | 0 => some ([], rest)
    | depth + 1 => (closing? depth rest).map fun (key, rest) => (.char ')' :: key, rest)
  | c :: rest => (closing? depth rest).map fun (key, rest) => (c :: key, rest)

/-- The characters of a class at the start, and the rest. -/
def leading (p : Char → Bool) (s : List CodePoint) : List Char × List CodePoint :=
  ((s.takeWhile (·.isChar p)).filterMap CodePoint.char?, s.dropWhile (·.isChar p))

/-- The layout of a field, and the text behind it. -/
def layout (s : List CodePoint) : FieldLayout × List CodePoint :=
  let (flags, s) := leading FieldLayout.isFlag s
  let (width, s) := leading Char.isDigit s
  match s with
  | .char '.' :: rest =>
    let (places, rest) := leading Char.isDigit rest
    (⟨flags, number width, some (number places)⟩, rest)
  | s => (⟨flags, number width, none⟩, s)

/-- Is there no place for a field of this layout? -/
def isOversized (layout : FieldLayout) : Bool :=
  0x8000000000000000 ≤ layout.width || layout.precision.any (0x80000000 ≤ ·)

/-- The field behind a percent sign, and the text behind it. A field without a key has the empty one. A
letter for the length of a number, which says nothing here, may stand before the letter of the field. -/
def field? (s : List CodePoint) : Option (Piece × List CodePoint) := do
  let (key, s) ← match s with
    | .char '(' :: rest => closing? 0 rest
    | s => some ([], s)
  let (layout, s) := layout s
  let s := match s with
    | .char 'h' :: rest | .char 'l' :: rest | .char 'L' :: rest => rest
    | s => s
  match s with
  | letter :: rest => if isOversized layout then none else some (.field ⟨key⟩ layout letter, rest)
  | [] => none

/-- The parts of a template, read by at most `fuel` steps. Two percent signs stand for one. -/
def pieces? (fuel : Nat) (s : List CodePoint) : Option (List Piece) :=
  match fuel, s with
  | _, [] => some []
  | 0, _ => none
  | fuel + 1, .char '%' :: .char '%' :: rest => (pieces? fuel rest).map (.text (.char '%') :: ·)
  | fuel + 1, .char '%' :: rest => do
    let (piece, rest) ← field? rest
    return piece :: (← pieces? fuel rest)
  | fuel + 1, c :: rest => (pieces? fuel rest).map (.text c :: ·)

/-! ### Is a text a template? -/

/-- Skips a star or digits. -/
def skipCount (s : List CodePoint) : List CodePoint :=
  match s with
  | .char '*' :: rest => rest
  | s => s.dropWhile (·.isChar fun c => (Text.digit? c).isSome)

/-- Is a character a letter of a field in either case? Besides the capital letters of ASCII this is the
capital i with a dot, the small one without it, and the long s. -/
def isLetter (c : Char) : Bool :=
  "diouxefgcrsa%".toList.contains c.toLower || ['İ', 'ı', 'ſ'].contains c

/-- Does a field with a key start behind this percent sign? -/
def opensField (s : List CodePoint) : Bool :=
  match s with
  | .char '(' :: rest =>
    let word (c : CodePoint) : Bool := c.isChar Text.isWord
    match rest.takeWhile word, rest.dropWhile word with
    | _ :: _, .char ')' :: rest =>
      let rest := skipCount (rest.dropWhile (·.isChar FieldLayout.isFlag))
      let rest := match rest with
        | .char '.' :: places =>
          let after := skipCount places
          if after.length < places.length then after else rest
        | _ => rest
      rest.head?.any (·.isChar isLetter)
    | _, _ => false
  | _ => false

/-- Does a text hold a field? -/
def hasField : List CodePoint → Bool
  | [] => false
  | .char '%' :: rest => opensField rest || hasField rest
  | _ :: rest => hasField rest

end LineTemplate

/-! ## Templates -/

/-- A text with fields for the parts of an entry. -/
structure LineTemplate where
  text : Text
deriving DecidableEq, Repr

namespace LineTemplate

/-- The level in brackets, the name and the message. -/
def standard : LineTemplate := ⟨"[%(levelname)s] %(name)s: %(message)s"⟩

/-- The parts of a template. -/
def parts? (t : LineTemplate) : Option (List Piece) := pieces? t.text.length t.text.codes

/-- The line of an entry, unless the template asks for something that the entry does not have. -/
def line? (t : LineTemplate) (around : Surroundings) (e : Entry) : Option Text := do
  let parts ← (← t.parts?).mapM (·.render? around e)
  return Text.join "" parts

/-- The template that a value asks for: nothing stands for the standard one. -/
def ofValue {α : Type} [Scalar α] (v : Value α) : Except Fault LineTemplate := do
  if ← v.holds then
    match v.text? with
    | some t => if hasField t.codes then return ⟨t⟩ else throw (.badValue "Invalid format")
    | none => throw .wrongType
  else return standard

end LineTemplate
end Presolve.Trace
