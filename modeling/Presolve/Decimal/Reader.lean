import Presolve.Decimal.Basic
import Presolve.Text.Class

/-!
# Reading numerals

The numerals a person may write for a double: a sign, digits with at most one point among them, and
an exponent, with white space around. The digits may be of any script, and single underscores may
stand between two digits. The words for infinite and undefined numbers are read in any case.
-/

namespace Presolve.Numeral

/-- The digits at the front of a text and what follows them; `behind` says whether a digit stands
in front. -/
def digits (behind : Bool) : List Char → List Nat × List Char
  | [] => ([], [])
  | c :: rest =>
    match Text.digit? c with
    | some d =>
      let (ds, rest) := digits true rest
      (d :: ds, rest)
    | none =>
      if c = '_' ∧ behind ∧ (rest.head?.bind Text.digit?).isSome then digits false rest
      else ([], c :: rest)

/-- The natural number that digits stand for. -/
def ofDigits (ds : List Nat) : Nat :=
  ds.foldl (fun n d => 10 * n + d) 0

/-- The sign in front of a text: is it a minus? -/
def sign : List Char → Bool × List Char
  | '-' :: rest => (true, rest)
  | '+' :: rest => (false, rest)
  | rest => (false, rest)

/-- The exponent that makes up the rest of a numeral; nothing at all is the exponent zero. -/
def exponent? : List Char → Option Int
  | [] => some 0
  | c :: rest =>
    if c = 'e' ∨ c = 'E' then
      let (negative, rest) := sign rest
      match digits false rest with
      | (d :: ds, []) =>
        let e : Int := ofDigits (d :: ds)
        some (if negative then -e else e)
      | _ => none
    else none

/-- A decimal without a sign. -/
def decimal? (s : List Char) : Option Decimal :=
  let (whole, rest) := digits false s
  let (places, rest) :=
    match rest with
    | '.' :: rest => digits false rest
    | rest => ([], rest)
  if whole.isEmpty && places.isEmpty then none
  else (exponent? rest).map fun e => ⟨ofDigits (whole ++ places), e - places.length⟩

/-- The words for numbers that have no digits. -/
def word? (negative : Bool) (s : String) : Option Float :=
  if s = "inf" ∨ s = "infinity" then some (Binary64.ofMantissa negative 0 2047)
  else if s = "nan" then some (0 / 0)
  else none

/-- A text without the white space around it. -/
def strip (s : List Char) : List Char :=
  ((s.dropWhile Text.isBlank).reverse.dropWhile Text.isBlank).reverse

/-- The double that a numeral stands for, and `none` for any other text. -/
def read? (text : String) : Option Float :=
  let (negative, body) := sign (strip text.toList)
  match word? negative (String.ofList (body.map Char.toLower)) with
  | some x => some x
  | none => (decimal? body).map (Decimal.toFloat negative)

/-- The integer that a numeral without point and exponent stands for, and `none` for any other
text. -/
def readInteger? (text : String) : Option Int :=
  let (negative, body) := sign (strip text.toList)
  match digits false body with
  | (d :: ds, []) => some (if negative then -(ofDigits (d :: ds) : Int) else ofDigits (d :: ds))
  | _ => none

end Presolve.Numeral
