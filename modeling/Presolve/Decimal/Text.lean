import Presolve.Decimal.Basic

/-!
# The texts of a double

Four ways to write a double in decimal: the shortest text that reads back, a fixed number
of places, a number of significant digits in scientific notation, and the general form
that picks between the last two. A `NumeralStyle` says where positional notation ends and whether
a whole number keeps its point.
-/

namespace Presolve

/-- When a decimal is written positionally, and how. -/
structure NumeralStyle where
  /-- The least and the greatest exponent of the first digit in positional notation. -/
  least : Int
  greatest : Int
  /-- Is a whole number written with a point and a zero? -/
  wholePoint : Bool
deriving DecidableEq, Repr

namespace Decimal

/-- Zeros in front of a text up to a width. -/
def padLeft (width : Nat) (digits : List Char) : List Char :=
  List.replicate (width - digits.length) '0' ++ digits

/-- The exponent of a number in scientific notation: a sign and at least two digits. -/
def exponentText (e : Int) : List Char :=
  'e' :: (if e < 0 then '-' else '+') :: padLeft 2 (Nat.toDigits 10 e.natAbs)

/-- One digit, a point if more follow, the others, and the exponent. -/
def scientific (digits : List Char) (e : Int) : List Char :=
  match digits with
  | [] => exponentText e
  | [d] => d :: exponentText e
  | d :: rest => d :: '.' :: rest ++ exponentText e

/-- The digits with the point where the exponent `e` of the first digit puts it. -/
def positional (wholePoint : Bool) (digits : List Char) (e : Int) : List Char :=
  if e < 0 then '0' :: '.' :: List.replicate (-e - 1).toNat '0' ++ digits
  else
    let whole := e.toNat + 1
    if whole < digits.length then digits.take whole ++ '.' :: digits.drop whole
    else digits ++ List.replicate (whole - digits.length) '0' ++ (if wholePoint then ['.', '0'] else [])

/-- A decimal in the notation that the style asks for. -/
def write (style : NumeralStyle) (d : Decimal) : List Char :=
  let digits := Nat.toDigits 10 d.digits
  let e := if d.digits = 0 then 0 else d.exponent + digits.length - 1
  if style.least ≤ e ∧ e ≤ style.greatest then positional style.wholePoint digits e
  else scientific digits e

end Decimal

namespace Numeral

/-- Doubles in data are written positionally from `0.0001` up to `10 ^ 16`, whole numbers with a
point. -/
def data : NumeralStyle := ⟨-4, 15, true⟩

/-- In the general form of `count` digits a number is positional if all its digits before the
point are significant. -/
def general (count : Nat) : NumeralStyle := ⟨-4, (count : Int) - 1, false⟩

/-- The text of a double, given how a finite magnitude is written. -/
def signed (magnitude : Binary64.Parts → List Char) (x : Float) : String :=
  match Binary64.parts? x with
  | some p => String.ofList (if p.negative then '-' :: magnitude p else magnitude p)
  | none =>
    if x ≤ x then (if x < 0 then "-inf" else "inf") else "nan"

/-- A magnitude as a fraction. -/
def fraction (p : Binary64.Parts) : Nat × Nat :=
  if 0 ≤ p.exponent then (p.mantissa * Nat.pow 2 p.exponent.toNat, 1)
  else (p.mantissa, Nat.pow 2 (-p.exponent).toNat)

/-- The shortest text that reads back as the double. -/
def shortest : Float → String :=
  signed fun p => (Decimal.shortest p).write data

/-- The shortest text that reads back as a number in single precision. -/
def shortestSingle : Float → String :=
  signed fun p => (Decimal.shortestSingle p).write data

/-- The double with a fixed number of places after the point. -/
def fixed (places : Nat) : Float → String :=
  signed fun p =>
    let (num, den) := fraction p
    let digits := Decimal.padLeft (places + 1) (Nat.toDigits 10 (roundDiv (num * Nat.pow 10 places) den))
    let whole := digits.length - places
    if places = 0 then digits else digits.take whole ++ '.' :: digits.drop whole

/-- The double with `places + 1` significant digits, always with an exponent. -/
def scientific (places : Nat) : Float → String :=
  signed fun p =>
    let (num, den) := fraction p
    let d := Decimal.significant (places + 1) num den
    Decimal.scientific (Decimal.padLeft (places + 1) (Nat.toDigits 10 d.digits)) (d.exponent + places)

/-- The double with at most `count` significant digits, in the shorter notation and without zeros
at the end. -/
def rounded (count : Nat) : Float → String :=
  signed fun p =>
    let (num, den) := fraction p
    ((Decimal.significant count num den).trim count).write (general count)

end Numeral
end Presolve
