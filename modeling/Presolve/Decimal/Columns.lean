import Presolve.Decimal.Text

/-!
# Columns of numbers

Doubles that stand below each other have one format: their points are in one column, and they are written
with exponents if one of them is very great or small, or if they differ too much in size. No more than
eight places are written.
-/

namespace Presolve

/-- How the reals of an array are written. -/
structure RealFormat where
  isSingle : Bool
  /-- Is a plus sign written? -/
  showsPlus : Bool
  hasExponent : Bool
  /-- The places after the point: the most there may be, or the number of them before an exponent. -/
  places : Nat
  exponentWidth : Nat
  /-- The widths before and after the point. -/
  left : Nat
  right : Nat

namespace RealFormat

/-- The most places after the point. -/
def precision : Nat := 8

/-- A finite magnitude with at most `places` digits behind the first one or behind the point: the
shortest decimal if that is enough, and otherwise the nearest one. -/
def decimal (isSingle fromPoint : Bool) (places : Nat) (p : Binary64.Parts) : Decimal :=
  let d := if isSingle then Decimal.shortestSingle p else Decimal.shortest p
  let behind := if fromPoint then -d.exponent else (Decimal.length d.digits : Int) - 1
  if behind ≤ places then d
  else
    let (num, den) := Numeral.fraction p
    let d := if fromPoint then ⟨roundDiv (num * Nat.pow 10 places) den, -(places : Int)⟩
      else Decimal.significant (places + 1) num den
    if d.digits = 0 then ⟨0, 0⟩ else d.trim (places + 1)

/-- The sign, the digits before the point and those after it. -/
def positional (isSingle showsPlus : Bool) (p : Binary64.Parts) : String × String :=
  let d := decimal isSingle true precision p
  let digits := Nat.toDigits 10 d.digits
  let sign := if p.negative then "-" else if showsPlus then "+" else ""
  if 0 ≤ d.exponent then
    (sign ++ String.ofList (if d.digits = 0 then ['0'] else digits ++ List.replicate d.exponent.toNat '0'), "")
  else
    let places := (-d.exponent).toNat
    let padded := Decimal.padLeft (places + 1) digits
    let whole := padded.length - places
    (sign ++ String.ofList (padded.take whole), String.ofList (padded.drop whole))

/-- The sign and the first digit, the other digits, and the exponent. -/
def withExponent (isSingle showsPlus : Bool) (places : Nat) (p : Binary64.Parts) : String × String × Int :=
  let d := decimal isSingle false places p
  let digits := Nat.toDigits 10 d.digits
  let sign := if p.negative then "-" else if showsPlus then "+" else ""
  (sign ++ String.ofList (digits.take 1), String.ofList (digits.drop 1),
    if d.digits = 0 then 0 else d.exponent + (digits.length - 1 : Nat))

/-- An exponent with a sign and at least `width` digits. -/
def exponentText (width : Nat) (e : Int) : String :=
  "e" ++ (if e < 0 then "-" else "+")
    ++ String.ofList (Decimal.padLeft width (Nat.toDigits 10 e.natAbs))

def widest (texts : List String) : Nat := texts.foldl (fun w s => if w < s.length then s.length else w) 0

def spaces (n : Nat) : String := String.ofList (List.replicate n ' ')

/-- The text of what is no finite number. -/
def wordText (showsPlus : Bool) (x : Float) : String :=
  if x ≤ x then (if x < 0 then "-inf" else if showsPlus then "+inf" else "inf")
  else if showsPlus then "+nan" else "nan"

/-- Do numbers differ too much in size, or are they too great or small, to be written without
exponents? -/
def needsExponent (isSingle : Bool) (xs : List Float) : Bool :=
  let sizes := (xs.map Float.abs).filter fun x => 0 < x
  match sizes with
  | [] => false
  | x :: rest =>
    let top := rest.foldl (fun a b => if a < b then b else a) x
    let least := rest.foldl (fun a b => if b < a then b else a) x
    (if isSingle then 1e6 else 1e8) ≤ top || least < 0.0001 || 1000 < top / least

/-- The format for the reals of an array. -/
def ofReals (isSingle showsPlus : Bool) (xs : List Float) : RealFormat :=
  let parts := xs.filterMap Binary64.parts?
  let finite := xs.filter Float.isFinite
  let format : RealFormat :=
    if needsExponent isSingle finite then
      let texts := parts.map (withExponent isSingle showsPlus precision)
      let places := widest (texts.map fun t => t.2.1)
      let width := widest (texts.map fun t => exponentText 2 t.2.2) - 2
      ⟨isSingle, showsPlus, true, places, width, widest (texts.map fun t => t.1), width + 2 + places⟩
    else
      let texts := parts.map (positional isSingle showsPlus)
      ⟨isSingle, showsPlus, false, precision, 0, widest (texts.map fun t => t.1),
        widest (texts.map fun t => t.2)⟩
  let words := (xs.filter fun x => !x.isFinite).map (wordText showsPlus)
  { format with left := (words.map fun w => w.length - (format.right + 1)).foldl max format.left }

/-- The text of a number, as wide as the format says. -/
def write (f : RealFormat) (x : Float) : String :=
  match Binary64.parts? x with
  | none =>
    let word := wordText f.showsPlus x
    spaces (f.left + f.right + 1 - word.length) ++ word
  | some p =>
    if f.hasExponent then
      let (whole, rest, e) := withExponent f.isSingle f.showsPlus f.places p
      spaces (f.left - whole.length) ++ whole ++ "."
        ++ rest ++ String.ofList (List.replicate (f.places - rest.length) '0')
        ++ exponentText f.exponentWidth e
    else
      let (whole, rest) := positional f.isSingle f.showsPlus p
      spaces (f.left - whole.length) ++ whole ++ "." ++ rest ++ spaces (f.right - rest.length)

end RealFormat

end Presolve
