import Presolve.Number.Rounding

/-!
# Double precision numbers as fractions

A finite double is `± m · 2^q` with a natural number `m < 2^53`. This file takes a double
apart into that form and puts the nearest double of a fraction together again. Reading
decimals and converting integers go through `Binary64.nearest`, so there is one rounding rule: to
the nearest double, a half to the even one, and to infinity beyond the largest.

A number in single precision is a double as well, with fewer digits: `Parts.single` takes it apart as
`± m · 2^q` with `m < 2^24`.
-/

namespace Presolve.Binary64

/-- The parts of a finite double: its value is `± mantissa · 2 ^ exponent`. -/
structure Parts where
  negative : Bool
  mantissa : Nat
  exponent : Int
deriving DecidableEq, Repr

/-- The least exponent of a double, that of the subnormal numbers. -/
def minExponent : Int := -1074

/-- The least exponent of a number in single precision. -/
def singleMinExponent : Int := -149

/-- The parts of a finite double, and `none` for infinities and for what is no number. -/
def parts? (x : Float) : Option Parts :=
  let bits := x.toBits.toNat
  let fraction := bits % Nat.pow 2 52
  let biased := bits / Nat.pow 2 52 % Nat.pow 2 11
  let negative := bits / Nat.pow 2 63 == 1
  if biased = 2047 then none
  else if biased = 0 then some ⟨negative, fraction, minExponent⟩
  else some ⟨negative, fraction + Nat.pow 2 52, minExponent + (biased - 1 : Nat)⟩

/-- The double `± m · 2 ^ (minExponent + e)`, where `m < 2 ^ 52` only if `e = 0`; a carry out of
`m` moves into the exponent. Beyond the largest double it is infinite. -/
def ofMantissa (negative : Bool) (m e : Nat) : Float :=
  let magnitude := min (m + e * Nat.pow 2 52) (2047 * Nat.pow 2 52)
  Float.ofBits (UInt64.ofNat (magnitude + if negative then Nat.pow 2 63 else 0))

/-- The double nearest to `± num / den`. -/
def nearest (negative : Bool) (num den : Nat) : Float :=
  if num = 0 then ofMantissa negative 0 0 else
  -- The quotient lies between `2 ^ (size - 1)` and `2 ^ (size + 1)`.
  let size : Int := (Nat.log2 num : Int) - (Nat.log2 den : Int)
  let wide (q : Int) : Bool :=
    -- Does the quotient fill 53 bits at exponent `q`?
    if 0 ≤ q then den * Nat.pow 2 (52 + q.toNat) ≤ num else den * Nat.pow 2 52 ≤ num * Nat.pow 2 (-q).toNat
  let q := if wide (size - 52) then size - 52 else size - 53
  let q := max q minExponent
  let m := if 0 ≤ q then roundDiv num (den * Nat.pow 2 q.toNat)
    else roundDiv (num * Nat.pow 2 (-q).toNat) den
  ofMantissa negative m (q - minExponent).toNat

/-- The double nearest to an integer, infinite if the integer is out of range. -/
def ofInt (i : Int) : Float :=
  nearest (i < 0) i.natAbs 1

/-- The value of a finite double as a rational number. -/
def toRat? (x : Float) : Option Rat :=
  (parts? x).map fun p =>
    let magnitude : Rat :=
      if 0 ≤ p.exponent then ((p.mantissa * Nat.pow 2 p.exponent.toNat : Nat) : Rat)
      else mkRat p.mantissa (Nat.pow 2 (-p.exponent).toNat)
    if p.negative then -magnitude else magnitude

/-- The integer that a finite double without a fractional part stands for. -/
def toInt? (x : Float) : Option Int := do
  let r ← toRat? x
  if r.den = 1 then some r.num else none

/-- The number in single precision that is nearest to a double. -/
def toSingle (x : Float) : Float := x.toFloat32.toFloat

/-- The parts of a number in single precision, whose mantissa has at most 24 bits and whose exponent
is not below that of the subnormal numbers. -/
def Parts.single (p : Parts) : Parts :=
  let spare := (p.mantissa.log2 : Int) - 23
  let least := singleMinExponent - p.exponent
  let shift := (if spare < least then least else spare).toNat
  { p with mantissa := p.mantissa / Nat.pow 2 shift, exponent := p.exponent + shift }

end Presolve.Binary64
