import Presolve.Number.Binary64

/-!
# Decimal numbers near a fraction

A decimal is `digits · 10 ^ exponent`. Two questions are answered here for a positive
fraction: which decimal of a given number of digits is nearest to it, and which is the
shortest decimal that still reads back as a given double. Texts are in `Decimal/Text`.
-/

namespace Presolve

/-- The number `digits · 10 ^ exponent`. -/
structure Decimal where
  digits : Nat
  exponent : Int
deriving DecidableEq, Repr

namespace Decimal

/-- The number of decimal digits of a natural number; zero has one. -/
def length (n : Nat) : Nat := (Nat.toDigits 10 n).length

/-- The most digits that an integer is written or read with. -/
def maxDigits : Nat := 4300

/-- Has an integer so few digits that it is written? -/
def isWritable (i : Int) : Bool := decide (i.natAbs < Nat.pow 10 maxDigits)

theorem isWritable_iff {i : Int} : isWritable i = true ↔ length i.natAbs ≤ maxDigits := by
  rw [isWritable, decide_eq_true_eq, Nat.pow_eq, length,
    Nat.length_toDigits_le_iff (by decide) (by decide)]

/-- An integer of at most `places` digits is written if so many are. -/
theorem isWritable_of_lt (places : Nat) (h : places ≤ maxDigits) {i : Int}
    (hi : i.natAbs < Nat.pow 10 places) : isWritable i = true := by
  rw [Nat.pow_eq] at hi
  rw [isWritable, decide_eq_true_eq, Nat.pow_eq]
  exact Nat.lt_of_lt_of_le hi (Nat.pow_le_pow_right (by decide) h)

/-- The exponent `e` with `10 ^ e ≤ num / den < 10 ^ (e + 1)`, for positive `num` and `den`. -/
def magnitude (num den : Nat) : Int :=
  if den ≤ num then (length (num / den) : Int) - 1
  else
    let places := length (den / num)
    if den ≤ num * Nat.pow 10 (places - 1) then 1 - (places : Int) else -(places : Int)

/-- `num / den` in units of `10 ^ k`, as a fraction. -/
def inUnits (num den : Nat) (k : Int) : Nat × Nat :=
  if 0 ≤ k then (num, den * Nat.pow 10 k.toNat) else (num * Nat.pow 10 (-k).toNat, den)

/-- Drops the zeros at the end of the digits, at most `fuel` of them. -/
def trim (d : Decimal) : Nat → Decimal
  | 0 => d
  | fuel + 1 =>
    if d.digits ≠ 0 ∧ d.digits % 10 = 0 then
      trim ⟨d.digits / 10, d.exponent + 1⟩ fuel
    else d

/-- The decimal of `count` digits nearest to `num / den`, a half to the even one. -/
def significant (count num den : Nat) : Decimal :=
  if num = 0 then ⟨0, 1 - count⟩ else
  let unit := magnitude num den - count + 1
  let (n, d) := inUnits num den unit
  let digits := roundDiv n d
  if digits = Nat.pow 10 count then ⟨digits / 10, unit + 1⟩ else ⟨digits, unit⟩

/-! ## The shortest decimal of a binary number -/

/-- The decimals of one grid next to a binary number: of its two neighbours on the grid, the nearer
one among those that are nearer to this number than to the next. Numbers are in quarters of the last
binary place, so that the ends of the rounding interval are integers; `closed` says whether the ends
themselves are rounded to the number. -/
def onGrid? (low value high : Nat) (closed : Bool) (den : Nat) (unit : Int) : Option Decimal :=
  let inside (d : Nat) : Bool :=
    let (n, u) := if 0 ≤ unit then (d * Nat.pow 10 unit.toNat * den, 1)
      else (d * den, Nat.pow 10 (-unit).toNat)
    if closed then low * u ≤ n ∧ n ≤ high * u else low * u < n ∧ n < high * u
  let (n, u) := inUnits value den unit
  let below := n / u
  let above := below + 1
  match inside below, inside above with
  | true, true =>
    -- The distances are `n % u` and `u - n % u`; a tie goes to the even one.
    let twice := 2 * (n % u)
    some ⟨if twice < u ∨ (twice = u ∧ below % 2 = 0) then below else above, unit⟩
  | true, false => some ⟨below, unit⟩
  | false, true => some ⟨above, unit⟩
  | false, false => none

/-- The decimal with the fewest digits that reads back as `mantissa · 2 ^ exponent` among the numbers
with mantissas of `bits` bits and exponents from `least` on, and of those the nearest to it.
Seventeen digits always suffice for doubles. -/
def shortestAmong (bits : Nat) (least : Int) (p : Binary64.Parts) : Decimal :=
  if p.mantissa = 0 then ⟨0, 0⟩ else
  -- Below a power of two the numbers lie twice as close.
  let narrow := p.mantissa = Nat.pow 2 (bits - 1) ∧ p.exponent ≠ least
  let shift := p.exponent - 2
  let scale := if 0 ≤ shift then Nat.pow 2 shift.toNat else 1
  let den := if 0 ≤ shift then 1 else Nat.pow 2 (-shift).toNat
  let value := 4 * p.mantissa * scale
  let low := (4 * p.mantissa - if narrow then 1 else 2) * scale
  let high := (4 * p.mantissa + 2) * scale
  let top := magnitude value den
  let hit := (List.range 17).findSome? fun (k : Nat) =>
    onGrid? low value high (p.mantissa % 2 == 0) den (top - k)
  (hit.getD (significant 17 value den)).trim 17

/-- The decimal with the fewest digits that reads back as a double. -/
def shortest (p : Binary64.Parts) : Decimal := shortestAmong 53 Binary64.minExponent p

/-- The decimal with the fewest digits that reads back as a number in single precision. -/
def shortestSingle (p : Binary64.Parts) : Decimal :=
  shortestAmong 24 Binary64.singleMinExponent p.single

/-! ## Reading -/

/-- The double nearest to a decimal, infinite beyond the largest double. -/
def toFloat (negative : Bool) (d : Decimal) : Float :=
  -- Far outside the range of doubles the answer does not depend on the digits.
  let top := (length d.digits : Int) + d.exponent
  if d.digits = 0 ∨ top < -400 then Binary64.nearest negative 0 1
  else if 400 < top then Binary64.ofMantissa negative 0 2047
  else if 0 ≤ d.exponent then Binary64.nearest negative (d.digits * Nat.pow 10 d.exponent.toNat) 1
  else Binary64.nearest negative d.digits (Nat.pow 10 (-d.exponent).toNat)

end Decimal
end Presolve
