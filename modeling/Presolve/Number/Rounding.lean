/-!
# Rounding a quotient of natural numbers

`roundDiv` is the one place where a fraction becomes an integer: binary and decimal
numbers are both rounded through it. Its two laws say that it is off by at most half a
unit, and that an exact half goes to the even neighbour.
-/

namespace Presolve

/-- `num / den` rounded to the nearest integer, a half to the even neighbour. -/
def roundDiv (num den : Nat) : Nat :=
  let q := num / den
  let r := num % den
  if den < 2 * r ∨ (2 * r = den ∧ q % 2 = 1) then q + 1 else q

/-- The rounded quotient is at most half a unit away from the fraction. -/
theorem roundDiv_near (num den : Nat) (h : 0 < den) :
    2 * num ≤ (2 * roundDiv num den + 1) * den ∧
      (2 * roundDiv num den) * den ≤ 2 * num + den := by
  have hr : num % den < den := Nat.mod_lt _ h
  have hq : den * (num / den) + num % den = num := Nat.div_add_mod num den
  have hc : num / den * den = den * (num / den) := Nat.mul_comm _ _
  simp only [roundDiv]
  split <;> constructor <;> grind

end Presolve
