import Presolve.Constraint.Bounds
import Presolve.Proofs.Number.Ordered

/-!
# Laws of the numbers

What the safety of a preparation relies on, whatever numbers it is read over. Rescaling divides by half the
width between two bounds, so it matters that bounds which are not nearly equal are not so close that half
their width vanishes. The laws hold of exact numbers, as shown here, and of doubles.
-/

namespace Presolve

open Scalar

/-- Numbers between which a width that does not fix a variable can be halved. -/
class LawfulScalar (α : Type) [Scalar α] : Prop where
  not_one_lt_epsilon : ¬(1 : α) < epsilon
  /-- Numbers that do not compare have no sum that does. -/
  not_add_lt {x y : α} (hxy : ¬x ≤ y) (hyx : ¬y ≤ x) (c : α) : ¬x + y < c
  /-- Half the width between two bounds that neither exclude each other nor fix a variable. -/
  not_halfWidth_lt {lo hi : α} (hlo : -infinity < lo) (hhi : hi < infinity) (hopen : ¬hi < lo)
    (hfree : Bounds.fixes lo hi = false) : ¬(hi - lo) / 2 < epsilon

/-- The least of some numbers is less than `c` only if one of them is. -/
theorem exists_lt_of_minimum?_lt {α : Type} [Scalar α] [LawfulScalar α] {xs : List α} {m c : α}
    (h : minimum? xs = some m) (hm : m < c) : ∃ x ∈ xs, x < c := by
  cases xs with
  | nil => cases h
  | cons x xs =>
    cases h
    induction xs generalizing x with
    | nil => exact ⟨x, by simp, hm⟩
    | cons y xs ih =>
      obtain ⟨z, hz, hlt⟩ := ih (meet x y) hm
      rcases List.mem_cons.1 hz with rfl | hz
      · -- the lesser of the first two is one of them or does not compare to `c`
        unfold meet at hlt
        split at hlt
        · exact ⟨x, by simp, hlt⟩
        · next hxy =>
          split at hlt
          · exact ⟨y, by simp, hlt⟩
          · next hyx => exact absurd hlt (LawfulScalar.not_add_lt hxy hyx c)
      · exact ⟨z, by simp [hz], hlt⟩

namespace Extended

variable {K : Type} [Field K] [LinearOrder K] [IsStrictOrderedRing K] [FloorRing K]

theorem not_one_lt_tiny : ¬(1 : Extended K) < epsilon := by
  rw [one_eq, epsilon_eq, finite_lt, tiny]
  norm_num

omit [IsStrictOrderedRing K] in
theorem not_undefined_lt (x : Extended K) : ¬undefined < x := fun h =>
  not_undefined_le x (Extended.le_of_lt h)

omit [IsStrictOrderedRing K] in
/-- Of two numbers that do not compare one is undefined, and so is their sum. -/
theorem add_eq_undefined {x y : Extended K} (hxy : ¬x ≤ y) (hyx : ¬y ≤ x) : x + y = undefined := by
  have hdef : ¬(x ≤ x ∧ y ≤ y) := fun h => (Extended.le_total h.1 h.2).elim hxy hyx
  cases x <;> cases y <;> first | rfl | simp at hdef

/-- Between two finite numbers that do not fix a variable half the width is not tiny. -/
theorem tiny_le_half_width {lo hi : K} (hopen : lo ≤ hi)
    (hfree : Bounds.fixes (finite lo : Extended K) (finite hi) = false) : tiny ≤ (hi - lo) / 2 := by
  have hfar : ¬Scalar.abs (finite (lo - hi) : Extended K) < finite (2 * tiny) := by
    rw [Bounds.fixes, finite_sub, two_eq, epsilon_eq, finite_mul] at hfree
    exact of_decide_eq_false hfree
  have habs : Scalar.abs (finite (lo - hi) : Extended K) = finite (hi - lo) := by
    show finite (if lo - hi < 0 then -(lo - hi) else lo - hi) = finite (hi - lo)
    split
    · rw [neg_sub]
    · next h =>
      have : lo = hi := le_antisymm hopen (by linarith)
      rw [this]
  rw [habs, finite_lt, not_lt] at hfar
  linarith

instance : LawfulScalar (Extended K) where
  not_one_lt_epsilon := not_one_lt_tiny
  not_add_lt hxy hyx c := by
    rw [add_eq_undefined hxy hyx]
    exact not_undefined_lt c
  not_halfWidth_lt {lo hi} hlo hhi hopen hfree := by
    -- finite sides and sides that are infinite the wrong way, which exclude each other
    cases lo with
    | finite lo =>
      cases hi with
      | finite hi =>
        have hle : lo ≤ hi := by simpa using hopen
        rw [two_eq, finite_sub, finite_div _ two_ne_zero, epsilon_eq, finite_lt, not_lt]
        exact tiny_le_half_width hle hfree
      | bottom => exact absurd rfl hopen
      | top | undefined => cases hhi
    | top =>
      cases hi with
      | finite _ | bottom => exact absurd rfl hopen
      | top | undefined => cases hhi
    | bottom | undefined => cases hlo

end Extended
end Presolve
