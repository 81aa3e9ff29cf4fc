import Mathlib.Algebra.Order.Floor.Semiring
import Mathlib.Algebra.Order.Archimedean.Real.Basic
import Presolve.Proofs.Number.Comparison

/-!
# Values of numbers

The numbers that a preparation runs over are doubles or exact numbers. Both stand for values: a real number, an
infinity, or nothing at all. `ValuedScalar` says how: numbers are compared by their values, and an integer
becomes the number whose value is nearest to it. Nothing is said about sums and products, which may be
rounded; but a difference that is small is one of two finite numbers.

What a preparation does by comparing numbers can so be followed on their values, whatever the numbers are.
-/

namespace Presolve

open Scalar Extended

/-- Numbers that stand for values. -/
class ValuedScalar (α : Type) [Scalar α] where
  value : α → Extended ℝ
  value_le_iff {x y : α} : value x ≤ value y ↔ x ≤ y
  value_lt_iff {x y : α} : value x < value y ↔ x < y
  value_neg (x : α) : value (-x) = -value x
  value_infinity : value infinity = top
  value_zero : value 0 = finite 0
  value_one : value 1 = finite 1
  value_barrier : value huge = finite ((2 ^ 100 : Nat) : ℝ)
  /-- A difference is small only between finite numbers. -/
  isFinite_of_abs_sub_lt {x y c : α} (h : Scalar.abs (x - y) < c) : IsFinite (value x) ∧ IsFinite (value y)
  /-- No number is nearer to an integer than the one that stands for it. -/
  nearest_ofInt {i : Int} (h : fits i) : ∃ a, value (ofFraction i 1) = finite a ∧
    ∀ x b, value x = finite b → |a - i| ≤ |b - i|

namespace ValuedScalar

variable {α : Type} [Scalar α] [ValuedScalar α]

/-- Numbers are compared as their values are. -/
instance : OrderedScalar α where
  lt_iff := value_lt_iff.symm.trans (Extended.lt_iff.trans (and_congr value_le_iff (not_congr value_le_iff)))
  trans hxy hyz := value_le_iff.1 (Extended.le_trans (value_le_iff.2 hxy) (value_le_iff.2 hyz))
  total hx hy :=
    (Extended.le_total (value_le_iff.2 hx) (value_le_iff.2 hy)).imp value_le_iff.1 value_le_iff.1

theorem value_neg_infinity : value (-infinity : α) = bottom := by
  rw [value_neg, value_infinity]
  rfl

variable {x y : α}

theorem neg_infinity_le (hx : x ≤ x) : -infinity ≤ x := by
  rw [← value_le_iff, value_neg_infinity]
  rw [← value_le_iff] at hx
  cases h : value x <;> simp_all

theorem le_infinity (hx : x ≤ x) : x ≤ infinity := by
  rw [← value_le_iff, value_infinity]
  rw [← value_le_iff] at hx
  cases h : value x <;> simp_all

/-- A defined number is the least infinity unless it is above it. -/
theorem same_neg_infinity_iff (hx : x ≤ x) : same x (-infinity) = true ↔ ¬-infinity < x := by
  have hle := neg_infinity_le hx
  rw [same, Bool.and_eq_true, decide_eq_true_eq, decide_eq_true_eq, OrderedScalar.lt_iff]
  simp [hle]

theorem same_infinity_iff (hx : x ≤ x) : same x infinity = true ↔ ¬x < infinity := by
  have hle := le_infinity hx
  rw [same, Bool.and_eq_true, decide_eq_true_eq, decide_eq_true_eq, OrderedScalar.lt_iff]
  simp [hle]

theorem defined_iff : x ≤ x ↔ value x ≠ .undefined := by
  rw [← value_le_iff]
  cases value x <;> simp

theorem defined_of_isFinite (h : IsFinite (value x)) : x ≤ x := by
  obtain ⟨a, ha⟩ := h
  rw [← value_le_iff, ha]
  exact (finite_le a a).2 le_rfl

theorem isFinite_ofFraction {i : Int} (h : fits i) : IsFinite (value (ofFraction i 1 : α)) := by
  obtain ⟨a, ha, -⟩ := nearest_ofInt (α := α) h
  exact ⟨a, ha⟩

theorem bounded_of_isFinite (h : IsFinite (value x)) : -infinity < x ∧ x < infinity := by
  obtain ⟨a, ha⟩ := h
  constructor
  · rw [← value_lt_iff, value_neg_infinity, ha]
    rfl
  · rw [← value_lt_iff, value_infinity, ha]
    rfl

/-! ### Barrier values -/

theorem value_huge : value (huge : α) = finite (2 ^ 100) := by
  rw [value_barrier, Nat.cast_pow, Nat.cast_ofNat]

theorem value_neg_huge : value (-huge : α) = finite (-2 ^ 100) := by
  rw [value_neg, value_huge]
  rfl

theorem huge_defined : (huge : α) ≤ huge := defined_of_isFinite ⟨_, value_huge⟩

theorem neg_huge_defined : (-huge : α) ≤ -huge := defined_of_isFinite ⟨_, value_neg_huge⟩

/-! ### Moving numbers between bounds -/

theorem isUndefined_value (x : α) : isUndefined (value x) = isUndefined x := by
  simp only [isUndefined, value_le_iff]

theorem value_atLeast (lo x : α) : value (atLeast lo x) = atLeast (value lo) (value x) := by
  simp only [atLeast, isUndefined_value, value_lt_iff, apply_ite value]

theorem value_atMost (hi x : α) : value (atMost hi x) = atMost (value hi) (value x) := by
  simp only [atMost, isUndefined_value, value_lt_iff, apply_ite value]

theorem value_clamp (lo hi x : α) : value (clamp lo hi x) = clamp (value lo) (value hi) (value x) := by
  rw [clamp, value_atMost, value_atLeast, clamp]

end ValuedScalar

/-! ## Exact numbers -/

namespace Extended

section

variable {K : Type} [Field K] [LinearOrder K] [IsStrictOrderedRing K] [FloorRing K]

/-- A number with the values of another field. -/
def cast (f : K →+* ℝ) : Extended K → Extended ℝ
  | finite x => finite (f x)
  | top => top
  | bottom => bottom
  | undefined => undefined

omit [IsStrictOrderedRing K] in
theorem ofFraction_one (i : Int) : (ofFraction i 1 : Extended K) = finite (i : K) := by
  show (finite (i / ((1 : Nat) : K)) : Extended K) = finite (i : K)
  rw [Nat.cast_one, div_one]

/-- Exact numbers of a field whose elements are real numbers. -/
noncomputable abbrev valued (f : K →+* ℝ) (hf : StrictMono f) : ValuedScalar (Extended K) where
  value := cast f
  value_le_iff {x y} := by
    cases x <;> cases y <;> simp [cast, hf.le_iff_le]
  value_lt_iff {x y} := by
    rw [Extended.lt_iff, Extended.lt_iff]
    cases x <;> cases y <;> simp [cast, hf.le_iff_le]
  value_neg x := by
    cases x with
    | finite a => exact congrArg finite (map_neg f a)
    | top | bottom | undefined => rfl
  value_infinity := rfl
  value_zero := by rw [zero_eq, cast, map_zero]
  value_one := by rw [one_eq, cast, map_one]
  value_barrier := by
    rw [huge, ofFraction_one, cast, map_intCast, Nat.pow_eq, Int.cast_natCast]
  isFinite_of_abs_sub_lt {x y c} h := by
    cases x <;> cases y
    case finite.finite a b => exact ⟨isFinite_finite _, isFinite_finite _⟩
    all_goals
      exfalso
      cases c <;> exact Bool.false_ne_true h
  nearest_ofInt {i} _ := by
    refine ⟨i, by rw [ofFraction_one, cast, map_intCast], fun _ b _ => ?_⟩
    rw [sub_self, abs_zero]
    exact abs_nonneg _

end

noncomputable instance : ValuedScalar (Extended ℝ) := valued (.id ℝ) strictMono_id

noncomputable instance : ValuedScalar (Extended ℚ) := valued (Rat.castHom ℝ) Rat.cast_strictMono

end Extended
end Presolve
