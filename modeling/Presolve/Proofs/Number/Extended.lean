import Mathlib.Algebra.Order.Field.Basic
import Mathlib.Algebra.Order.Floor.Ring
import Mathlib.Data.Rat.Floor
import Mathlib.Tactic.Linarith
import Mathlib.Tactic.Positivity
import Presolve.Number.Scalar

/-!
# Exact numbers with infinities

The numbers that a preparation is read over in the theory: those of an ordered field, two infinities and
an undefined value. Operations on numbers of the field are those of the field, so nothing is rounded;
the infinities behave as those of doubles do, and what has no meaning is undefined.

The last section is about an affine change of variables. It moves a bound, finite or not, in the same
way as it moves the points that the bound is compared with.
-/

namespace Presolve

/-- A number of `K`, an infinity or an undefined value. -/
inductive Extended (K : Type) where
  | finite (x : K)
  | top
  | bottom
  | undefined
deriving DecidableEq, Repr

namespace Extended

section

variable {K : Type} [Field K] [LinearOrder K]

/-! ## Operations -/

/-- The infinity of the sign of a number; zero has none. -/
def infinityOf (x : K) : Extended K := if 0 < x then top else if x < 0 then bottom else undefined

def neg : Extended K → Extended K
  | finite x => finite (-x)
  | top => bottom
  | bottom => top
  | undefined => undefined

def add : Extended K → Extended K → Extended K
  | finite x, finite y => finite (x + y)
  | finite _, top | top, finite _ | top, top => top
  | finite _, bottom | bottom, finite _ | bottom, bottom => bottom
  | _, _ => undefined

def mul : Extended K → Extended K → Extended K
  | finite x, finite y => finite (x * y)
  | finite x, top | top, finite x => infinityOf x
  | finite x, bottom | bottom, finite x => infinityOf (-x)
  | top, top | bottom, bottom => top
  | top, bottom | bottom, top => bottom
  | _, _ => undefined

/-- Division; zero as a divisor counts as positive. -/
def div : Extended K → Extended K → Extended K
  | finite x, finite y => if y = 0 then infinityOf x else finite (x / y)
  | finite _, top | finite _, bottom => finite 0
  | top, finite y => if y < 0 then bottom else top
  | bottom, finite y => if y < 0 then top else bottom
  | _, _ => undefined

def lt : Extended K → Extended K → Bool
  | finite x, finite y => decide (x < y)
  | finite _, top | bottom, finite _ | bottom, top => true
  | _, _ => false

def le : Extended K → Extended K → Bool
  | finite x, finite y => decide (x ≤ y)
  | finite _, top | bottom, finite _ | bottom, top | top, top | bottom, bottom => true
  | _, _ => false

/-- The sum of the squares of the entries of a vector. -/
def sumOfSquares (xs : List (Extended K)) : Extended K := xs.foldl (fun s x => add s (mul x x)) (finite 0)

instance [FloorRing K] : Scalar (Extended K) where
  add := add
  sub x y := add x (neg y)
  mul := mul
  div := div
  neg := neg
  lt x y := lt x y = true
  le x y := le x y = true
  decLt := fun x y => inferInstanceAs (Decidable (lt x y = true))
  decLe := fun x y => inferInstanceAs (Decidable (le x y = true))
  ofFraction num den := finite (num / den)
  infinity := top
  abs
    | finite x => finite (if x < 0 then -x else x)
    | top | bottom => top
    | undefined => undefined
  toInt?
    | finite x => if (⌊x⌋ : K) = x then some ⌊x⌋ else none
    | _ => none
  farther tol d x :=
    -- Norms are compared by their squares.
    let size := sumOfSquares x
    lt (mul (mul tol tol) (if lt (finite 1) size then size else finite 1)) (sumOfSquares d)

end

variable {K : Type} [Field K] [LinearOrder K] [FloorRing K]

open Scalar

/-! ## Numbers of the field -/

section

variable (x y : K)

@[simp] theorem finite_add : (finite x + finite y : Extended K) = finite (x + y) := rfl

@[simp] theorem finite_mul : (finite x * finite y : Extended K) = finite (x * y) := rfl

@[simp] theorem finite_sub : (finite x - finite y : Extended K) = finite (x - y) :=
  congrArg finite (sub_eq_add_neg x y).symm

theorem finite_div {y : K} (h : y ≠ 0) : (finite x / finite y : Extended K) = finite (x / y) :=
  if_neg h

@[simp] theorem finite_lt : (finite x : Extended K) < finite y ↔ x < y := decide_eq_true_iff

@[simp] theorem finite_le : (finite x : Extended K) ≤ finite y ↔ x ≤ y := decide_eq_true_iff

theorem ofNat_eq (n : Nat) : (@OfNat.ofNat (Extended K) n (Scalar.instOfNat n)) = finite (n : K) := by
  show (finite (((n : Int) : K) / ((1 : Nat) : K)) : Extended K) = finite (n : K)
  rw [Int.cast_natCast, Nat.cast_one, div_one]

theorem zero_eq : (0 : Extended K) = finite 0 := by rw [ofNat_eq, Nat.cast_zero]

theorem one_eq : (1 : Extended K) = finite 1 := by rw [ofNat_eq, Nat.cast_one]

theorem two_eq : (2 : Extended K) = finite 2 := by
  rw [ofNat_eq]
  rfl

/-- The least radius and factor as a number of the field. -/
def tiny : K := 1 / 2 ^ 52

omit [FloorRing K] in
theorem tiny_pos [IsStrictOrderedRing K] : 0 < (tiny : K) := by
  unfold tiny
  positivity

theorem epsilon_eq : (epsilon : Extended K) = finite tiny := by
  show (finite (((1 : Int) : K) / ((Nat.pow 2 52 : Nat) : K)) : Extended K) = finite tiny
  rw [tiny, Int.cast_one]
  norm_cast

end

/-! ## Infinite and undefined values -/

section

variable (s : K)

theorem top_add : (top + finite s : Extended K) = top := rfl

theorem bottom_add : (bottom + finite s : Extended K) = bottom := rfl

theorem undefined_add (x : Extended K) : undefined + x = undefined := by
  cases x <;> rfl

theorem top_sub : (top - finite s : Extended K) = top := rfl

theorem bottom_sub : (bottom - finite s : Extended K) = bottom := rfl

theorem undefined_sub (x : Extended K) : undefined - x = undefined := undefined_add _

theorem undefined_div (x : Extended K) : undefined / x = undefined := by
  cases x <;> rfl

theorem mul_undefined (x : Extended K) : x * undefined = undefined := by
  cases x <;> rfl

@[simp] theorem not_undefined_le (x : Extended K) : ¬undefined ≤ x := by
  cases x <;> exact Bool.false_ne_true

@[simp] theorem not_le_undefined (x : Extended K) : ¬x ≤ undefined := by
  cases x <;> exact Bool.false_ne_true

@[simp] theorem finite_le_top (x : K) : finite x ≤ top := rfl

@[simp] theorem bottom_le_finite (x : K) : bottom ≤ finite x := rfl

@[simp] theorem bottom_le_top : (bottom : Extended K) ≤ top := rfl

@[simp] theorem not_top_le_bottom : ¬(top : Extended K) ≤ bottom := Bool.false_ne_true

@[simp] theorem not_top_le_finite (x : K) : ¬top ≤ finite x := Bool.false_ne_true

@[simp] theorem not_finite_le_bottom (x : K) : ¬finite x ≤ bottom := Bool.false_ne_true

variable {f : K}

theorem top_div (hf : 0 < f) : (top / finite f : Extended K) = top := if_neg hf.not_gt

theorem bottom_div (hf : 0 < f) : (bottom / finite f : Extended K) = bottom := if_neg hf.not_gt

theorem mul_top (hf : 0 < f) : (finite f * top : Extended K) = top := if_pos hf

theorem mul_bottom [IsStrictOrderedRing K] (hf : 0 < f) : (finite f * bottom : Extended K) = bottom := by
  have hneg : -f < 0 := neg_lt_zero.2 hf
  show infinityOf (-f) = bottom
  exact (if_neg hneg.not_gt).trans (if_pos hneg)

end

/-! ## Affine maps -/

section

variable {f : K} (s : K)

/-- A number that is moved and stretched comes back by the inverse steps. -/
theorem affine_inverse [IsStrictOrderedRing K] (hf : 0 < f) (y : Extended K) :
    (finite f * y + finite s - finite s) / finite f = y := by
  cases y with
  | finite y =>
    rw [finite_mul, finite_add, finite_sub, finite_div _ hf.ne', add_sub_cancel_right,
      mul_div_cancel_left₀ _ hf.ne']
  | top => rw [mul_top hf, top_add, top_sub, top_div hf]
  | bottom => rw [mul_bottom hf, bottom_add, bottom_sub, bottom_div hf]
  | undefined => rw [mul_undefined, undefined_add, undefined_sub, undefined_div]

theorem inverse_affine [IsStrictOrderedRing K] (hf : 0 < f) (x : Extended K) :
    finite f * ((x - finite s) / finite f) + finite s = x := by
  cases x with
  | finite x =>
    rw [finite_sub, finite_div _ hf.ne', finite_mul, finite_add, mul_div_cancel₀ _ hf.ne',
      sub_add_cancel]
  | top => rw [top_sub, top_div hf, mul_top hf, top_add]
  | bottom => rw [bottom_sub, bottom_div hf, mul_bottom hf, bottom_add]
  | undefined => rw [undefined_sub, undefined_div, mul_undefined, undefined_add]

variable [IsStrictOrderedRing K]

/-- A lower bound and a point may be moved and stretched together. -/
theorem div_sub_le_iff (hf : 0 < f) (x : Extended K) (y : K) :
    (x - finite s) / finite f ≤ finite y ↔ x ≤ finite (f * y + s) := by
  cases x with
  | finite x =>
    rw [finite_sub, finite_div _ hf.ne', finite_le, finite_le, div_le_iff₀ hf, sub_le_iff_le_add,
      mul_comm]
  | top => rw [top_sub, top_div hf]; simp
  | bottom => rw [bottom_sub, bottom_div hf]; simp
  | undefined => rw [undefined_sub, undefined_div]; simp

/-- An upper bound and a point may be moved and stretched together. -/
theorem le_div_sub_iff (hf : 0 < f) (x : Extended K) (y : K) :
    finite y ≤ (x - finite s) / finite f ↔ finite (f * y + s) ≤ x := by
  cases x with
  | finite x =>
    rw [finite_sub, finite_div _ hf.ne', finite_le, finite_le, le_div_iff₀ hf, le_sub_iff_add_le,
      mul_comm]
  | top => rw [top_sub, top_div hf]; simp
  | bottom => rw [bottom_sub, bottom_div hf]; simp
  | undefined => rw [undefined_sub, undefined_div]; simp

/-- A part of a sum may move to a right-hand side, finite or not. -/
theorem le_sub_iff (b : Extended K) (a : K) : finite a ≤ b - finite s ↔ finite (a + s) ≤ b := by
  cases b with
  | finite b => rw [finite_sub, finite_le, finite_le, le_sub_iff_add_le]
  | top => rw [top_sub]; simp
  | bottom => rw [bottom_sub]; simp
  | undefined => rw [undefined_sub]; simp

theorem sub_le_iff (b : Extended K) (a : K) : b - finite s ≤ finite a ↔ b ≤ finite (a + s) := by
  cases b with
  | finite b => rw [finite_sub, finite_le, finite_le, sub_le_iff_le_add]
  | top => rw [top_sub]; simp
  | bottom => rw [bottom_sub]; simp
  | undefined => rw [undefined_sub]; simp

end

/-- Is it a number of the field? -/
def IsFinite (x : Extended K) : Prop := ∃ a, x = finite a

omit [Field K] [LinearOrder K] [FloorRing K] in
@[simp] theorem isFinite_finite (a : K) : IsFinite (finite a) := ⟨a, rfl⟩

theorem isFinite_sub {x y : Extended K} (hx : IsFinite x) (hy : IsFinite y) :
    IsFinite (x - y) := by
  obtain ⟨a, rfl⟩ := hx
  obtain ⟨b, rfl⟩ := hy
  rw [finite_sub]
  exact isFinite_finite _

/-- A sum is a number only if both of its parts are. -/
theorem isFinite_of_add {x y : Extended K} (h : IsFinite (x + y)) : IsFinite x ∧ IsFinite y := by
  obtain ⟨c, hc⟩ := h
  cases x <;> cases y
  case finite.finite a b => exact ⟨isFinite_finite a, isFinite_finite b⟩
  all_goals cases hc

/-- A quotient by a positive number is a number only if the dividend is. -/
theorem isFinite_of_div {x : Extended K} {d : K} (hd : 0 < d) (h : IsFinite (x / finite d)) :
    IsFinite x := by
  obtain ⟨c, hc⟩ := h
  cases x with
  | finite a => exact isFinite_finite a
  | top => rw [top_div hd] at hc; cases hc
  | bottom => rw [bottom_div hd] at hc; cases hc
  | undefined => rw [undefined_div] at hc; cases hc

/-! ## Exchange with doubles -/

/-- Rational numbers are read and written through the nearest doubles. -/
instance : Interchange (Extended ℚ) where
  ofDouble x :=
    match Binary64.toRat? x with
    | some q => finite q
    | none => if x ≤ 0 then bottom else if 0 ≤ x then top else undefined
  toDouble
    | finite q => Binary64.nearest (q < 0) q.num.natAbs q.den
    | top => Binary64.ofMantissa false 0 2047
    | bottom => Binary64.ofMantissa true 0 2047
    | undefined => 0 / 0

end Extended
end Presolve
