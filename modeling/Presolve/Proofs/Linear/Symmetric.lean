import Presolve.Proofs.Linear.Exact
import Presolve.Proofs.Linear.Order
import Presolve.Proofs.Number.Ordered

/-!
# Vectors whose order does not matter

Sums, maxima and minima of exact numbers do not depend on the order of the numbers, not even where some of
them are infinite or undefined. So what a preparation computes from a whole vector stays as it is where the
vector is put into another order, and so does what it computes from two vectors that are put into the
same one.
-/

namespace Presolve

open Scalar

namespace Extended

variable {K : Type} [Field K] [LinearOrder K] [FloorRing K]

/-! ## Operations on two numbers -/

theorem add_undefined (x : Extended K) : x + undefined = undefined := by
  cases x <;> rfl

protected theorem add_right_comm (x y z : Extended K) : x + y + z = x + z + y := by
  cases x <;> cases y <;> cases z
  case finite.finite.finite a b c =>
    rw [finite_add, finite_add, finite_add, finite_add, add_right_comm]
  all_goals rfl

theorem meet_top (x : Extended K) : meet x top = x ∧ meet top x = x := by
  cases x <;> simp [meet, undefined_add, add_undefined]

theorem meet_bottom {x : Extended K} (h : x ≤ x) : meet x bottom = bottom ∧ meet bottom x = bottom := by
  cases x <;> simp_all [meet]

theorem meet_undefined (x : Extended K) :
    meet x undefined = undefined ∧ meet undefined x = undefined := by
  cases x <;> simp [meet, undefined_add, add_undefined]

theorem meet_comm (x y : Extended K) : meet x y = meet y x := by
  cases x <;> cases y <;> simp [meet_top, meet_bottom, meet_undefined, meet_finite, min_comm]

theorem meet_right_comm (x y z : Extended K) : meet (meet x y) z = meet (meet x z) y := by
  cases x <;> cases y <;> cases z <;>
    simp [meet_top, meet_bottom, meet_undefined, meet_finite, min_comm, min_left_comm]

theorem join_bottom (x : Extended K) : join x bottom = x ∧ join bottom x = x := by
  cases x <;> simp [join, undefined_add, add_undefined]

theorem join_top {x : Extended K} (h : x ≤ x) : join x top = top ∧ join top x = top := by
  cases x <;> simp_all [join]

theorem join_undefined (x : Extended K) :
    join x undefined = undefined ∧ join undefined x = undefined := by
  cases x <;> simp [join, undefined_add, add_undefined]

theorem join_comm (x y : Extended K) : join x y = join y x := by
  cases x <;> cases y <;> simp [join_top, join_bottom, join_undefined, join_finite, max_comm]

theorem join_right_comm (x y z : Extended K) : join (join x y) z = join (join x z) y := by
  cases x <;> cases y <;> cases z <;>
    simp [join_top, join_bottom, join_undefined, join_finite, max_comm, max_left_comm]

/-- The worse of two numbers, of which an undefined one does not count. -/
def worse (x y : Extended K) : Extended K := if isUndefined y ∨ y < x then x else y

theorem worse_undefined (x : Extended K) : worse x undefined = x ∧ worse undefined x = x := by
  cases x <;> simp [worse, isUndefined, lt_iff]

/-- Of two defined numbers the greater one is the worse one. -/
theorem worse_eq_join {x y : Extended K} (hx : x ≤ x) (hy : y ≤ y) : worse x y = join x y := by
  have hundefined : isUndefined y = false := isUndefined_eq_false.2 hy
  rw [worse, join, hundefined]
  by_cases h : x ≤ y
  · have hlt : ¬y < x := (Extended.not_lt hy hx).2 h
    simp [h, hlt]
  · have hlt : y < x := (Extended.not_le hx hy).1 h
    simp [h, hlt, Extended.le_of_lt hlt]

theorem join_defined {x y : Extended K} (hx : x ≤ x) (hy : y ≤ y) : join x y ≤ join x y := by
  unfold join
  split
  · exact hy
  · split
    · exact hx
    · next hxy hyx => exact absurd ((Extended.le_total hx hy).resolve_left hxy) hyx

theorem worse_right_comm (x y z : Extended K) : worse (worse x y) z = worse (worse x z) y := by
  -- undefined numbers drop out, and the others are compared
  by_cases hx : x ≤ x
  · by_cases hy : y ≤ y
    · by_cases hz : z ≤ z
      · rw [worse_eq_join hx hy, worse_eq_join hx hz, worse_eq_join (join_defined hx hy) hz,
          worse_eq_join (join_defined hx hz) hy, join_right_comm]
      · obtain rfl := eq_undefined hz
        simp only [worse_undefined]
    · obtain rfl := eq_undefined hy
      simp only [worse_undefined]
  · obtain rfl := eq_undefined hx
    by_cases hy : y ≤ y
    · by_cases hz : z ≤ z
      · rw [(worse_undefined y).2, (worse_undefined z).2, worse_eq_join hy hz, worse_eq_join hz hy,
          join_comm]
      · obtain rfl := eq_undefined hz
        simp only [worse_undefined]
    · obtain rfl := eq_undefined hy
      simp only [worse_undefined]

/-! ## Vectors -/

variable {xs ys : List (Extended K)}

theorem total_perm (h : xs.Perm ys) : total xs = total ys := by
  have hcomm : RightCommutative (· + · : Extended K → Extended K → Extended K) :=
    ⟨Extended.add_right_comm⟩
  exact h.foldl_eq 0

theorem worst_perm (h : xs.Perm ys) : worst xs = worst ys := by
  have hcomm : RightCommutative (worse : Extended K → Extended K → Extended K) := ⟨worse_right_comm⟩
  exact h.foldl_eq (f := worse) 0

theorem minimum?_perm (h : xs.Perm ys) : minimum? xs = minimum? ys := by
  have hcomm : RightCommutative (meet : Extended K → Extended K → Extended K) := ⟨meet_right_comm⟩
  induction h with
  | nil => rfl
  | cons x h _ => exact congrArg some (h.foldl_eq x)
  | swap x y l => rw [minimum?, minimum?, List.foldl_cons, List.foldl_cons, meet_comm]
  | trans _ _ ih ih' => exact ih.trans ih'

theorem maximum?_perm (h : xs.Perm ys) : maximum? xs = maximum? ys := by
  have hcomm : RightCommutative (join : Extended K → Extended K → Extended K) := ⟨join_right_comm⟩
  induction h with
  | nil => rfl
  | cons x h _ => exact congrArg some (h.foldl_eq x)
  | swap x y l => rw [maximum?, maximum?, List.foldl_cons, List.foldl_cons, join_comm]
  | trans _ _ ih ih' => exact ih.trans ih'

theorem sumOfSquares_perm (h : xs.Perm ys) : sumOfSquares xs = sumOfSquares ys := by
  have hcomm : RightCommutative fun s x : Extended K => add s (mul x x) :=
    ⟨fun s x y => Extended.add_right_comm s (mul x x) (mul y y)⟩
  exact h.foldl_eq _

/-! ## Two vectors in one order -/

section

variable {o : Order}

theorem dot_apply (hx : xs.length = o.size) (hy : ys.length = o.size) :
    dot (o.apply xs) (o.apply ys) = dot xs ys := by
  have hproducts : (List.zipWith (· * ·) xs ys).length = o.size := by simp [hx, hy]
  rw [dot, ← Order.apply_zipWith (· * ·) (hx.trans hy.symm), dot]
  exact total_perm (Order.apply_perm hproducts)

theorem farther_apply {tol : Extended K} (hx : xs.length = o.size) (hy : ys.length = o.size) :
    farther tol (o.apply xs) (o.apply ys) = farther tol xs ys := by
  show lt (mul (mul tol tol) (if lt (finite 1) (sumOfSquares (o.apply ys)) then
    sumOfSquares (o.apply ys) else finite 1)) (sumOfSquares (o.apply xs)) = _
  rw [sumOfSquares_perm (Order.apply_perm hx), sumOfSquares_perm (Order.apply_perm hy)]
  rfl

end

end Extended
end Presolve
