import Mathlib.Analysis.Real.Sqrt
import Presolve.Proofs.Number.Steady

/-!
# Norms

Whether a point is far from another one is judged by Euclidean norms, in proportion to the norm of the
second one. `NormedScalar` names the norm. Over doubles every step of it is rounded, so the norm of a long
vector may be infinite although its entries are not; over real numbers it is exact, and comparing norms is
comparing their squares (`Extended.lt_root_iff`).
-/

namespace Presolve

open Scalar

/-- Numbers whose vectors have a norm, by which distances are judged. -/
class NormedScalar (α : Type) [Scalar α] where
  norm : List α → α
  farther_iff {d x : List α} : farther epsilon d x = true ↔ epsilon * larger 1 (norm x) < norm d
  /-- Nothing is far in proportion to an infinite norm. -/
  not_farther_of_infinite {d x : List α} (h : infinity ≤ norm x) : farther epsilon d x = false

/-! ## Doubles -/

namespace Binary64

open Float.Model

theorem not_farther_of_infinite {d x : List Float} (h : infinity ≤ norm x) :
    farther epsilon d x = false := by
  have hnorm : unpacked (norm x) = .infinity .positive := by
    have h : (UnpackedFloat.infinity .positive).le (unpacked (norm x)) = true := le_iff.1 h
    rcases hx : unpacked (norm x) with (_ | _) | _ | s | ⟨_ | _, m, e, hm⟩ <;> rw [hx] at h <;>
      first | rfl | cases h
  have hlong : 1 < norm x := by
    rw [lt_iff, hnorm]
    rfl
  show decide (epsilon * (if 1 < norm x then norm x else 1) < norm d) = false
  rw [if_pos hlong, decide_eq_false_iff_not, lt_iff, unpacked_mul, unpacked_epsilon, hnorm]
  cases unpacked (norm d) with
  | infinity s => cases s <;> exact Bool.false_ne_true
  | _ => exact Bool.false_ne_true

end Binary64

instance : NormedScalar Float where
  norm := Binary64.norm
  farther_iff := decide_eq_true_iff
  not_farther_of_infinite := Binary64.not_farther_of_infinite

/-! ## Real numbers -/

namespace Extended

/-- The square root of a number; what is not finite has none but itself. -/
noncomputable def root : Extended ℝ → Extended ℝ
  | finite s => finite √s
  | x => x

/-- The Euclidean norm. -/
noncomputable def norm (xs : List (Extended ℝ)) : Extended ℝ := root (sumOfSquares xs)

theorem larger_one_top : larger 1 top = (top : Extended ℝ) := by
  rw [one_eq]
  rfl

/-- The greater of one and a root is the root of the greater of one and the number. -/
theorem larger_one_root {x : Extended ℝ} (h : x ≠ top) : ∃ m : ℝ, 0 < m ∧
    larger 1 (root x) = finite m ∧ larger (finite 1) x = finite (m * m) := by
  have hone (hx : larger (finite 1) x = finite 1) (hroot : larger 1 (root x) = finite 1) :
      ∃ m : ℝ, 0 < m ∧ larger 1 (root x) = finite m ∧ larger (finite 1) x = finite (m * m) :=
    ⟨1, one_pos, hroot, by rw [hx, mul_one]⟩
  cases x with
  | finite s =>
    by_cases hs : 1 < s
    · have hroot : 1 < √s := Real.lt_sqrt_of_sq_lt (by rwa [one_pow])
      refine ⟨√s, one_pos.trans hroot, ?_, ?_⟩
      · rw [one_eq, root, larger, if_pos ((finite_lt 1 _).2 hroot)]
      · rw [larger, if_pos ((finite_lt 1 s).2 hs), Real.mul_self_sqrt (one_pos.trans hs).le]
    · have hroot : ¬1 < √s := by rwa [Real.lt_sqrt zero_le_one, one_pow]
      apply hone
      · rw [larger, if_neg (by simpa using hs)]
      · rw [one_eq, root, larger, if_neg (by simpa using hroot)]
  | top => exact absurd rfl h
  | bottom | undefined => exact hone rfl (by rw [one_eq]; rfl)

/-- Norms are compared as their squares are. -/
theorem lt_root_iff (size distance : Extended ℝ) :
    epsilon * epsilon * larger (finite 1) size < distance ↔
      epsilon * larger 1 (root size) < root distance := by
  rw [epsilon_eq]
  by_cases htop : size = top
  · have hsquare : larger (finite 1) (top : Extended ℝ) = top := rfl
    have hroot : root top = top := rfl
    rw [htop, hroot, larger_one_top, hsquare, finite_mul, mul_top tiny_pos,
      mul_top (mul_pos tiny_pos tiny_pos)]
    cases distance <;> exact Iff.rfl
  · obtain ⟨m, hm, hroot, hsquare⟩ := larger_one_root htop
    have hpos : (0 : ℝ) ≤ tiny * m := (mul_pos tiny_pos hm).le
    rw [hroot, hsquare, finite_mul, finite_mul, finite_mul]
    cases distance with
    | finite d =>
      rw [root, finite_lt, finite_lt, Real.lt_sqrt hpos, sq, mul_mul_mul_comm]
    | top | bottom | undefined => exact Iff.rfl

theorem not_farther_of_infinite {d x : List (Extended ℝ)} (h : infinity ≤ norm x) :
    farther epsilon d x = false := by
  have hnorm : norm x = top := by
    have h : top ≤ norm x := h
    cases hx : norm x <;> rw [hx] at h <;> first | rfl | cases h
  rw [Bool.eq_false_iff]
  intro hfar
  have hlt : epsilon * larger 1 (norm x) < norm d := (lt_root_iff (sumOfSquares x) (sumOfSquares d)).1 hfar
  rw [hnorm, larger_one_top, epsilon_eq, mul_top tiny_pos] at hlt
  cases hd : norm d <;> rw [hd] at hlt <;> cases hlt

end Extended

noncomputable instance : NormedScalar (Extended ℝ) where
  norm := Extended.norm
  farther_iff := Extended.lt_root_iff _ _
  not_farther_of_infinite := Extended.not_farther_of_infinite

end Presolve
