import Presolve.Proofs.Number.Valued

/-!
# Values that become numbers

A value that a number has stays as it is, and an integer becomes the number nearest to it: `Converts`. The
nearest number does not cross any other (`IsNearest.value_le`), so conversion keeps the order of values
(`Converts.value_le_value`) and their signs. It does not keep the values of integers that lie between two
numbers.
-/

namespace Presolve

open Scalar Extended ValuedScalar

variable {α : Type} [Scalar α] [ValuedScalar α]

/-- No number is nearer to a value than this one; a value that is not finite is its own. -/
def IsNearest (x : α) : Extended ℝ → Prop
  | finite a => ∃ b, value x = finite b ∧ ∀ (y : α) (c : ℝ), value y = finite c → |b - a| ≤ |c - a|
  | r => value x = r

/-- A value and the number that it becomes. -/
inductive Converts : Extended ℝ → α → Prop
  | number (x : α) : Converts (value x) x
  | integer {i : Int} (h : fits i) : Converts (finite i) (ofFraction i 1)

/-! ## Nearest numbers -/

variable {r r' : Extended ℝ} {x x' y : α}

theorem isNearest_self (h : value x = r) : IsNearest x r := by
  cases r with
  | finite a =>
    refine ⟨a, h, fun y c _ => ?_⟩
    rw [sub_self, abs_zero]
    exact abs_nonneg _
  | top | bottom | undefined => exact h

theorem isNearest_ofFraction {i : Int} (h : fits i) : IsNearest (ofFraction i 1 : α) (finite i) :=
  nearest_ofInt h

/-- A value that some number has is that of the nearest number. -/
theorem IsNearest.value_eq (h : IsNearest x (value y)) : value x = value y := by
  cases hy : value y with
  | finite a =>
    rw [hy] at h
    obtain ⟨b, hb, hnearest⟩ := h
    have hzero : |b - a| ≤ 0 := by simpa using hnearest y a hy
    rw [hb, sub_eq_zero.1 (abs_nonpos_iff.1 hzero)]
  | top | bottom | undefined =>
    rw [hy] at h
    exact h

theorem IsNearest.congr (h : IsNearest x r) (hy : value y = value x) : IsNearest y r := by
  cases r with
  | finite a =>
    obtain ⟨b, hb, hnearest⟩ := h
    exact ⟨b, hy.trans hb, hnearest⟩
  | top | bottom | undefined => exact hy.trans h

/-- A number above a value is not below the nearest one. -/
theorem IsNearest.value_le (h : IsNearest x r) (hr : r ≤ value y) : value x ≤ value y := by
  cases r with
  | finite a =>
    obtain ⟨b, hb, hnearest⟩ := h
    rw [hb]
    cases hy : value y <;> rw [hy] at hr
    case finite c =>
      rw [finite_le] at hr ⊢
      have hnear := hnearest y c hy
      rw [abs_of_nonneg (sub_nonneg.2 hr)] at hnear
      exact (sub_le_sub_iff_right a).1 ((le_abs_self _).trans hnear)
    all_goals simp_all
  | top | bottom | undefined =>
    have h : value x = _ := h
    rwa [h]

/-- A number below a value is not above the nearest one. -/
theorem IsNearest.le_value (h : IsNearest x r) (hr : value y ≤ r) : value y ≤ value x := by
  cases r with
  | finite a =>
    obtain ⟨b, hb, hnearest⟩ := h
    rw [hb]
    cases hy : value y <;> rw [hy] at hr
    case finite c =>
      rw [finite_le] at hr ⊢
      have hnear := hnearest y c hy
      rw [abs_of_nonpos (sub_nonpos.2 hr), neg_sub, abs_sub_comm] at hnear
      exact (sub_le_sub_iff_left a).1 ((le_abs_self _).trans hnear)
    all_goals simp_all
  | top | bottom | undefined =>
    have h : value x = _ := h
    rwa [h]

/-! ## Conversion -/

/-- Of two numbers, the one that is as near to the lesser of two values is not the greater one. -/
theorem le_of_nearer {i j b c : ℝ} (h : i < j) (hb : |b - i| ≤ |c - i|) (hc : |c - j| ≤ |b - j|) : b ≤ c := by
  by_contra! hcross
  -- both values would be on the wrong side of the middle between the numbers
  have hfirst := sq_le_sq.2 hb
  have hsecond := sq_le_sq.2 hc
  nlinarith

namespace Converts

theorem isNearest (h : Converts r x) : IsNearest x r := by
  cases h with
  | number => exact isNearest_self rfl
  | integer h => exact isNearest_ofFraction h

/-- Of two integers the lesser one becomes the lesser number. -/
theorem value_ofFraction_le {i j : Int} (hi : fits i) (hj : fits j) (h : i ≤ j) :
    value (ofFraction i 1 : α) ≤ value (ofFraction j 1 : α) := by
  rcases h.eq_or_lt with rfl | hlt
  · exact value_le_iff.2 (defined_of_isFinite (isFinite_ofFraction hi))
  · obtain ⟨b, hb, hnear⟩ := nearest_ofInt (α := α) hi
    obtain ⟨c, hc, hnear'⟩ := nearest_ofInt (α := α) hj
    have hlt : (i : ℝ) < j := by exact_mod_cast hlt
    rw [hb, hc, finite_le]
    exact le_of_nearer hlt (hnear _ c hc) (hnear' _ b hb)

/-- Conversion keeps the order of values. -/
theorem value_le_value (h : Converts r x) (h' : Converts r' x') (hle : r ≤ r') : value x ≤ value x' := by
  cases h with
  | number => exact h'.isNearest.le_value hle
  | integer hi =>
    cases h' with
    | number => exact (isNearest_ofFraction hi).value_le hle
    | integer hj => exact value_ofFraction_le hi hj (by exact_mod_cast (finite_le _ _).1 hle)

theorem undefined_iff (h : Converts r x) : value x = undefined ↔ r = undefined := by
  cases h with
  | number => exact Iff.rfl
  | integer hi =>
    obtain ⟨a, ha⟩ := isFinite_ofFraction (α := α) hi
    simp [ha]

theorem le_zero_iff (h : Converts r x) : value x ≤ finite 0 ↔ r ≤ finite 0 := by
  refine ⟨fun hx => ?_, fun hr => ?_⟩
  · cases h with
    | number => exact hx
    | @integer i hi =>
      rw [finite_le]
      by_contra! hpos
      have hone : 1 ≤ i := by exact_mod_cast hpos
      have hle : value (1 : α) ≤ value (ofFraction i 1 : α) := by
        refine (isNearest_ofFraction hi).le_value ?_
        rw [value_one, finite_le]
        exact_mod_cast hone
      rw [value_one] at hle
      exact absurd ((finite_le _ _).1 (Extended.le_trans hle hx)) (by norm_num)
  · rw [← value_zero (α := α)] at hr ⊢
    exact h.isNearest.value_le hr

theorem zero_le_iff (h : Converts r x) : finite 0 ≤ value x ↔ finite 0 ≤ r := by
  refine ⟨fun hx => ?_, fun hr => ?_⟩
  · cases h with
    | number => exact hx
    | @integer i hi =>
      rw [finite_le]
      by_contra! hneg
      have hone : i ≤ -1 := by
        have hneg : i < 0 := by exact_mod_cast hneg
        omega
      have hle : value (ofFraction i 1 : α) ≤ value (-1 : α) := by
        refine (isNearest_ofFraction hi).value_le ?_
        rw [value_neg, value_one]
        show (finite (i : ℝ) : Extended ℝ) ≤ finite (-1)
        rw [finite_le]
        exact_mod_cast hone
      rw [value_neg, value_one] at hle
      have hle := Extended.le_trans hx hle
      exact absurd ((finite_le 0 (-1)).1 hle) (by norm_num)
  · rw [← value_zero (α := α)] at hr ⊢
    exact h.isNearest.le_value hr

end Converts
end Presolve
