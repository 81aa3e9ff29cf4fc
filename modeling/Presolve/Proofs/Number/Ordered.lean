import Presolve.Proofs.Number.Extended

/-!
# The order of exact numbers

An undefined number compares to nothing, itself included, so the order of numbers with an undefined one
among them is not reflexive. It is a linear order on the others: a number `x` is defined if `x ≤ x`, and
a comparison that holds has two defined sides.

The second section says what the maxima and minima of such numbers are. `larger` and `smaller` prefer their
first argument; `minimum?` is undefined if one of the numbers is.
-/

namespace Presolve.Extended

open Scalar

variable {K : Type} [Field K] [LinearOrder K] [FloorRing K] {x y z : Extended K}

/-! ## Comparisons -/

@[simp] theorem top_le_top : (top : Extended K) ≤ top := rfl

@[simp] theorem bottom_le_bottom : (bottom : Extended K) ≤ bottom := rfl

theorem isUndefined_eq_false : isUndefined x = false ↔ x ≤ x := by
  simp [isUndefined]

/-- One number is less than another if it is at most the other and not the other way round. -/
theorem lt_iff : x < y ↔ x ≤ y ∧ ¬y ≤ x := by
  change lt x y = true ↔ le x y = true ∧ ¬le y x = true
  cases x <;> cases y <;> simp [lt, le]
  exact le_of_lt

protected theorem le_of_lt (h : x < y) : x ≤ y := (lt_iff.1 h).1

/-- Nothing compares to the undefined number. -/
theorem not_lt_undefined (x : Extended K) : ¬x < undefined := fun h =>
  not_le_undefined x (Extended.le_of_lt h)

protected theorem le_trans (h : x ≤ y) (h' : y ≤ z) : x ≤ z := by
  cases x <;> cases y <;> cases z <;> simp_all
  exact h.trans h'

protected theorem le_antisymm (h : x ≤ y) (h' : y ≤ x) : x = y := by
  cases x <;> cases y <;> simp_all [le_antisymm_iff]

theorem eq_finite_iff {a : K} : x = finite a ↔ x ≤ finite a ∧ finite a ≤ x := by
  refine ⟨?_, fun h => Extended.le_antisymm h.1 h.2⟩
  rintro rfl
  simp

protected theorem lt_of_lt_of_le (h : x < y) (h' : y ≤ z) : x < z := by
  rw [lt_iff] at h ⊢
  exact ⟨Extended.le_trans h.1 h', fun hzx => h.2 (Extended.le_trans h' hzx)⟩

protected theorem lt_of_le_of_lt (h : x ≤ y) (h' : y < z) : x < z := by
  rw [lt_iff] at h' ⊢
  exact ⟨Extended.le_trans h h'.1, fun hzx => h'.2 (Extended.le_trans hzx h)⟩

/-- Two defined numbers are comparable. -/
protected theorem le_total (hx : x ≤ x) (hy : y ≤ y) : x ≤ y ∨ y ≤ x := by
  cases x <;> cases y <;> simp_all
  exact le_total _ _

/-- Only the undefined number does not compare to itself. -/
theorem eq_undefined (h : ¬x ≤ x) : x = undefined := by
  cases x <;> simp_all

theorem defined_left (h : x ≤ y) : x ≤ x := by
  cases x <;> simp_all

theorem defined_right (h : x ≤ y) : y ≤ y := by
  cases y <;> simp_all

protected theorem not_lt (hx : x ≤ x) (hy : y ≤ y) : ¬x < y ↔ y ≤ x := by
  rw [lt_iff]
  constructor
  · intro h
    rcases Extended.le_total hx hy with hxy | hyx
    · by_contra hyx
      exact h ⟨hxy, hyx⟩
    · exact hyx
  · exact fun hyx h => h.2 hyx

protected theorem not_le (hx : x ≤ x) (hy : y ≤ y) : ¬x ≤ y ↔ y < x := by
  rw [← Extended.not_lt hy hx, not_not]

theorem epsilon_defined : (epsilon : Extended K) ≤ epsilon := by
  rw [epsilon_eq, finite_le]

/-- Between two numbers of the field there are only numbers of the field. -/
theorem isFinite_of_between {a b : K} (ha : finite a ≤ x) (hb : x ≤ finite b) : IsFinite x := by
  cases x <;> simp_all

/-- A positive multiple of a number that is not tiny is at most that number exactly if the factor is at
most one, except that there is nothing beyond infinity. -/
theorem finite_mul_le_iff [IsStrictOrderedRing K] {q : K} (hx : epsilon ≤ x) (hq : 0 < q) :
    finite q * x ≤ finite q * x ∧ (finite q * x ≤ x ↔ q ≤ 1 ∨ x = top) := by
  rw [epsilon_eq] at hx
  cases x with
  | finite p =>
    have hp : 0 < p := lt_of_lt_of_le tiny_pos ((finite_le _ _).1 hx)
    rw [finite_mul, finite_le, finite_le]
    simp [mul_le_iff_le_one_left hp]
  | top =>
    rw [mul_top hq]
    simp
  | bottom => simp at hx
  | undefined => simp at hx

/-- A number is the same as a defined one only if the two are equal. -/
theorem same_iff_eq (hy : y ≤ y) : same x y = true ↔ x = y := by
  rw [same, Bool.and_eq_true, decide_eq_true_eq, decide_eq_true_eq]
  cases x <;> cases y <;> simp_all [le_antisymm_iff]

/-- A quotient by a positive number is infinite only where the dividend is. -/
theorem div_eq_infinite_iff {d : K} (hd : 0 < d) :
    (x / finite d = top ↔ x = top) ∧ (x / finite d = bottom ↔ x = bottom) := by
  cases x with
  | finite a => simp [finite_div _ hd.ne']
  | top => simp [top_div hd]
  | bottom => simp [bottom_div hd]
  | undefined => simp [undefined_div]

theorem abs_eq_top : Scalar.abs x = top ↔ x = top ∨ x = bottom := by
  cases x <;> simp [Scalar.abs]

theorem abs_finite [IsStrictOrderedRing K] (a : K) : Scalar.abs (finite a) = finite |a| := by
  show finite (if a < 0 then -a else a) = finite |a|
  split
  · next h => rw [abs_of_neg h]
  · next h => rw [abs_of_nonneg (not_lt.1 h)]

/-! ## Maxima and minima -/

theorem larger_defined (hx : x ≤ x) : larger x y ≤ larger x y := by
  unfold larger
  split
  · next h => exact defined_right (Extended.le_of_lt h)
  · exact hx

theorem le_larger_left (hx : x ≤ x) : x ≤ larger x y := by
  unfold larger
  split
  · next h => exact Extended.le_of_lt h
  · exact hx

theorem le_larger_right (hx : x ≤ x) (hy : y ≤ y) : y ≤ larger x y := by
  unfold larger
  split
  · exact hy
  · next h => exact (Extended.not_lt hx hy).1 h

/-- The larger of two defined numbers is at most what both are at most. -/
theorem larger_le_iff (hx : x ≤ x) (hy : y ≤ y) : larger x y ≤ z ↔ x ≤ z ∧ y ≤ z := by
  constructor
  · intro h
    exact ⟨Extended.le_trans (le_larger_left hx) h, Extended.le_trans (le_larger_right hx hy) h⟩
  · intro h
    unfold larger
    split
    · exact h.2
    · exact h.1

theorem smaller_defined (hx : x ≤ x) : smaller x y ≤ smaller x y := by
  unfold smaller
  split
  · next h => exact defined_left (Extended.le_of_lt h)
  · exact hx

theorem smaller_le_left (hx : x ≤ x) : smaller x y ≤ x := by
  unfold smaller
  split
  · next h => exact Extended.le_of_lt h
  · exact hx

theorem smaller_le_right (hx : x ≤ x) (hy : y ≤ y) : smaller x y ≤ y := by
  unfold smaller
  split
  · exact hy
  · next h => exact (Extended.not_lt hy hx).1 h

/-- The lesser of two numbers, where it is defined, is one of them and at most both. -/
theorem meet_spec (h : meet x y ≤ meet x y) :
    (meet x y = x ∨ meet x y = y) ∧ meet x y ≤ x ∧ meet x y ≤ y := by
  unfold meet at h ⊢
  split at h
  · next hxy =>
    rw [if_pos hxy]
    exact ⟨.inl rfl, h, hxy⟩
  · next hxy =>
    rw [if_neg hxy]
    split at h
    · next hyx =>
      rw [if_pos hyx]
      exact ⟨.inr rfl, hyx, h⟩
    · next hyx =>
      -- of two numbers that do not compare one is undefined, and so is their sum
      exfalso
      cases x <;> cases y <;> simp_all [undefined_add]
      · exact absurd hyx (not_lt.2 (le_of_lt hxy))
      all_goals exact Bool.false_ne_true h

/-- The least of some numbers, where it is defined, is one of them and at most each. -/
theorem minimum?_spec {xs : List (Extended K)} {m : Extended K} (h : minimum? xs = some m)
    (hm : m ≤ m) : m ∈ xs ∧ ∀ x ∈ xs, m ≤ x := by
  cases xs with
  | nil => cases h
  | cons x xs =>
    cases h
    induction xs generalizing x with
    | nil => exact ⟨by simp, by simpa using hm⟩
    | cons y xs ih =>
      -- the first two numbers are in the list as the lesser of them
      obtain ⟨hmem, hle⟩ := ih (meet x y) hm
      have hmeet : meet x y ≤ meet x y := defined_right (hle _ (by simp))
      obtain ⟨hone, hx, hy⟩ := meet_spec hmeet
      have hfirst := hle (meet x y) (by simp)
      refine ⟨?_, ?_⟩
      · rcases List.mem_cons.1 hmem with hmem | hmem
        · rw [List.foldl_cons, hmem]
          rcases hone with h | h <;> simp [h]
        · simp [hmem]
      · intro a ha
        rcases List.mem_cons.1 ha with rfl | ha
        · exact Extended.le_trans hfirst hx
        · rcases List.mem_cons.1 ha with rfl | ha
          · exact Extended.le_trans hfirst hy
          · exact hle a (by simp [ha])

/-! ## Moving numbers between bounds -/

section

variable {lo hi : Extended K}

/-- A number that is at least a bound need not be raised to it. -/
theorem atLeast_eq_self (h : lo ≤ x) : atLeast lo x = x := by
  have hx := defined_right h
  rw [atLeast, isUndefined_eq_false.2 hx, if_neg Bool.false_ne_true]
  split
  · rfl
  · next hnot => exact Extended.le_antisymm h ((Extended.not_lt (defined_left h) hx).1 hnot)

theorem atMost_eq_self (h : x ≤ hi) : atMost hi x = x := by
  have hx := defined_left h
  rw [atMost, isUndefined_eq_false.2 hx, if_neg Bool.false_ne_true]
  split
  · rfl
  · next hnot => exact Extended.le_antisymm ((Extended.not_lt hx (defined_right h)).1 hnot) h

end

end Presolve.Extended
