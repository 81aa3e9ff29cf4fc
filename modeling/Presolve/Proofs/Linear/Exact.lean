import Mathlib.Algebra.BigOperators.Group.List.Basic
import Mathlib.Tactic.Ring
import Presolve.Constraint.Bounds
import Presolve.Proofs.Linear.Mask
import Presolve.Proofs.Number.Extended

/-!
# Vectors of exact numbers

Sums of products, maxima and minima of vectors whose entries are numbers of the field. They are again
numbers of the field, and satisfy the laws of sums there: a sum of products falls apart along a mask, and
is affine in its second argument.
-/

namespace Presolve

open Scalar

namespace Extended

variable {K : Type} [Field K] [LinearOrder K] [FloorRing K]

omit [Field K] [LinearOrder K] [FloorRing K] in
theorem exists_map_finite {xs : List (Extended K)} (h : ∀ x ∈ xs, IsFinite x) :
    ∃ ys : List K, xs = ys.map finite := by
  induction xs with
  | nil => exact ⟨[], rfl⟩
  | cons x xs ih =>
    obtain ⟨a, rfl⟩ := h x List.mem_cons_self
    obtain ⟨ys, rfl⟩ := ih fun y hy => h y (List.mem_cons_of_mem _ hy)
    exact ⟨a :: ys, rfl⟩

/-! ## Sums of products -/

theorem total_map_finite (xs : List K) : total (xs.map finite) = finite xs.sum := by
  -- over any sum so far, since the fold does not start from zero again
  have hfold : ∀ (s : K), (xs.map finite).foldl (· + ·) (finite s) = finite (s + xs.sum) := by
    induction xs with
    | nil => simp
    | cons x xs ih =>
      intro s
      rw [List.map_cons, List.foldl_cons, finite_add, ih, List.sum_cons, add_assoc]
  rw [total, zero_eq, hfold, zero_add]

/-- The sum of the products of the entries of two vectors. -/
def inner (xs ys : List K) : K := (List.zipWith (· * ·) xs ys).sum

theorem zipWith_mul_map (xs ys : List K) :
    List.zipWith (· * ·) (xs.map finite) (ys.map finite)
      = (List.zipWith (· * ·) xs ys).map (finite : K → Extended K) := by
  rw [List.zipWith_map, List.map_zipWith]
  rfl

theorem zipWith_add_map (xs ys : List K) :
    List.zipWith (· + ·) (xs.map finite) (ys.map finite)
      = (List.zipWith (· + ·) xs ys).map (finite : K → Extended K) := by
  rw [List.zipWith_map, List.map_zipWith]
  rfl

theorem dot_map_finite (xs ys : List K) :
    dot (xs.map finite) (ys.map finite) = finite (inner xs ys) := by
  rw [dot, zipWith_mul_map, total_map_finite, inner]

theorem isFinite_dot {xs ys : List (Extended K)} (hx : ∀ a ∈ xs, IsFinite a)
    (hy : ∀ a ∈ ys, IsFinite a) : IsFinite (dot xs ys) := by
  obtain ⟨xs, rfl⟩ := exists_map_finite hx
  obtain ⟨ys, rfl⟩ := exists_map_finite hy
  rw [dot_map_finite]
  exact isFinite_finite _

/-- A number taken from itself leaves nothing, if it leaves a number at all. -/
theorem sub_self_cases (x : Extended K) : x - x = finite 0 ∨ x - x = undefined := by
  cases x with
  | finite a => exact .inl (by rw [finite_sub, sub_self])
  | top | bottom | undefined => exact .inr rfl

omit [FloorRing K] in
theorem sumOfSquares_cases {ds : List (Extended K)} (h : ∀ d ∈ ds, d = finite 0 ∨ d = undefined) :
    sumOfSquares ds = finite 0 ∨ sumOfSquares ds = undefined := by
  refine List.foldlRecOn (motive := fun s => s = finite 0 ∨ s = undefined) ds _ (.inl rfl) ?_
  intro s hs d hd
  rcases hs with rfl | rfl
  · rcases h d hd with rfl | rfl
    · exact .inl (congrArg finite (by ring))
    · exact .inr rfl
  · exact .inr (by cases mul d d <;> rfl)

/-- No distance that counts as far is less than zero, since the size of a vector counts as one at least. -/
theorem not_scaled_lt_zero [IsStrictOrderedRing K] {c : Extended K}
    (hc : c = finite 1 ∨ lt (finite 1) c = true) :
    lt (mul (mul epsilon epsilon) c) (finite 0) = false := by
  have htiny : (0 : K) < tiny * tiny := mul_pos tiny_pos tiny_pos
  have hscale : mul epsilon epsilon = (finite (tiny * tiny) : Extended K) := by
    rw [epsilon_eq]
    rfl
  rw [hscale]
  rcases hc with rfl | hc
  · exact decide_eq_false (by simpa using htiny.le)
  · cases c with
    | finite y =>
      have hy : 1 < y := of_decide_eq_true hc
      exact decide_eq_false (not_lt.2 (mul_nonneg htiny.le (zero_le_one.trans hy.le)))
    | top =>
      show lt (infinityOf (tiny * tiny)) (finite (0 : K)) = false
      rw [infinityOf, if_pos htiny]
      rfl
    | bottom | undefined => cases hc

/-- No vector is far from itself, not even one with infinite or undefined entries. -/
theorem not_farther_self [IsStrictOrderedRing K] (xs : List (Extended K)) :
    farther epsilon (List.zipWith (· - ·) xs xs) xs = false := by
  have hsum : sumOfSquares (List.zipWith (· - ·) xs xs) = finite 0 ∨
      sumOfSquares (List.zipWith (· - ·) xs xs) = undefined := by
    apply sumOfSquares_cases
    rw [List.zipWith_self]
    intro d hd
    obtain ⟨x, -, rfl⟩ := List.mem_map.1 hd
    exact sub_self_cases x
  show lt (mul (mul epsilon epsilon) (if lt (finite 1) (sumOfSquares xs) then sumOfSquares xs
    else finite 1)) (sumOfSquares (List.zipWith (· - ·) xs xs)) = false
  rcases hsum with hsum | hsum
  · rw [hsum]
    apply not_scaled_lt_zero
    split
    · next h => exact .inr h
    · exact .inl rfl
  · rw [hsum]
    cases mul (mul epsilon epsilon) (if lt (finite 1) (sumOfSquares xs) then sumOfSquares xs
      else finite 1) <;> rfl

omit [LinearOrder K] [FloorRing K] in
theorem inner_merge {m : List Bool} {row xs ys : List K} (hrow : m.length = row.length)
    (hx : xs.length = Mask.count m) (hy : ys.length = Mask.count (Mask.others m)) :
    inner row (Mask.merge m xs ys)
      = inner (Mask.select m row) xs + inner (Mask.select (Mask.others m) row) ys := by
  induction m generalizing row xs ys with
  | nil =>
    have hrow : row = [] := by simpa [eq_comm] using hrow
    simp [hrow, inner, Mask.select, Mask.merge]
  | cons b m ih =>
    rcases row with _ | ⟨a, row⟩
    · simp at hrow
    have hrest : m.length = row.length := by simpa using hrow
    cases b with
    | true =>
      rcases xs with _ | ⟨x, xs⟩
      · simp [Mask.count] at hx
      have hx : xs.length = Mask.count m := by simpa [Mask.count] using hx
      have hy : ys.length = Mask.count (Mask.others m) := by simpa [Mask.count] using hy
      have ih := ih hrest hx hy
      simp only [inner, Mask.merge, Mask.select, Mask.others_cons, Bool.not_true,
        List.zipWith_cons_cons, List.sum_cons] at ih ⊢
      rw [ih, add_assoc]
    | false =>
      -- the other sum takes the product, and it stands between the two
      rcases ys with _ | ⟨y, ys⟩
      · simp [Mask.count] at hy
      have hx : xs.length = Mask.count m := by simpa [Mask.count] using hx
      have hy : ys.length = Mask.count (Mask.others m) := by simpa [Mask.count] using hy
      have ih := ih hrest hx hy
      simp only [inner, Mask.merge, Mask.select, Mask.others_cons, Bool.not_false,
        List.zipWith_cons_cons, List.sum_cons] at ih ⊢
      rw [ih]
      ring

/-- A sum of products falls apart into the parts of a mask. -/
theorem dot_split {m : List Bool} {row zs : List (Extended K)} (hrow : m.length = row.length)
    (hzs : m.length = zs.length) (hfinite : ∀ a ∈ row, IsFinite a) (hvalues : ∀ a ∈ zs, IsFinite a) :
    ∃ s t : K, dot (Mask.select m row) (Mask.select m zs) = finite s ∧
      dot (Mask.select (Mask.others m) row) (Mask.select (Mask.others m) zs) = finite t ∧
      dot row zs = finite (s + t) := by
  obtain ⟨row, rfl⟩ := exists_map_finite hfinite
  obtain ⟨zs, rfl⟩ := exists_map_finite hvalues
  rw [List.length_map] at hrow hzs
  refine ⟨inner (Mask.select m row) (Mask.select m zs),
    inner (Mask.select (Mask.others m) row) (Mask.select (Mask.others m) zs), ?_, ?_, ?_⟩
  · rw [Mask.select_map, Mask.select_map, dot_map_finite]
  · rw [Mask.select_map, Mask.select_map, dot_map_finite]
  · have hothers : (Mask.others m).length = zs.length := (Mask.length_others m).trans hzs
    rw [dot_map_finite, ← inner_merge hrow (Mask.length_select hzs) (Mask.length_select hothers),
      Mask.merge_select hzs]

omit [LinearOrder K] [FloorRing K] in
theorem inner_affine {row f y s : List K} {n : Nat} (hrow : row.length = n) (hf : f.length = n)
    (hy : y.length = n) (hs : s.length = n) :
    inner row (List.zipWith (· + ·) (List.zipWith (· * ·) f y) s)
      = inner (List.zipWith (· * ·) row f) y + inner row s := by
  induction n generalizing row f y s with
  | zero => simp_all [inner]
  | succ n ih =>
    obtain ⟨a, row, rfl⟩ := List.exists_cons_of_length_eq_add_one hrow
    obtain ⟨b, f, rfl⟩ := List.exists_cons_of_length_eq_add_one hf
    obtain ⟨c, y, rfl⟩ := List.exists_cons_of_length_eq_add_one hy
    obtain ⟨d, s, rfl⟩ := List.exists_cons_of_length_eq_add_one hs
    have ih := ih (by simpa using hrow) (by simpa using hf) (by simpa using hy) (by simpa using hs)
    simp only [inner, List.zipWith_cons_cons, List.sum_cons] at ih ⊢
    rw [ih]
    ring

/-! ## Maxima and minima -/

theorem meet_finite (x y : K) : meet (finite x) (finite y) = (finite (min x y) : Extended K) := by
  unfold meet
  by_cases h : x ≤ y
  · simp [h]
  · simp [h, (not_le.1 h).le]

theorem join_finite (x y : K) : join (finite x) (finite y) = (finite (max x y) : Extended K) := by
  unfold join
  by_cases h : x ≤ y
  · simp [h]
  · simp [h, (not_le.1 h).le]

/-- The least entry of a vector of numbers is a number and at most each of them. -/
theorem exists_foldl_meet (xs : List K) (x : K) :
    ∃ m : K, (xs.map finite).foldl meet (finite x) = finite m ∧ m ≤ x ∧ ∀ a ∈ xs, m ≤ a := by
  induction xs generalizing x with
  | nil => exact ⟨x, rfl, le_rfl, by simp⟩
  | cons y xs ih =>
    obtain ⟨m, hm, hmin, hle⟩ := ih (min x y)
    refine ⟨m, ?_, hmin.trans (min_le_left x y), ?_⟩
    · rw [List.map_cons, List.foldl_cons, meet_finite, hm]
    · intro a ha
      rcases List.mem_cons.1 ha with rfl | ha
      · exact hmin.trans (min_le_right x a)
      · exact hle a ha

/-- The greatest entry of a vector of numbers is a number and at least each of them. -/
theorem exists_foldl_join (xs : List K) (x : K) :
    ∃ m : K, (xs.map finite).foldl join (finite x) = finite m ∧ x ≤ m ∧ ∀ a ∈ xs, a ≤ m := by
  induction xs generalizing x with
  | nil => exact ⟨x, rfl, le_rfl, by simp⟩
  | cons y xs ih =>
    obtain ⟨m, hm, hmax, hle⟩ := ih (max x y)
    refine ⟨m, ?_, (le_max_left x y).trans hmax, ?_⟩
    · rw [List.map_cons, List.foldl_cons, join_finite, hm]
    · intro a ha
      rcases List.mem_cons.1 ha with rfl | ha
      · exact (le_max_right x a).trans hmax
      · exact hle a ha

/-- Is it a positive number? -/
def IsPositive (x : Extended K) : Prop := ∃ a : K, 0 < a ∧ x = finite a

omit [FloorRing K] in
theorem IsPositive.isFinite {x : Extended K} (h : IsPositive x) : IsFinite x :=
  h.imp fun _ ha => ha.2

/-- Numbers none of which is less than the least one that is allowed are positive. -/
theorem isPositive_of_minimum [IsStrictOrderedRing K] {xs : List (Extended K)}
    (hfinite : ∀ x ∈ xs, IsFinite x)
    (hleast : ∀ least, minimum? xs = some least → ¬least < epsilon) : ∀ x ∈ xs, IsPositive x := by
  obtain ⟨ys, rfl⟩ := exists_map_finite hfinite
  cases ys with
  | nil => simp
  | cons y ys =>
    obtain ⟨m, hm, hmy, hle⟩ := exists_foldl_meet ys y
    -- the least factor is not below the least one allowed, and no other is below it
    have htiny : tiny ≤ m := by
      have h := hleast (finite m) (by rw [List.map_cons, minimum?, hm])
      rwa [epsilon_eq, finite_lt, not_lt] at h
    have hpos : 0 < m := lt_of_lt_of_le tiny_pos htiny
    intro x hx
    obtain ⟨a, ha, rfl⟩ := List.mem_map.1 hx
    rcases List.mem_cons.1 ha with rfl | ha
    · exact ⟨a, lt_of_lt_of_le hpos hmy, rfl⟩
    · exact ⟨a, lt_of_lt_of_le hpos (hle a ha), rfl⟩

end Extended
end Presolve
