import Presolve.Proofs.Constraint.Admitted
import Presolve.Proofs.Number.Ordered

/-!
# Degenerate rows

Rows that every point satisfies and rows that no point satisfies, over exact numbers. A row with a
coefficient other than zero takes every value, so it is degenerate only if its right-hand side is infinite;
a row without one takes the value zero alone. This is what the flags of a checked system say about its
rows: `isTrivial_iff` and `isInfeasible_iff`.
-/

namespace Presolve

open Scalar Extended

variable {K : Type} [Field K] [LinearOrder K] [FloorRing K]

/-- Every point of numbers satisfies the row. -/
def SystemName.AlwaysHolds (name : SystemName) (row : List (Extended K)) (b : Extended K) : Prop :=
  ∀ x : List K, x.length = row.length → name.Relates (dot row (x.map finite)) b

/-- No point of numbers satisfies the row. -/
def SystemName.NeverHolds (name : SystemName) (row : List (Extended K)) (b : Extended K) : Prop :=
  ∀ x : List K, x.length = row.length → ¬name.Relates (dot row (x.map finite)) b

/-- Every coefficient of the row is zero. -/
def IsZeroRow (row : List (Extended K)) : Prop := ∀ a ∈ row, a = finite 0

namespace Extended

/-! ## Values of a row -/

omit [LinearOrder K] [FloorRing K] in
theorem inner_replicate_zero (row : List K) (n : Nat) : inner row (List.replicate n 0) = 0 := by
  apply List.sum_eq_zero
  intro a ha
  obtain ⟨b, -, c, hc, rfl⟩ := exists_of_mem_zipWith ha
  rw [List.eq_of_mem_replicate hc, mul_zero]

omit [LinearOrder K] [FloorRing K] in
theorem inner_eq_zero {row : List K} (h : ∀ a ∈ row, a = 0) (x : List K) : inner row x = 0 := by
  apply List.sum_eq_zero
  intro a ha
  obtain ⟨b, hb, c, -, rfl⟩ := exists_of_mem_zipWith ha
  rw [h b hb, zero_mul]

omit [LinearOrder K] [FloorRing K] in
/-- A row with a coefficient other than zero takes every value. -/
theorem exists_inner_eq {row : List K} (h : ∃ a ∈ row, a ≠ 0) (c : K) :
    ∃ x : List K, x.length = row.length ∧ inner row x = c := by
  induction row with
  | nil => simp at h
  | cons a row ih =>
    by_cases ha : a = 0
    · -- the value is left to the other coefficients
      have hrest : ∃ a ∈ row, a ≠ 0 := by
        obtain ⟨b, hb, hb0⟩ := h
        rcases List.mem_cons.1 hb with rfl | hb
        · exact absurd ha hb0
        · exact ⟨b, hb, hb0⟩
      obtain ⟨x, hlen, hx⟩ := ih hrest
      refine ⟨0 :: x, by rw [List.length_cons, List.length_cons, hlen], ?_⟩
      rw [inner, List.zipWith_cons_cons, List.sum_cons, mul_zero, zero_add]
      exact hx
    · refine ⟨c / a :: List.replicate row.length 0, by simp, ?_⟩
      have hzero : (List.zipWith (· * ·) row (List.replicate row.length 0)).sum = 0 :=
        inner_replicate_zero row row.length
      rw [inner, List.zipWith_cons_cons, List.sum_cons, hzero, add_zero, mul_div_cancel₀ _ ha]

section

variable {row : List K}

omit [LinearOrder K] [FloorRing K] in
theorem isZeroRow_map_finite : IsZeroRow (row.map finite) ↔ ∀ a ∈ row, a = 0 := by
  simp [IsZeroRow]

omit [LinearOrder K] [FloorRing K] in
theorem not_isZeroRow_map_finite : ¬IsZeroRow (row.map finite) ↔ ∃ a ∈ row, a ≠ 0 := by
  simp [IsZeroRow]

/-- What holds of every value of a row with a coefficient other than zero holds of every number. -/
theorem forall_dot_iff {P : Extended K → Prop} (h : ¬IsZeroRow (row.map finite)) :
    (∀ x : List K, x.length = (row.map finite).length → P (dot (row.map finite) (x.map finite))) ↔
      ∀ c : K, P (finite c) := by
  constructor
  · intro hall c
    obtain ⟨x, hlen, rfl⟩ := exists_inner_eq (not_isZeroRow_map_finite.1 h) c
    have hx := hall x (by rw [hlen, List.length_map])
    rwa [dot_map_finite] at hx
  · intro hall x _
    rw [dot_map_finite]
    exact hall (inner row x)

/-- Zero is the only value of a row without a coefficient other than zero. -/
theorem forall_dot_iff_of_isZeroRow {P : Extended K → Prop} (h : IsZeroRow (row.map finite)) :
    (∀ x : List K, x.length = (row.map finite).length → P (dot (row.map finite) (x.map finite))) ↔
      P (finite 0) := by
  have hinner : ∀ x : List K, inner row x = 0 := inner_eq_zero (isZeroRow_map_finite.1 h)
  constructor
  · intro hall
    have hzero := hall (List.replicate row.length 0) (by simp)
    rwa [dot_map_finite, hinner] at hzero
  · intro hzero x _
    rwa [dot_map_finite, hinner]

/-! ## The flags of a row -/

variable [IsStrictOrderedRing K] {name : SystemName} {b : Extended K}

/-- The size of a row is a number that no coefficient exceeds. -/
theorem exists_rowSize (row : List K) :
    ∃ r : K, rowSize (row.map finite) = finite r ∧ 0 ≤ r ∧ ∀ a ∈ row, |a| ≤ r := by
  cases row with
  | nil => exact ⟨0, by simp [rowSize, maximum?, zero_eq], le_rfl, by simp⟩
  | cons a row =>
    obtain ⟨r, hr, hle, hall⟩ := exists_foldl_join (row.map fun a => |a|) |a|
    refine ⟨r, ?_, (abs_nonneg a).trans hle, ?_⟩
    · simp only [rowSize, List.map_cons, maximum?, abs_finite, Option.getD_some, List.map_map,
        Function.comp_def]
      rw [← hr, List.map_map]
      rfl
    · intro b hb
      rcases List.mem_cons.1 hb with rfl | hb
      · exact hle
      · exact hall _ (List.mem_map_of_mem hb)

/-- A right-hand side is measured by a positive number, whatever its row is. -/
theorem exists_relativeRhs (row : List K) :
    ∃ d : K, 0 < d ∧ ∀ b : Extended K, relativeRhs (row.map finite) b = b / finite d := by
  obtain ⟨r, hr, hpos, -⟩ := exists_rowSize row
  have hsame : same (finite r) (0 : Extended K) = true ↔ r = 0 := by
    rw [zero_eq, same_iff_eq ((finite_le _ _).2 le_rfl), finite.injEq]
  by_cases hr0 : r = 0
  · refine ⟨1, one_pos, ?_⟩
    intro b
    simp only [relativeRhs, hr, if_pos (hsame.2 hr0), one_eq]
  · refine ⟨r, lt_of_le_of_ne hpos (Ne.symm hr0), ?_⟩
    intro b
    simp only [relativeRhs, hr, if_neg (hsame.not.2 hr0)]

omit [IsStrictOrderedRing K] in
theorem rowSize_of_isZeroRow {row : List (Extended K)} (h : IsZeroRow row) :
    rowSize row = finite 0 := by
  have habs : row.map Scalar.abs = List.replicate row.length (finite 0) := by
    rw [List.eq_replicate_iff]
    refine ⟨List.length_map _, ?_⟩
    intro b hb
    obtain ⟨a, ha, rfl⟩ := List.mem_map.1 hb
    rw [h a ha]
    simp [Scalar.abs]
  have hfold : ∀ n, (List.replicate n (finite 0 : Extended K)).foldl join (finite 0) = finite 0 := by
    intro n
    induction n with
    | zero => rfl
    | succ n ih => rw [List.replicate_succ, List.foldl_cons, join_finite, max_self, ih]
  rw [rowSize, habs]
  cases row with
  | nil => exact zero_eq
  | cons a row => exact hfold row.length

/-- A row is of size zero exactly if every coefficient is zero. -/
theorem same_rowSize_iff : same (rowSize (row.map finite)) (finite 0 : Extended K) = true ↔
    IsZeroRow (row.map finite) := by
  rw [same_iff_eq ((finite_le _ _).2 le_rfl)]
  constructor
  · intro hsize
    obtain ⟨r, hr, -, hle⟩ := exists_rowSize row
    obtain rfl : r = 0 := by simpa [hsize, eq_comm] using hr
    rw [isZeroRow_map_finite]
    intro a ha
    exact abs_nonpos_iff.1 (hle a ha)
  · exact rowSize_of_isZeroRow

/-- Which rows are flagged as trivial. -/
theorem isTrivial_eq_true : name.isTrivial (row.map finite) b = true ↔
    match name with
    | .inequalities => b = top ∨ IsZeroRow (row.map finite) ∧ finite 0 ≤ b
    | .equalities => IsZeroRow (row.map finite) ∧ b = finite 0 := by
  obtain ⟨d, hd, hrhs⟩ := exists_relativeRhs row
  cases name with
  | inequalities =>
    have htop : same (b / finite d) infinity = true ↔ b = top := by
      rw [← (div_eq_infinite_iff hd).1]
      exact same_iff_eq top_le_top
    simp only [SystemName.isTrivial, Bool.or_eq_true, Bool.and_eq_true, zero_eq, same_rowSize_iff, hrhs,
      decide_eq_true_eq]
    exact or_congr_left htop
  | equalities =>
    simp only [SystemName.isTrivial, Bool.and_eq_true, zero_eq, same_rowSize_iff]
    rw [same_iff_eq ((finite_le _ _).2 le_rfl)]

/-- Which rows are flagged as infeasible. -/
theorem isInfeasible_eq_true : name.isInfeasible (row.map finite) b = true ↔
    match name with
    | .inequalities => b = bottom ∨ IsZeroRow (row.map finite) ∧ b < finite 0
    | .equalities => (b = top ∨ b = bottom) ∨ IsZeroRow (row.map finite) ∧ b ≠ finite 0 := by
  obtain ⟨d, hd, hrhs⟩ := exists_relativeRhs row
  cases name with
  | inequalities =>
    have hbottom : same (b / finite d) (-infinity) = true ↔ b = bottom := by
      rw [← (div_eq_infinite_iff hd).2]
      exact same_iff_eq bottom_le_bottom
    simp only [SystemName.isInfeasible, Bool.or_eq_true, Bool.and_eq_true, zero_eq, same_rowSize_iff,
      hrhs, decide_eq_true_eq]
    exact or_congr_left hbottom
  | equalities =>
    have hinfinite : same (Scalar.abs (b / finite d)) infinity = true ↔ b = top ∨ b = bottom := by
      rw [← (div_eq_infinite_iff hd).1, ← (div_eq_infinite_iff hd).2, ← abs_eq_top]
      exact same_iff_eq top_le_top
    have hzero : (!same b (finite 0)) = true ↔ b ≠ finite 0 := by
      rw [Bool.not_eq_true', ← Bool.not_eq_true, same_iff_eq ((finite_le _ _).2 le_rfl)]
    simp only [SystemName.isInfeasible, Bool.or_eq_true, Bool.and_eq_true, zero_eq, same_rowSize_iff,
      hrhs]
    exact or_congr hinfinite (and_congr_right fun _ => hzero)

/-! ## What the flags mean -/

omit [IsStrictOrderedRing K] in
theorem relates_equalities {a : K} : SystemName.equalities.Relates (finite a) b ↔ b = finite a := by
  cases b <;> simp [SystemName.Relates, le_antisymm_iff, and_comm]

/-- Every number is related to a right-hand side only where that is no limit. -/
theorem forall_relates_iff :
    (∀ c : K, name.Relates (finite c) b) ↔ name = .inequalities ∧ b = top := by
  constructor
  · intro h
    cases b with
    | finite b =>
      -- a number beyond the limit is not related to it
      have hbeyond : ¬name.Relates (finite (b + 1)) (finite b) := by
        cases name <;> simp [SystemName.Relates, not_le]
      exact absurd (h (b + 1)) hbeyond
    | top => cases name <;> simp_all [SystemName.Relates]
    | bottom => cases name <;> simp_all [SystemName.Relates]
    | undefined => cases name <;> simp_all [SystemName.Relates]
  · rintro ⟨rfl, rfl⟩ c
    exact finite_le_top c

omit [IsStrictOrderedRing K] in
/-- No number is related to a right-hand side only where that is infinite or has no value. -/
theorem forall_not_relates_iff (hb : b ≠ undefined) : (∀ c : K, ¬name.Relates (finite c) b) ↔
    b = bottom ∨ name = .equalities ∧ b = top := by
  constructor
  · intro h
    cases b with
    | finite b =>
      -- the limit itself is related to it
      have hlimit : name.Relates (finite b) (finite b) := by
        cases name <;> simp [SystemName.Relates]
      exact absurd hlimit (h b)
    | top => cases name <;> simp_all [SystemName.Relates]
    | bottom => exact .inl rfl
    | undefined => exact absurd rfl hb
  · rintro (rfl | ⟨rfl, rfl⟩) c
    · cases name <;> simp [SystemName.Relates]
    · simp [SystemName.Relates]

omit [IsStrictOrderedRing K] in
theorem alwaysHolds_of_isZeroRow (h : IsZeroRow (row.map finite)) :
    name.AlwaysHolds (row.map finite) b ↔ name.Relates (finite 0) b :=
  forall_dot_iff_of_isZeroRow (P := fun a => name.Relates a b) h

omit [IsStrictOrderedRing K] in
theorem neverHolds_of_isZeroRow (h : IsZeroRow (row.map finite)) :
    name.NeverHolds (row.map finite) b ↔ ¬name.Relates (finite 0) b :=
  forall_dot_iff_of_isZeroRow (P := fun a => ¬name.Relates a b) h

theorem alwaysHolds_of_not_isZeroRow (h : ¬IsZeroRow (row.map finite)) :
    name.AlwaysHolds (row.map finite) b ↔ name = .inequalities ∧ b = top :=
  (forall_dot_iff (P := fun a => name.Relates a b) h).trans forall_relates_iff

omit [IsStrictOrderedRing K] in
theorem neverHolds_of_not_isZeroRow (h : ¬IsZeroRow (row.map finite)) (hb : b ≠ undefined) :
    name.NeverHolds (row.map finite) b ↔ b = bottom ∨ name = .equalities ∧ b = top :=
  (forall_dot_iff (P := fun a => ¬name.Relates a b) h).trans (forall_not_relates_iff hb)

/-- A row is flagged as trivial exactly if every point satisfies it. -/
theorem isTrivial_iff :
    name.isTrivial (row.map finite) b = true ↔ name.AlwaysHolds (row.map finite) b := by
  rw [isTrivial_eq_true]
  by_cases hzero : IsZeroRow (row.map finite)
  · rw [alwaysHolds_of_isZeroRow hzero]
    cases name with
    | inequalities => cases b <;> simp [SystemName.Relates, hzero]
    | equalities => exact (and_iff_right hzero).trans relates_equalities.symm
  · rw [alwaysHolds_of_not_isZeroRow hzero]
    cases name <;> simp [hzero]

/-- A row with a right-hand side that has a value is flagged as infeasible exactly if no point satisfies
it. -/
theorem isInfeasible_iff (hb : b ≠ undefined) :
    name.isInfeasible (row.map finite) b = true ↔ name.NeverHolds (row.map finite) b := by
  rw [isInfeasible_eq_true]
  by_cases hzero : IsZeroRow (row.map finite)
  · rw [neverHolds_of_isZeroRow hzero]
    cases name with
    | inequalities =>
      have hdefined : b ≤ b := by cases b <;> simp_all
      have hlimit : b = bottom ∨ b < finite 0 ↔ b < finite 0 :=
        or_iff_right_of_imp fun h => by rw [h]; rfl
      rw [and_iff_right hzero, hlimit]
      exact (Extended.not_le ((finite_le _ _).2 le_rfl) hdefined).symm
    | equalities =>
      rw [relates_equalities]
      cases b <;> simp [hzero]
  · rw [neverHolds_of_not_isZeroRow hzero hb]
    cases name <;> simp [hzero, or_comm]

/-! ## Rows with finite right-hand sides -/

/-- A row that is not degenerate has a coefficient other than zero and a finite right-hand side. -/
theorem regular_of_not_holds (hb : b ≠ undefined) (halways : ¬name.AlwaysHolds (row.map finite) b)
    (hnever : ¬name.NeverHolds (row.map finite) b) : ¬IsZeroRow (row.map finite) ∧ IsFinite b := by
  have hzero : ¬IsZeroRow (row.map finite) := by
    intro h
    rw [alwaysHolds_of_isZeroRow h] at halways
    rw [neverHolds_of_isZeroRow h] at hnever
    exact hnever halways
  refine ⟨hzero, ?_⟩
  rw [alwaysHolds_of_not_isZeroRow hzero] at halways
  rw [neverHolds_of_not_isZeroRow hzero hb] at hnever
  cases b with
  | finite b => exact isFinite_finite b
  | top => cases name <;> simp at halways hnever
  | bottom => simp at hnever
  | undefined => exact absurd rfl hb

/-- A row with a finite right-hand side is degenerate exactly if every coefficient is zero. -/
theorem holds_iff_isZeroRow (hb : IsFinite b) :
    (name.AlwaysHolds (row.map finite) b ∨ name.NeverHolds (row.map finite) b) ↔
      IsZeroRow (row.map finite) := by
  obtain ⟨b, rfl⟩ := hb
  by_cases hzero : IsZeroRow (row.map finite)
  · rw [alwaysHolds_of_isZeroRow hzero, neverHolds_of_isZeroRow hzero]
    exact iff_of_true (Classical.em _) hzero
  · rw [alwaysHolds_of_not_isZeroRow hzero, neverHolds_of_not_isZeroRow hzero (by simp)]
    simp [hzero]

end

/-! ## Systems without their trivial rows -/

/-- Leaving out the trivial rows does not change which points satisfy a system. -/
theorem holds_ofSystem [IsStrictOrderedRing K] {name : SystemName} {s : LinearSystem (Extended K)}
    {x : List (Extended K)} (hlen : s.rhs.length = s.rows.length)
    (hrow : ∀ row ∈ s.rows, x.length = row.length) (hrows : ∀ row ∈ s.rows, ∀ a ∈ row, IsFinite a)
    (hx : ∀ a ∈ x, IsFinite a) :
    (CheckedSystem.ofSystem name s).system.Holds name x ↔ s.Holds name x := by
  apply Mask.forall₂_select_others_zipWith hlen.symm
  -- the rows that are left out hold in any case
  intro row hmem b htrivial
  have hlength : x.length = row.length := hrow row hmem
  obtain ⟨row, rfl⟩ := exists_map_finite (hrows row hmem)
  obtain ⟨x, rfl⟩ := exists_map_finite hx
  exact isTrivial_iff.1 htrivial x (by rwa [List.length_map] at hlength)

end Extended
end Presolve
