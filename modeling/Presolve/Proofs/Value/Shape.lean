import Presolve.Proofs.Number.Extended
import Presolve.Proofs.Value.Sound

/-!
# Vectors, columns and matrices

The three judgements on a value read one shape: with at most two dimensions an array is so many rows of so
many entries (`IsMatrixShape`), a vector is a matrix of a single row or a single column, and a column is one
that has a single column or one dimension. Conversion follows the same shape: the entries of the matrix are
those of the vector, row by row (`Value.exists_toMatrix_split`). So whatever a judgement promises the
conversion keeps, and no judgement contradicts another (`Value.judgements_agree`).
-/

namespace Presolve

variable {α : Type}

/-! ## Rows of a flat list -/

namespace Tensor

/-- The pieces put end to end are the entries. -/
theorem flatten_split {ε : Type} {cols rows : Nat} {xs : List ε} (h : xs.length = rows * cols) :
    (split cols rows xs).flatten = xs := by
  induction rows generalizing xs with
  | zero =>
    rw [Nat.zero_mul] at h
    rw [List.length_eq_zero_iff.1 h]
    rfl
  | succ n ih =>
    have hdrop : (xs.drop cols).length = n * cols := by
      rw [List.length_drop, h, Nat.succ_mul, Nat.add_sub_cancel]
    rw [split, List.flatten_cons, ih hdrop, List.take_append_drop]

/-- A single piece is all there is. -/
theorem split_one {ε : Type} {cols : Nat} {xs : List ε} (h : xs.length = cols) :
    split cols 1 xs = [xs] := by
  rw [split, List.take_of_length_le (Nat.le_of_eq h)]
  rfl

end Tensor

/-! ## Shapes -/

/-- An array with these extents is a matrix of so many rows and columns: a number is one entry, a vector is
one row. -/
inductive IsMatrixShape : List Nat → Nat → Nat → Prop where
  | number : IsMatrixShape [] 1 1
  | vector (cols : Nat) : IsMatrixShape [cols] 1 cols
  | matrix (rows cols : Nat) : IsMatrixShape [rows, cols] rows cols

namespace IsMatrixShape

theorem volume_eq {shape : List Nat} {rows cols : Nat} (h : IsMatrixShape shape rows cols) :
    volume shape = rows * cols := by
  cases h <;> simp [volume]

/-- The rows of an array of this shape. -/
theorem toRows_eq {t : Tensor α} {rows cols : Nat} (h : IsMatrixShape t.shape rows cols) :
    t.toRows = Tensor.split cols rows t.entries := by
  obtain ⟨shape, xs, hlen⟩ := t
  cases h with
  | number | vector => exact (Tensor.split_one (hlen.trans (by simp [volume]))).symm
  | matrix => rfl

end IsMatrixShape

namespace Value

/-! ## What each judgement accepts -/

section

variable {v : Value α} {nest : Nest α} {r c k : Nat}

theorem matrixShape?_of_shape (hempty : v.isEmpty = false) (hnest : v.realNest? = some nest)
    (hshape : IsMatrixShape nest.shape r c) : v.matrixShape? = some (r, c) := by
  rw [matrixShape?, if_neg (ne_true_of_eq_false hempty), hnest, Option.bind_some]
  generalize nest.shape = shape at hshape
  cases hshape <;> rfl

/-- A matrix that is not empty is an array of real numbers. -/
theorem exists_shape_of_matrixShape? (hempty : v.isEmpty = false) (h : v.matrixShape? = some (r, c)) :
    ∃ nest, v.realNest? = some nest ∧ IsMatrixShape nest.shape r c := by
  rw [matrixShape?, if_neg (ne_true_of_eq_false hempty)] at h
  obtain ⟨nest, hnest, h⟩ := Option.bind_eq_some_iff.1 h
  refine ⟨nest, hnest, ?_⟩
  split at h
  · next hshape => cases h; rw [hshape]; exact .number
  · next hshape => cases h; rw [hshape]; exact .vector _
  · next hshape => cases h; rw [hshape]; exact .matrix _ _
  · cases h

/-- An array with entries has rows, and its rows have entries. -/
theorem pos_of_shape (hempty : v.isEmpty = false) (hnest : v.realNest? = some nest)
    (hshape : IsMatrixShape nest.shape r c) : 0 < r ∧ 0 < c := by
  have hpos := size_pos_of_realNest hempty hnest
  rw [Nest.size_eq_volume, hshape.volume_eq] at hpos
  exact ⟨Nat.pos_of_mul_pos_right hpos, Nat.pos_of_mul_pos_left hpos⟩

theorem vectorLength?_of_shape (hempty : v.isEmpty = false) (hnest : v.realNest? = some nest)
    (hshape : IsMatrixShape nest.shape r c) (hline : r = 1 ∨ c = 1) :
    v.vectorLength? = some (r * c) := by
  obtain ⟨hr, hc⟩ := pos_of_shape hempty hnest hshape
  have hmin : min r c = 1 := by omega
  rw [vectorLength?, if_neg (ne_true_of_eq_false hempty), hnest, Option.bind_some,
    Nest.size_eq_volume, hshape.volume_eq]
  generalize nest.shape = shape at hshape
  cases hshape with
  | number | vector => rfl
  | matrix => exact if_pos hmin

/-- A vector that is not empty is an array of real numbers in a single row or a single column. -/
theorem exists_shape_of_vectorLength? (hempty : v.isEmpty = false) (h : v.vectorLength? = some k) :
    ∃ nest r c, v.realNest? = some nest ∧ IsMatrixShape nest.shape r c ∧ r * c = k := by
  rw [vectorLength?, if_neg (ne_true_of_eq_false hempty)] at h
  obtain ⟨nest, hnest, h⟩ := Option.bind_eq_some_iff.1 h
  have hk {r c : Nat} (hshape : IsMatrixShape nest.shape r c) (hsize : nest.size = k) :
      ∃ nest r c, v.realNest? = some nest ∧ IsMatrixShape nest.shape r c ∧ r * c = k :=
    ⟨nest, r, c, hnest, hshape, by rw [← hsize, Nest.size_eq_volume, hshape.volume_eq]⟩
  split at h
  · next hshape => exact hk (by rw [hshape]; exact .number) (Option.some.inj h)
  · next hshape => exact hk (by rw [hshape]; exact .vector _) (Option.some.inj h)
  · next hshape =>
    split at h
    · exact hk (by rw [hshape]; exact .matrix _ _) (Option.some.inj h)
    · cases h
  · cases h

/-! ## Between the judgements -/

/-- Only what is empty has no rows, and then it has no columns. -/
theorem cols_eq_zero (h : v.matrixShape? = some (r, c)) (hr : r = 0) : c = 0 := by
  cases hempty : v.isEmpty with
  | true =>
    rw [matrixShape?, if_pos hempty] at h
    cases h
    rfl
  | false =>
    obtain ⟨nest, hnest, hshape⟩ := exists_shape_of_matrixShape? hempty h
    have hpos := (pos_of_shape hempty hnest hshape).1
    omega

theorem matrixShape?_of_vectorLength? (h : v.vectorLength? = some k) :
    ∃ r c, v.matrixShape? = some (r, c) ∧ r * c = k := by
  cases hempty : v.isEmpty with
  | true =>
    rw [vectorLength?, if_pos hempty] at h
    exact ⟨0, 0, by rw [matrixShape?, if_pos hempty], Option.some.inj h⟩
  | false =>
    obtain ⟨nest, r, c, hnest, hshape, hk⟩ := exists_shape_of_vectorLength? hempty h
    exact ⟨r, c, matrixShape?_of_shape hempty hnest hshape, hk⟩

theorem vectorLength?_of_matrixShape? (h : v.matrixShape? = some (r, c)) (hline : r = 1 ∨ c = 1) :
    v.vectorLength? = some (r * c) := by
  cases hempty : v.isEmpty with
  | true =>
    -- nothing at all has neither a row nor a column
    rw [matrixShape?, if_pos hempty] at h
    cases h
    omega
  | false =>
    obtain ⟨nest, hnest, hshape⟩ := exists_shape_of_matrixShape? hempty h
    exact vectorLength?_of_shape hempty hnest hshape hline

/-- A column is a vector: one dimension is a single row, any other column has a single column. -/
theorem vectorLength?_of_columnLength? (h : v.columnLength? = some k) : v.vectorLength? = some k := by
  cases hempty : v.isEmpty with
  | true =>
    rw [columnLength?, if_pos hempty] at h
    rw [vectorLength?, if_pos hempty, h]
  | false =>
    rw [columnLength?, if_neg (ne_true_of_eq_false hempty)] at h
    obtain ⟨nest, hnest, h⟩ := Option.bind_eq_some_iff.1 h
    rw [Nest.size_eq_volume] at h
    have hline {r c : Nat} (hshape : IsMatrixShape nest.shape r c) (hline : r = 1 ∨ c = 1)
        (hk : r * c = k) : v.vectorLength? = some k :=
      hk ▸ vectorLength?_of_shape hempty hnest hshape hline
    split at h
    · next hshape =>
      rw [hshape] at h
      exact hline (by rw [hshape]; exact .number) (.inl rfl) (Option.some.inj h)
    · next n hshape =>
      rw [hshape] at h
      have hk : n * 1 = k := Option.some.inj h
      exact hline (by rw [hshape]; exact .vector n) (.inl rfl) (by omega)
    · next rows cols hshape =>
      split at h
      · next hcols =>
        have hk : rows = k := Option.some.inj h
        exact hline (by rw [hshape]; exact .matrix rows cols) (.inr hcols) (by rw [hcols, hk, Nat.mul_one])
      · cases h
    · cases h

end

/-! ## Conversion follows the judgements -/

section

variable [Scalar α] [Interchange α] {v : Value α} {r c : Nat}

/-- A sound value that is judged to be a matrix can be read as one, and its rows put end to end are what it
is read as a vector. -/
theorem exists_toMatrix_split (hv : v.isSound = true) (h : v.matrixShape? = some (r, c)) :
    ∃ xs, v.toVector = .ok xs ∧ xs.length = r * c ∧ v.toMatrix = .ok (Tensor.split c r xs) := by
  unfold toVector toMatrix
  cases hempty : v.isEmpty with
  | true =>
    rw [matrixShape?, if_pos hempty] at h
    cases h
    exact ⟨[], rfl, rfl, rfl⟩
  | false =>
    obtain ⟨nest, hnest, hshape⟩ := exists_shape_of_matrixShape? hempty h
    obtain ⟨xs, hxs⟩ := exists_toReals hv hnest
    have hflat : v.flatReals = .ok xs := map_eq_ok.2 ⟨_, hxs, rfl⟩
    have hlen : xs.length = volume nest.shape := by
      rw [length_flatReals hnest hflat, Nest.size_eq_volume]
    let t : Tensor α := ⟨nest.shape, xs, hlen⟩
    have hrows : t.toRows = Tensor.split c r xs := IsMatrixShape.toRows_eq hshape
    exact ⟨xs, hflat, hlen.trans hshape.volume_eq, map_eq_ok.2 ⟨_, hxs, hrows⟩⟩

/-- The entries of a matrix, in rows of one length. -/
theorem exists_toMatrix_of_matrixShape? (hv : v.isSound = true) (h : v.matrixShape? = some (r, c)) :
    ∃ rows, v.toMatrix = .ok rows ∧ v.toVector = .ok rows.flatten ∧ rows.length = r ∧
      ∀ row ∈ rows, row.length = c := by
  obtain ⟨xs, hvector, hlen, hmatrix⟩ := exists_toMatrix_split hv h
  refine ⟨Tensor.split c r xs, hmatrix, ?_, Tensor.length_split c r xs, ?_⟩
  · rw [Tensor.flatten_split hlen, hvector]
  · intro row hrow
    exact Tensor.length_of_mem_split (Nat.le_of_eq hlen.symm) hrow

end

/-- The judgements and the conversions agree on every sound value. A vector is read as so many numbers and a
matrix as so many rows of so many numbers, and neither has rows without entries; a column is a vector of its
length; a vector is a matrix of as many entries, and read as the rows of that matrix one after the other;
a matrix of a single row or a single column is a vector. -/
theorem judgements_agree [Scalar α] [Interchange α] (v : Value α) (hv : v.isSound = true) :
    (∀ k, v.vectorLength? = some k → ∃ xs, v.toVector = .ok xs ∧ xs.length = k) ∧
    (∀ r c, v.matrixShape? = some (r, c) → ∃ rows, v.toMatrix = .ok rows ∧ rows.length = r ∧
      (∀ row ∈ rows, row.length = c) ∧ (r = 0 → c = 0)) ∧
    (∀ k, v.columnLength? = some k → v.vectorLength? = some k) ∧
    (∀ k, v.vectorLength? = some k → ∃ r c rows, v.matrixShape? = some (r, c) ∧ r * c = k ∧
      v.toMatrix = .ok rows ∧ v.toVector = .ok rows.flatten) ∧
    (∀ r c, v.matrixShape? = some (r, c) → r = 1 ∨ c = 1 → v.vectorLength? = some (r * c)) := by
  refine ⟨?vector, ?matrix, ?column, ?flattened, ?line⟩
  case vector =>
    intro k hk
    obtain ⟨xs, hxs⟩ := exists_toVector_of_vector hv hk
    exact ⟨xs, hxs, length_toVector hk hxs⟩
  case matrix =>
    intro r c h
    obtain ⟨rows, hrows, -, hlen, hcols⟩ := exists_toMatrix_of_matrixShape? hv h
    exact ⟨rows, hrows, hlen, hcols, cols_eq_zero h⟩
  case column => exact fun k => vectorLength?_of_columnLength?
  case flattened =>
    intro k hk
    obtain ⟨r, c, h, hrc⟩ := matrixShape?_of_vectorLength? hk
    obtain ⟨rows, hrows, hvector, -, -⟩ := exists_toMatrix_of_matrixShape? hv h
    exact ⟨r, c, rows, h, hrc, hrows, hvector⟩
  case line => exact fun r c => vectorLength?_of_matrixShape?

/-- A column of three rows: a tuple of an integer, a list of a single-precision number, and an array of a
natural number. -/
def mixedColumn : Value (Extended ℚ) :=
  .list [.tuple [.int (-2)], .list [.entry .single (.real (1 / 2))],
    .array ⟨.nat, .vector [.int 0xffffffffffffffff]⟩]

theorem judgements_agree_mixedColumn :
    mixedColumn.isSound = true ∧ mixedColumn.columnLength? = some 3 ∧
      mixedColumn.vectorLength? = some 3 ∧ mixedColumn.matrixShape? = some (3, 1) ∧
      ∃ rows, mixedColumn.toMatrix = .ok rows ∧ rows.length = 3 ∧ (∀ row ∈ rows, row.length = 1) ∧
        ∃ xs, mixedColumn.toVector = .ok xs ∧ xs.length = 3 := by
  have hsound : mixedColumn.isSound = true := by decide +kernel
  have hcolumn : mixedColumn.columnLength? = some 3 := by decide +kernel
  have hmatrix : mixedColumn.matrixShape? = some (3, 1) := by decide +kernel
  obtain ⟨hread, hrows, hvector, -, -⟩ := judgements_agree mixedColumn hsound
  obtain ⟨rows, htoMatrix, hlen, hcols, -⟩ := hrows 3 1 hmatrix
  have hlength := hvector 3 hcolumn
  exact ⟨hsound, hcolumn, hlength, hmatrix, rows, htoMatrix, hlen, hcols, hread 3 hlength⟩

end Value
end Presolve
