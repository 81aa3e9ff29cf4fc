import Presolve.Constraint.Bounds
import Presolve.Constraint.Linear
import Presolve.Proofs.Linear.Vector

/-!
# The lengths of what is read

A value that is judged to be a vector of some length is read as that many numbers, and one that is
judged to be a matrix of some shape as rows and columns of that shape. So a problem that was read
fits together: every row and both bounds have an entry for each variable.
-/

namespace Presolve

variable {α : Type}

namespace Tensor

/-- Every piece is as long as it should be if there are enough entries. -/
theorem length_of_mem_split {ε : Type} {cols rows : Nat} {xs row : List ε}
    (h : rows * cols ≤ xs.length) (hrow : row ∈ split cols rows xs) : row.length = cols := by
  -- each piece leaves enough entries for the others
  induction rows generalizing xs with
  | zero => simp [split] at hrow
  | succ n ih =>
    have hmul : (n + 1) * cols = n * cols + cols := Nat.succ_mul n cols
    rcases List.mem_cons.1 hrow with rfl | hrow
    · rw [List.length_take]
      omega
    · refine ih ?_ hrow
      rw [List.length_drop]
      omega

/-- Every entry of a piece is one of the whole. -/
theorem mem_of_mem_split {ε : Type} {cols rows : Nat} {xs piece : List ε} {x : ε}
    (hpiece : piece ∈ Tensor.split cols rows xs) (hx : x ∈ piece) : x ∈ xs := by
  induction rows generalizing xs with
  | zero => exact nomatch hpiece
  | succ rows ih =>
    rcases List.mem_cons.1 hpiece with rfl | hpiece
    · exact List.mem_of_mem_take hx
    · exact List.mem_of_mem_drop (ih hpiece)

end Tensor

namespace Nest

theorem size_eq_volume (n : Nest α) : n.size = volume n.shape := n.leaves.length_entries

end Nest

namespace Value

/-- An array of numbers without entries is empty. -/
theorem size_pos_of_realNest {v : Value α} {nest : Nest α} (hv : v.isEmpty = false)
    (h : v.realNest? = some nest) : 0 < nest.size := by
  rw [realNest?, Option.filter_eq_some_iff] at h
  obtain ⟨hnest, htype⟩ := h
  have hobject : nest.type ≠ .object := by
    intro hobject
    rw [hobject] at htype
    cases htype
  by_contra hsize
  have hsize : nest.size = 0 := by omega
  -- Only sequences can be without entries; anything else is a single leaf.
  cases v with
  | list _ | tuple _ | array _ | objects _ _ =>
    simp [isEmpty, text?, bytes?, hnest, hobject, hsize] at hv
  | _ =>
    simp only [nest?, Option.some.injEq] at hnest
    subst hnest
    simp [Nest.single, Nest.size, Tensor.size, Tensor.scalar] at hsize

variable [Scalar α] [Interchange α]

/-- The numbers of an array are as many as its shape says. -/
theorem toReals_eq_ok {v : Value α} {shape : List Nat} {xs : List α}
    (h : v.toReals = .ok (shape, xs)) :
    ∃ nest, v.nest? = some nest ∧ shape = nest.shape ∧ xs.length = nest.size := by
  unfold toReals at h
  cases hnest : v.nest? with
  | none => simp [hnest] at h
  | some nest =>
    simp only [hnest, map_eq_ok, Prod.mk.injEq] at h
    obtain ⟨ys, hys, rfl, rfl⟩ := h
    exact ⟨nest, rfl, rfl, length_of_mapM hys⟩

omit [Scalar α] [Interchange α] in
theorem realNest?_eq {v : Value α} {nest nest' : Nest α} (h : v.nest? = some nest)
    (h' : v.realNest? = some nest') : nest' = nest := by
  rw [realNest?, h] at h'
  simp only [Option.filter_some] at h'
  split at h'
  · exact (Option.some.inj h').symm
  · cases h'

/-- What `flatReals` gives for a value that is an array of numbers. -/
theorem length_flatReals {v : Value α} {nest : Nest α} {xs : List α} (h : v.realNest? = some nest)
    (hx : v.flatReals = .ok xs) : xs.length = nest.size := by
  rw [flatReals, map_eq_ok] at hx
  obtain ⟨⟨shape, ys⟩, hys, rfl⟩ := hx
  obtain ⟨nest', hnest, -, hlen⟩ := toReals_eq_ok hys
  rw [realNest?_eq hnest h]
  exact hlen

/-- A vector is read as many numbers as it is long. -/
theorem length_toVector {v : Value α} {n : Nat} {xs : List α} (hn : v.vectorLength? = some n)
    (hx : v.toVector = .ok xs) : xs.length = n := by
  unfold vectorLength? at hn
  unfold toVector at hx
  by_cases hv : v.isEmpty
  · simp only [hv, if_true, Option.some.injEq, Except.ok.injEq] at hn hx
    rw [← hn, ← hx, List.length_nil]
  · simp only [hv] at hn hx
    obtain ⟨nest, hnest, hn⟩ := Option.bind_eq_some_iff.1 hn
    have hlen := length_flatReals hnest hx
    -- by shape: a single number, a vector, a row or a column, and anything else
    split at hn
    · exact hlen.trans (Option.some.inj hn)
    · exact hlen.trans (Option.some.inj hn)
    · split at hn
      · exact hlen.trans (Option.some.inj hn)
      · cases hn
    · cases hn

/-- A column is read as many numbers as it is long. -/
theorem length_toVector_of_column {v : Value α} {n : Nat} {xs : List α}
    (hn : v.columnLength? = some n) (hx : v.toVector = .ok xs) : xs.length = n := by
  unfold columnLength? at hn
  unfold toVector at hx
  by_cases hv : v.isEmpty
  · simp only [hv, if_true, Option.some.injEq, Except.ok.injEq] at hn hx
    rw [← hn, ← hx, List.length_nil]
  · simp only [hv] at hn hx
    obtain ⟨nest, hnest, hn⟩ := Option.bind_eq_some_iff.1 hn
    have hlen := length_flatReals hnest hx
    split at hn
    · exact hlen.trans (Option.some.inj hn)
    · exact hlen.trans (Option.some.inj hn)
    · next rows cols hshape =>
      -- a matrix is a column only if it has one
      split at hn
      · next hcols =>
        rw [hlen, Nest.size_eq_volume, hshape, hcols, ← Option.some.inj hn]
        simp [volume]
      · cases hn
    · cases hn

/-- A matrix is read as rows and columns of its shape. Only an empty one has no columns. -/
theorem shape_toMatrix {v : Value α} {r c : Nat} {rows : List (List α)}
    (hs : v.matrixShape? = some (r, c)) (hx : v.toMatrix = .ok rows) :
    rows.length = r ∧ (∀ row ∈ rows, row.length = c) ∧ (c = 0 → rows = []) := by
  unfold matrixShape? at hs
  unfold toMatrix at hx
  by_cases hv : v.isEmpty
  · simp only [hv, if_true, Option.some.injEq, Prod.mk.injEq, Except.ok.injEq] at hs hx
    obtain ⟨rfl, rfl⟩ := hs
    simp [← hx]
  · simp only [hv] at hs hx
    obtain ⟨nest, hnest, hs⟩ := Option.bind_eq_some_iff.1 hs
    have hpos := size_pos_of_realNest (by simpa using hv) hnest
    obtain ⟨⟨shape, xs⟩, hxs, rfl⟩ := map_eq_ok.1 hx
    obtain ⟨nest', hnest', rfl, hlen⟩ := toReals_eq_ok hxs
    obtain rfl := realNest?_eq hnest' hnest
    rw [Nest.size_eq_volume] at hpos hlen
    -- a single number is a matrix of one entry and a vector one of a single row
    split at hs
    · next hshape =>
      cases hs
      simp_all [volume]
    · next cols hshape =>
      cases hs
      simp_all [volume]
      omega
    · next rows cols hshape =>
      cases hs
      simp only [hshape, volume, Nat.mul_one] at hpos hlen ⊢
      refine ⟨Tensor.length_split _ _ _, ?_, ?_⟩
      · intro row hrow
        exact Tensor.length_of_mem_split (Nat.le_of_eq hlen.symm) hrow
      · intro hc
        subst hc
        omega
    · cases hs

end Value
end Presolve
