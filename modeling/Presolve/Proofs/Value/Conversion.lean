import Presolve.Proofs.Value.Data
import Presolve.Proofs.Value.Sound
import Presolve.Value.Conversion

/-!
# Arrays that are made are sound

What is said about a caller's values takes them to be sound: the entries of an array are of its type. An
array that was made from a value is sound whatever the value was (`arrayOf_isSound`), unless it keeps the
value's own parts; its entries went through `converted`, which ends in the type that was asked for. Its
shape is the one that the value has in nested lists, and another shape for the same entries changes nothing
else.
-/

namespace Presolve

variable {α : Type}

/-! ## Parts that are kept -/

/-- Every result is that of an entry. -/
theorem exists_of_mem_of_mapM_some {β γ : Type} {f : β → Option γ} {xs : List β} {ys : List γ}
    (h : xs.mapM f = some ys) {y : γ} (hy : y ∈ ys) : ∃ x ∈ xs, f x = some y := by
  induction xs generalizing ys with
  | nil =>
    cases h
    cases hy
  | cons x xs ih =>
    simp only [List.mapM_cons, Option.bind_eq_bind, Option.bind_eq_some_iff, Option.pure_def,
      Option.some.injEq] at h
    obtain ⟨first, hfirst, rest, hrest, rfl⟩ := h
    rcases List.mem_cons.1 hy with rfl | hy
    · exact ⟨x, List.mem_cons_self, hfirst⟩
    · obtain ⟨w, hw, hwy⟩ := ih hrest hy
      exact ⟨w, List.mem_cons_of_mem x hw, hwy⟩

namespace Value

/-- The rows of an array of a type hold entries of the type. -/
theorem isSound_row {grid : Grid α} (h : (array grid).isSound = true) {row : Tensor (Cell α)}
    (hrow : row ∈ grid.cells.rows) : (array ⟨grid.type, row⟩ : Value α).isSound = true := by
  rw [isSound, List.all_eq_true] at h ⊢
  unfold Tensor.rows at hrow
  split at hrow
  · cases hrow
  · obtain ⟨piece, hpiece, hreshape⟩ := List.mem_filterMap.1 hrow
    unfold Tensor.reshape? at hreshape
    split at hreshape <;> cases hreshape
    exact fun cell hcell => h cell (Tensor.mem_of_mem_split hpiece hcell)

theorem isSound_bare {v : Value α} (hv : v.isSound = true) : v.bare.isSound = true := by
  cases v with
  | entry type cell => cases cell <;> rfl
  | _ => exact hv

/-- The items of a sound array are sound. -/
theorem isSound_of_mem_items? {v : Value α} (hv : v.isSound = true)
    (harray : (∃ grid, v = .array grid) ∨ ∃ shape items, v = .objects shape items)
    {items : List (Value α)} (h : v.items? = some items) {item : Value α} (hitem : item ∈ items) :
    item.isSound = true := by
  rcases harray with ⟨grid, rfl⟩ | ⟨shape, all, rfl⟩
  · rcases hshape : grid.cells.shape with _ | ⟨extent, _ | ⟨next, shape⟩⟩ <;>
      simp only [items?, hshape, reduceCtorEq, Option.some.injEq] at h <;> subst h
    · obtain ⟨cell, hcell, rfl⟩ := List.mem_map.1 hitem
      rw [isSound, List.all_eq_true] at hv
      exact hv cell hcell
    · obtain ⟨row, hrow, rfl⟩ := List.mem_map.1 hitem
      exact isSound_row hv hrow
  · have hall : ∀ item ∈ all, item.isSound = true := areSound_iff.1 hv
    rcases shape with _ | ⟨extent, _ | ⟨next, shape⟩⟩ <;>
      simp only [items?, reduceCtorEq, Option.some.injEq] at h <;> subst h
    · exact hall item hitem
    · obtain ⟨piece, hpiece, rfl⟩ := List.mem_map.1 hitem
      exact areSound_iff.2 fun item hitem => hall item (Tensor.mem_of_mem_split hpiece hitem)

/-- The rows of a sound value are sound. -/
theorem isSound_of_mem_rows? {v : Value α} (hv : v.isSound = true) {rows : List (Value α)}
    (h : v.rows? = some rows) {row : Value α} (hrow : row ∈ rows) : row.isSound = true := by
  have harray (harray : (∃ grid, v = .array grid) ∨ ∃ shape items, v = .objects shape items)
      (h : v.items?.map (·.map bare) = some rows) : row.isSound = true := by
    obtain ⟨items, hitems, rfl⟩ := Option.map_eq_some_iff.1 h
    obtain ⟨item, hitem, rfl⟩ := List.mem_map.1 hrow
    exact isSound_bare (isSound_of_mem_items? hv harray hitems hitem)
  unfold rows? at h
  split at h
  · cases h
    exact areSound_iff.1 hv row hrow
  · cases h
    exact areSound_iff.1 hv row hrow
  · exact harray (.inl ⟨_, rfl⟩) h
  · exact harray (.inr ⟨_, _, rfl⟩) h
  · cases h

/-- What lies below the dimensions that the shapes of sound values agree on is sound. -/
theorem isSound_of_mem_commonNesting {fuel : Nat} {vs : List (Value α)}
    (hvs : ∀ v ∈ vs, v.isSound = true) : ∀ leaf ∈ (commonNesting fuel vs).2, leaf.isSound = true := by
  induction fuel generalizing vs with
  | zero => exact hvs
  | succ fuel ih =>
    unfold commonNesting
    split
    · next first rest hrows =>
      split
      · refine ih fun v hv => ?_
        obtain ⟨row, hrow, hv⟩ := List.mem_flatten.1 hv
        obtain ⟨whole, hwhole, hwholerow⟩ := exists_of_mem_of_mapM_some hrows hrow
        exact isSound_of_mem_rows? (hvs whole hwhole) hwholerow hv
      · exact hvs
    · exact hvs

/-- Entries in another shape are as sound as before. -/
theorem reshaped_isSound {shape : List Nat} {v a : Value α} (hv : v.isSound = true)
    (h : v.reshaped shape = .ok a) : a.isSound = true := by
  unfold reshaped at h
  split at h
  · split at h
    · next hreshape =>
      unfold Tensor.reshape? at hreshape
      split at hreshape <;> cases hreshape
      cases h
      exact hv
    · cases h
  · split at h <;> cases h
    exact hv
  · cases h

/-- The only item of an array is as sound as the array. -/
theorem only_isSound {v : Value α} (hv : v.isSound = true) : v.only.isSound = true := by
  unfold only
  split
  · next grid =>
    cases hentries : grid.cells.entries with
    | nil => rfl
    | cons cell rest =>
      rw [isSound, hentries, List.all_cons, Bool.and_eq_true] at hv
      exact hv.1
  · next item _ => exact areSound_iff.1 hv item List.mem_cons_self
  · exact hv

end Value

/-! ## Integers -/

/-- The types of integers. -/
def CellType.integers : List CellType := [.byte, .int, .nat]

/-- An integer that goes round at the ends of a type is one of the type. -/
theorem Cell.isOf_wrapped {type : CellType} (h : type ∈ CellType.integers) (i : Int) :
    (Cell.int (type.wrapped i) : Cell α).isOf type = true := by
  simp only [CellType.integers, List.mem_cons, List.not_mem_nil, or_false] at h
  rcases h with rfl | rfl | rfl
  · exact decide_eq_true (by simp only [CellType.wrapped]; omega)
  · exact decide_eq_true (if_pos (by simp only [CellType.wrapped]; omega))
  · exact decide_eq_true (by simp only [CellType.wrapped]; omega)

variable [Interchange α]

namespace Value

/-- Whatever an integer is made from, it is one of the type. -/
theorem exists_eq_wrapped {type : CellType} {leaf : Value α} {i : Int}
    (h : leaf.toIntegerOf type = .ok i) : ∃ k, i = type.wrapped k := by
  have htext (s : Text) (h : toIntegerOf.ofText type s = .ok i) : ∃ k, i = type.wrapped k := by
    unfold toIntegerOf.ofText at h
    split at h
    · obtain ⟨k, -, h⟩ := bind_eq_ok.1 h
      cases h
      exact ⟨k, rfl⟩
    · cases h
  unfold toIntegerOf at h
  split at h
  · cases h
    exact ⟨_, rfl⟩
  · split at h <;> cases h <;> exact ⟨_, rfl⟩
  · split at h <;> cases h <;> exact ⟨_, rfl⟩
  · cases h
    exact ⟨_, rfl⟩
  · split at h
    · next hwrapped =>
      cases h
      exact ⟨_, hwrapped.symm⟩
    · cases h
  · obtain ⟨k, -, h⟩ := bind_eq_ok.1 h
    cases h
    exact ⟨k, rfl⟩
  · exact htext _ h
  · exact htext _ h
  · cases h

/-! ## Entries -/

variable [Scalar α]

/-- A leaf is converted to an entry of the type that is asked for. -/
theorem isOf_converted {type : CellType} {leaf : Value α} {cell : Cell α}
    (h : leaf.converted type = .ok cell) : cell.isOf type = true := by
  have hinteger (htype : type ∈ CellType.integers) (h : (leaf.toIntegerOf type).map .int = .ok cell) :
      cell.isOf type = true := by
    obtain ⟨i, hi, rfl⟩ := map_eq_ok.1 h
    obtain ⟨k, rfl⟩ := exists_eq_wrapped hi
    exact Cell.isOf_wrapped htype k
  cases type with
  | bool =>
    cases h
    rfl
  | byte => exact hinteger (by decide) h
  | int => exact hinteger (by decide) h
  | nat => exact hinteger (by decide) h
  | single =>
    obtain ⟨x, -, rfl⟩ := map_eq_ok.1 h
    rfl
  | real =>
    obtain ⟨x, -, rfl⟩ := map_eq_ok.1 h
    rfl
  | complex =>
    simp only [converted] at h
    split at h
    · cases h
      rfl
    · cases h
      rfl
    · obtain ⟨x, -, rfl⟩ := map_eq_ok.1 h
      rfl
  | bytes =>
    simp only [converted, cellOf] at h
    split at h
    · cases h
      rfl
    · obtain ⟨t, -, h⟩ := bind_eq_ok.1 h
      split at h <;> cases h
      rfl
  | text =>
    simp only [converted, cellOf] at h
    split at h
    · split at h <;> cases h
      rfl
    · obtain ⟨t, -, rfl⟩ := map_eq_ok.1 h
      rfl
  | object => rfl

end Value

/-- A function that may fail is applied to every entry of an array, which keeps its shape. -/
theorem Tensor.mapExcept_eq_ok {ε β : Type} {f : ε → Except Fault β} {t : Tensor ε} {u : Tensor β}
    (h : t.mapExcept f = .ok u) : u.shape = t.shape ∧ t.entries.mapM f = .ok u.entries := by
  obtain ⟨ys, hys, h⟩ := bind_eq_ok.1 h
  unfold reshape? at h
  split at h
  · next hreshape =>
    split at hreshape <;> cases hreshape
    cases h
    exact ⟨rfl, hys⟩
  · cases h

namespace Value

/-! ## Arrays -/

variable [Scalar α]

/-- An array that is made from a value is sound if it keeps nothing of the value, or if the value is
sound itself. -/
theorem arrayOf_isSound {type : CellType} {v a : Value α}
    (hv : type = .object → v.isSound = true) (h : v.arrayOf type = .ok a) : a.isSound = true := by
  unfold arrayOf at h
  split at h
  · next htype =>
    have hkept := @isSound_of_mem_commonNesting _ Nest.maxRank [.list [v]]
      (by simpa [isSound, areSound] using hv htype)
    rcases hnesting : commonNesting Nest.maxRank [.list [v]] with ⟨shape, leaves⟩
    rw [hnesting] at h hkept
    cases h
    exact areSound_iff.2 hkept
  · split at h
    · obtain ⟨cells, hcells, h⟩ := bind_eq_ok.1 h
      cases h
      obtain ⟨-, hentries⟩ := Tensor.mapExcept_eq_ok hcells
      rw [isSound, List.all_eq_true]
      intro cell hcell
      obtain ⟨leaf, -, hleaf⟩ := exists_of_mem_of_mapM hentries hcell
      exact isOf_converted hleaf
    · cases h

/-- An array of numbers or texts has the shape of the value in nested lists. -/
theorem arrayOf_shape {type : CellType} (htype : type ≠ .object) {v a : Value α}
    (h : v.arrayOf type = .ok a) : ∃ nest cells, v.nest? = some nest ∧ a = .array ⟨type, cells⟩ ∧
      cells.shape = nest.shape ∧
      nest.leaves.entries.mapM (Value.converted type) = .ok cells.entries := by
  unfold arrayOf at h
  rw [if_neg htype] at h
  split at h
  · next nest hnest =>
    obtain ⟨cells, hcells, h⟩ := bind_eq_ok.1 h
    cases h
    obtain ⟨hshape, hentries⟩ := Tensor.mapExcept_eq_ok hcells
    exact ⟨nest, cells, hnest, rfl, hshape, hentries⟩
  · cases h

end Value
end Presolve
