import Presolve.Proofs.Value.Length

/-!
# Sound values

The entries of an array are of its type. `Value.isSound` says so of every array in a value and of every
single entry, which is what the values of a caller have in common. A sound value that is judged to be a
vector or a matrix of real numbers can be read as one: the types of its leaves are at most as wide as that
of the whole, so each of them is a flag or a number that fits into a double (`Value.toReals_of_isSound`).
A single number is the only one that may be too large, and only as an integer by itself
(`Value.realScalar?_of_isSound`).
-/

namespace Presolve

variable {α : Type}

/-! ## Entries of a type -/

/-- Is it an entry of an array of the type? -/
def Cell.isOf (type : CellType) (cell : Cell α) : Bool :=
  match type, cell with
  | .bool, .bool _ => true
  | .byte, .int i => decide (0 ≤ i ∧ i < 256)
  | .int, .int i => decide (CellType.ofInt i = .int)
  | .nat, .int i => decide (0 ≤ i ∧ i < 0x10000000000000000)
  | .single, .real _ => true
  | .real, .real _ => true
  | .complex, .complex _ _ => true
  | .bytes, .bytes _ => true
  | .text, .text _ => true
  | .object, _ => true
  | _, _ => false

theorem CellType.width_le_of_isReal {type : CellType} (h : type.isReal = true) : type.width ≤ 3 := by
  cases type with
  | bool | complex | bytes | text | object => cases h
  | byte | int | nat | single | real => decide

/-- The type of several values is at least as wide as each of their types. -/
theorem CellType.width_le_join (a b : CellType) :
    a.width ≤ (join a b).width ∧ b.width ≤ (join a b).width := by
  cases a <;> cases b <;> decide

/-- Nothing is wider than the type of arbitrary values. -/
theorem CellType.width_le_object (type : CellType) : type.width ≤ object.width := by
  cases type <;> decide

/-- The integers of the types of entries are within the range of doubles. -/
theorem Scalar.fits_of_natAbs_le {i : Int} (h : i.natAbs ≤ 0x10000000000000000) : fits i = true := by
  have hrange : 0x10000000000000000 < Nat.pow 2 1024 - Nat.pow 2 970 := by decide +kernel
  exact decide_eq_true (Nat.lt_of_le_of_lt h hrange)

theorem CellType.natAbs_le_of_ofInt {i : Int} (h : (ofInt i).width ≤ 3) :
    i.natAbs ≤ 0x10000000000000000 := by
  unfold ofInt at h
  split at h
  · omega
  · split at h
    · omega
    · exact absurd h (by decide)

/-- The integers in arrays of numbers are in the range of doubles. -/
theorem Cell.fits_of_isOf {type : CellType} {i : Int} (h : (Cell.int i : Cell α).isOf type = true)
    (hwidth : type.width ≤ 4) : Scalar.fits i = true := by
  apply Scalar.fits_of_natAbs_le
  cases type with
  | byte | nat =>
    have hrange := of_decide_eq_true h
    omega
  | int =>
    have htype : CellType.ofInt i = .int := of_decide_eq_true h
    exact CellType.natAbs_le_of_ofInt (by rw [htype]; decide)
  | object => exact absurd hwidth (by decide)
  | bool | single | real | complex | bytes | text => cases h

namespace Value

/-! ## Soundness -/

mutual

/-- Is every entry, also inside sequences, dictionaries and options, of the type that it is given for? -/
def isSound : Value α → Bool
  | entry type cell => cell.isOf type
  | array grid => grid.cells.entries.all (Cell.isOf grid.type)
  | list items => areSound items
  | tuple items => areSound items
  | objects _ items => areSound items
  | mapping entries => areSoundEntries entries
  | options fields => OptionName.all.all fun name => (fields name).isSound
  | _ => true

def areSound : List (Value α) → Bool
  | [] => true
  | item :: rest => item.isSound && areSound rest

def areSoundEntries : List (Value α × Value α) → Bool
  | [] => true
  | (key, value) :: rest => key.isSound && value.isSound && areSoundEntries rest

end

theorem areSound_iff {items : List (Value α)} :
    areSound items = true ↔ ∀ v ∈ items, v.isSound = true := by
  induction items with
  | nil => simp [areSound]
  | cons item rest ih => simp [areSound, ih]

theorem areSoundEntries_iff {entries : List (Value α × Value α)} :
    areSoundEntries entries = true ↔
      ∀ entry ∈ entries, entry.1.isSound = true ∧ entry.2.isSound = true := by
  induction entries with
  | nil => simp [areSoundEntries]
  | cons entry rest ih => simp [areSoundEntries, ih]

/-! ## Leaves -/

/-- The type that a leaf of an array is taken for by itself. -/
def leafType : Value α → CellType
  | bool _ => .bool
  | int i => .ofInt i
  | real _ => .real
  | complex _ _ => .complex
  | text _ => .text
  | bytes _ => .bytes
  | entry type _ => type
  | _ => .object

end Value

/-- The leaves are sound, and the type of the whole is wide enough for each. -/
def Nest.Holds (n : Nest α) : Prop :=
  ∀ leaf ∈ n.leaves.entries, leaf.isSound = true ∧ leaf.leafType.width ≤ n.type.width

namespace Nest

theorem single_holds {v : Value α} (hv : v.isSound = true) : (single v.leafType v).Holds := by
  intro leaf hleaf
  obtain rfl := List.mem_singleton.1 hleaf
  exact ⟨hv, Nat.le_refl _⟩

/-- The type of stacked rows is wide enough for each of them. -/
theorem width_le_foldl_join (rows : List (Nest α)) (type : CellType) :
    type.width ≤ (rows.foldl (fun type r => type.join r.type) type).width ∧
      ∀ row ∈ rows, row.type.width ≤ (rows.foldl (fun type r => type.join r.type) type).width := by
  induction rows generalizing type with
  | nil => simp
  | cons row rows ih =>
    obtain ⟨hfirst, hrest⟩ := ih (type.join row.type)
    obtain ⟨hleft, hright⟩ := CellType.width_le_join type row.type
    refine ⟨Nat.le_trans hleft hfirst, ?_⟩
    intro r hr
    rcases List.mem_cons.1 hr with rfl | hr
    · exact Nat.le_trans hright hfirst
    · exact hrest r hr

theorem stack?_holds {rows : List (Nest α)} {nest : Nest α} (hrows : ∀ row ∈ rows, row.Holds)
    (h : stack? rows = some nest) : nest.Holds := by
  rw [stack?, Option.map_eq_some_iff] at h
  obtain ⟨leaves, hleaves, rfl⟩ := h
  have hstack := (Option.filter_eq_some_iff.1 hleaves).1
  cases rows with
  | nil =>
    cases hstack
    intro leaf hleaf
    cases hleaf
  | cons row rest =>
    obtain ⟨hfirst, hrest⟩ := width_le_foldl_join rest row.type
    -- every leaf is one of a row
    have hmem : ∀ leaf ∈ leaves.entries, ∃ r ∈ row :: rest, leaf ∈ r.leaves.entries := by
      intro leaf hleaf
      rw [List.map_cons, Tensor.stack?] at hstack
      split at hstack
      · cases hstack
        obtain ⟨t, ht, hleaf⟩ := List.mem_flatMap.1 hleaf
        rw [← List.map_cons] at ht
        obtain ⟨r, hr, rfl⟩ := List.mem_map.1 ht
        exact ⟨r, hr, hleaf⟩
      · cases hstack
    intro leaf hleaf
    obtain ⟨r, hr, hleaf⟩ := hmem leaf hleaf
    obtain ⟨hsound, hwidth⟩ := hrows r hr leaf hleaf
    refine ⟨hsound, Nat.le_trans hwidth ?_⟩
    rcases List.mem_cons.1 hr with rfl | hr
    · exact hfirst
    · exact hrest r hr

end Nest

namespace Value

mutual

/-- The leaves of a sound value are sound, and no wider than the whole. -/
theorem nest?_holds {v : Value α} {nest : Nest α} (hv : v.isSound = true) (h : v.nest? = some nest) :
    nest.Holds := by
  match v with
  | list items =>
    rw [isSound] at hv
    rw [nest?] at h
    obtain ⟨rows, hrows, h⟩ := Option.bind_eq_some_iff.1 h
    exact Nest.stack?_holds (nests?_hold hv hrows) h
  | tuple items =>
    rw [isSound] at hv
    rw [nest?] at h
    obtain ⟨rows, hrows, h⟩ := Option.bind_eq_some_iff.1 h
    exact Nest.stack?_holds (nests?_hold hv hrows) h
  | array grid =>
    rw [nest?] at h
    cases h
    intro leaf hleaf
    obtain ⟨cell, hcell, rfl⟩ := List.mem_map.1 hleaf
    rw [isSound, List.all_eq_true] at hv
    exact ⟨hv cell hcell, Nat.le_refl _⟩
  | objects shape items =>
    rw [isSound, areSound_iff] at hv
    rw [nest?] at h
    obtain ⟨leaves, hleaves, rfl⟩ := Option.map_eq_some_iff.1 h
    intro leaf hleaf
    unfold Tensor.reshape? at hleaves
    split at hleaves
    · cases hleaves
      exact ⟨hv leaf hleaf, leaf.leafType.width_le_object⟩
    · cases hleaves
  | absent | bool _ | int _ | real _ | complex _ _ | text _ | bytes _ | entry _ _ | mapping _ | kind _
    | solver _ | invoker _ | options _ | function _ _ _ =>
    simp only [nest?, Option.some.injEq] at h
    subst h
    exact Nest.single_holds hv

theorem nests?_hold {items : List (Value α)} {nests : List (Nest α)} (hitems : areSound items = true)
    (h : nests? items = some nests) : ∀ nest ∈ nests, nest.Holds := by
  match items with
  | [] =>
    cases h
    simp
  | item :: rest =>
    rw [areSound, Bool.and_eq_true] at hitems
    rw [nests?] at h
    split at h
    · next first others hfirst hothers =>
      cases h
      intro nest hnest
      rcases List.mem_cons.1 hnest with rfl | hnest
      · exact nest?_holds hitems.1 hfirst
      · exact nests?_hold hitems.2 hothers nest hnest
    · cases h

end

end Value

/-! ## Conversion -/

variable [Scalar α] [Interchange α]

section

omit [Interchange α]

theorem realOfInt_of_fits {i : Int} (h : Scalar.fits i = true) :
    realOfInt i = .ok (Scalar.ofFraction i 1 : α) := by
  have hsome : Scalar.ofInt? i = some (Scalar.ofFraction i 1 : α) := by
    unfold Scalar.ofInt?
    exact if_pos h
  unfold realOfInt
  rw [hsome]

theorem realOfInt_of_not_fits {i : Int} (h : Scalar.fits i = false) :
    (realOfInt i : Except Fault α) = .error .overflow := by
  have hnone : (Scalar.ofInt? i : Option α) = none := by
    unfold Scalar.ofInt?
    exact if_neg (by simp [h])
  unfold realOfInt
  rw [hnone]

end

/-- An entry of a type that is no wider than reals is a number. -/
theorem Cell.exists_toReal {cell : Cell α} {type : CellType} (h : cell.isOf type = true)
    (hwidth : type.width ≤ 3) : ∃ x, cell.toReal = .ok x := by
  cases cell with
  | bool _ | real _ => exact ⟨_, rfl⟩
  | int i =>
    rw [toReal, realOfInt_of_fits (fits_of_isOf h (Nat.le_trans hwidth (by decide)))]
    exact ⟨_, rfl⟩
  | complex | text | bytes | absent | opaqueItem =>
    -- no type that is no wider than reals has such entries
    cases type with
    | complex | bytes | text | object => exact absurd hwidth (by decide)
    | _ => cases h

namespace Value

/-- A sound leaf of a type that is no wider than reals is a number. -/
theorem exists_toReal {leaf : Value α} (h : leaf.isSound = true) (hwidth : leaf.leafType.width ≤ 3) :
    ∃ x, leaf.toReal = .ok x := by
  cases leaf with
  | bool b => exact ⟨_, rfl⟩
  | real x => exact ⟨_, rfl⟩
  | int i =>
    have hi : Scalar.fits i = true :=
      Scalar.fits_of_natAbs_le (CellType.natAbs_le_of_ofInt hwidth)
    exact ⟨_, (show (int i : Value α).toReal = realOfInt i from rfl).trans (realOfInt_of_fits hi)⟩
  | entry type cell =>
    rw [isSound] at h
    exact Cell.exists_toReal h hwidth
  | _ => simp [leafType, CellType.width] at hwidth

/-- A sound value that is an array of real numbers can be read as one. -/
theorem exists_toReals {v : Value α} {nest : Nest α} (hv : v.isSound = true)
    (h : v.realNest? = some nest) : ∃ xs, v.toReals = .ok (nest.shape, xs) := by
  obtain ⟨hnest, htype⟩ := Option.filter_eq_some_iff.1 h
  have hholds := nest?_holds hv hnest
  have hleaves : ∀ leaf ∈ nest.leaves.entries, ∃ x, leaf.toReal = .ok x := by
    intro leaf hleaf
    obtain ⟨hsound, hwidth⟩ := hholds leaf hleaf
    exact exists_toReal hsound (Nat.le_trans hwidth (CellType.width_le_of_isReal htype))
  obtain ⟨xs, hxs⟩ := exists_mapM_iff.2 hleaves
  refine ⟨xs, ?_⟩
  rw [toReals, hnest]
  simp only [hxs, Except.map]

/-- A sound value that is nothing or an array of real numbers can be read as a vector. -/
theorem exists_toVector {v : Value α} (hv : v.isSound = true)
    (h : v.isEmpty = true ∨ ∃ nest, v.realNest? = some nest) : ∃ xs, v.toVector = .ok xs := by
  unfold toVector
  split
  · exact ⟨[], rfl⟩
  · next hempty =>
    obtain ⟨nest, hnest⟩ := h.resolve_left hempty
    obtain ⟨xs, hxs⟩ := exists_toReals hv hnest
    exact ⟨xs, map_eq_ok.2 ⟨_, hxs, rfl⟩⟩

theorem exists_toVector_of_vector {v : Value α} {n : Nat} (hv : v.isSound = true)
    (h : v.vectorLength? = some n) : ∃ xs, v.toVector = .ok xs := by
  refine exists_toVector hv ?_
  unfold vectorLength? at h
  split at h
  · next hempty => exact .inl hempty
  · exact .inr ((Option.bind_eq_some_iff.1 h).imp fun _ h => h.1)

theorem exists_toVector_of_column {v : Value α} {n : Nat} (hv : v.isSound = true)
    (h : v.columnLength? = some n) : ∃ xs, v.toVector = .ok xs := by
  refine exists_toVector hv ?_
  unfold columnLength? at h
  split at h
  · next hempty => exact .inl hempty
  · exact .inr ((Option.bind_eq_some_iff.1 h).imp fun _ h => h.1)

theorem exists_toMatrix {v : Value α} {shape : Nat × Nat} (hv : v.isSound = true)
    (h : v.matrixShape? = some shape) : ∃ rows, v.toMatrix = .ok rows := by
  unfold matrixShape? at h
  unfold toMatrix
  split
  · exact ⟨[], rfl⟩
  · next hempty =>
    rw [if_neg hempty] at h
    obtain ⟨nest, hnest, -⟩ := Option.bind_eq_some_iff.1 h
    obtain ⟨xs, hxs⟩ := exists_toReals hv hnest
    exact ⟨_, map_eq_ok.2 ⟨_, hxs, rfl⟩⟩

/-- A vector of numbers is read as those numbers. -/
theorem flatReals_ofList (xs : List α) : (ofList xs).flatReals = .ok xs := by
  have hentries : ((xs.map Cell.real).map (entry .real)).mapM toReal = .ok xs := by
    rw [List.map_map, mapM_eq_ok, List.forall₂_map_left_iff, List.forall₂_same]
    exact fun _ _ => rfl
  exact map_eq_ok.2 ⟨([xs.length], xs), map_eq_ok.2 ⟨xs, hentries, rfl⟩, rfl⟩

/-! ## Scalars -/

/-- An integer by itself that is too large for a double. -/
def IsHuge (v : Value α) : Prop := ∃ i, v = int i ∧ Scalar.fits i = false

theorem realScalar?_int (i : Int) : (int i : Value α).realScalar? = (realOfInt i).map some := rfl

theorem realScalar?_of_isHuge {v : Value α} (h : v.IsHuge) : v.realScalar? = .error .overflow := by
  obtain ⟨i, rfl, hi⟩ := h
  rw [realScalar?_int, realOfInt_of_not_fits hi]
  rfl

/-- A sound value is a real number or none, unless it is an integer that is too large. -/
theorem exists_realScalar? {v : Value α} (hv : v.isSound = true) (hhuge : ¬v.IsHuge) :
    ∃ x?, v.realScalar? = .ok x? := by
  have hcell {cell : Cell α} {type : CellType} (hof : cell.isOf type = true)
      (htype : type.isReal = true) (hscalar : v.scalarCell? = some cell) :
      ∃ x?, v.realScalar? = .ok x? := by
    obtain ⟨x, hx⟩ := Cell.exists_toReal hof (CellType.width_le_of_isReal htype)
    refine ⟨some x, ?_⟩
    rw [realScalar?, hscalar]
    exact map_eq_ok.2 ⟨x, hx, rfl⟩
  -- by the values that are taken for numbers; any other is none
  cases v with
  | int i =>
    have hi : Scalar.fits i = true := by
      by_contra h
      exact hhuge ⟨i, rfl, eq_false_of_ne_true h⟩
    rw [realScalar?_int, realOfInt_of_fits hi]
    exact ⟨_, rfl⟩
  | real x => exact ⟨_, map_eq_ok.2 ⟨x, rfl, rfl⟩⟩
  | entry type cell =>
    by_cases htype : type.isReal = true
    · rw [isSound] at hv
      exact hcell hv htype (if_pos htype)
    · refine ⟨none, ?_⟩
      rw [realScalar?, scalarCell?, if_neg htype]
  | array grid =>
    by_cases htype : grid.type.isReal = true
    · rw [isSound, List.all_eq_true] at hv
      cases honly : onlyCell? grid with
      | none =>
        refine ⟨none, ?_⟩
        rw [realScalar?, scalarCell?, if_pos htype, honly]
      | some cell =>
        refine hcell (hv cell ?_) htype ((if_pos htype).trans honly)
        unfold onlyCell? at honly
        split at honly
        · next only hentries =>
          split at honly
          · rw [hentries, Option.some.inj honly]
            exact List.mem_singleton.2 rfl
          · cases honly
        · cases honly
    · refine ⟨none, ?_⟩
      rw [realScalar?, scalarCell?, if_neg htype]
  | _ => exact ⟨none, rfl⟩

theorem exists_integerScalar? {v : Value α} {x? : Option α} (h : v.realScalar? = .ok x?) :
    ∃ i?, v.integerScalar? = .ok i? := ⟨_, map_eq_ok.2 ⟨x?, h, rfl⟩⟩

theorem exists_flag? {v : Value α} {x? : Option α} (h : v.realScalar? = .ok x?) :
    ∃ b?, v.flag? = .ok b? := by
  unfold flag?
  split
  · exact ⟨_, rfl⟩
  · exact ⟨_, rfl⟩
  · split
    · exact ⟨_, rfl⟩
    · exact ⟨_, map_eq_ok.2 ⟨x?, h, rfl⟩⟩
  · exact ⟨_, map_eq_ok.2 ⟨x?, h, rfl⟩⟩

end Value
end Presolve
