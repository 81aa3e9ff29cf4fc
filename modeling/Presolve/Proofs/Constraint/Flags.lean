import Presolve.Proofs.Constraint.Degenerate
import Presolve.Proofs.Problem.Again

/-!
# The flags of a system

What a check of a system says about its rows, over exact numbers: a flag for every row that all points
satisfy and one for every row that none does, and the other rows as they were. Checking the rows that are
left once more finds nothing new. `CheckedSystem.read_describes` puts this together for systems as a caller
passes them.
-/

namespace Presolve

open Scalar Extended

/-! ## Rows that are kept -/

namespace Mask

variable {α β : Type}

theorem others_zipWith (t : α → β → Bool) (xs : List α) (ys : List β) :
    others (List.zipWith t xs ys) = List.zipWith (fun x y => !t x y) xs ys :=
  List.map_zipWith

/-- The pairs that a test of pairs marks are those that pass it. -/
theorem zip_select_zipWith (t : α → β → Bool) (xs : List α) (ys : List β) :
    List.zip (select (List.zipWith t xs ys) xs) (select (List.zipWith t xs ys) ys)
      = (List.zip xs ys).filter fun p => t p.1 p.2 := by
  induction xs generalizing ys with
  | nil => rfl
  | cons x xs ih =>
    cases ys with
    | nil => rfl
    | cons y ys =>
      rw [List.zipWith_cons_cons, List.zip_cons_cons, List.filter_cons, ← ih ys]
      cases t x y <;> rfl

end Mask

namespace CheckedSystem

section

variable {α : Type} [Scalar α] (name : SystemName) {s : LinearSystem α} {n : Nat}

/-- The rows that are kept are those that are not trivial, with their right-hand sides. -/
theorem zip_ofSystem (s : LinearSystem α) :
    (ofSystem name s).system.rows.zip (ofSystem name s).system.rhs
      = (s.rows.zip s.rhs).filter fun p => !name.isTrivial p.1 p.2 := by
  rw [← Mask.zip_select_zipWith fun row b => !name.isTrivial row b, ← Mask.others_zipWith]
  rfl

/-- The flags of a row. -/
theorem flags_ofSystem {i : Nat} {row : List α} {b : α} (hrow : s.rows[i]? = some row)
    (hb : s.rhs[i]? = some b) :
    (ofSystem name s).trivial[i]? = some (name.isTrivial row b) ∧
      (ofSystem name s).infeasible[i]? = some (name.isInfeasible row b) := by
  simp [ofSystem, List.getElem?_zipWith, hrow, hb]

theorem length_flags (hs : s.Fits n) : (ofSystem name s).trivial.length = s.rows.length ∧
    (ofSystem name s).infeasible.length = s.rows.length := by
  simp [ofSystem, hs.length_rhs]

/-- A check of the rows that were kept keeps them, and finds their flags again. -/
theorem ofSystem_system_eq (hs : s.Fits n) : ofSystem name (ofSystem name s).system =
    ⟨(ofSystem name s).system, Mask.select (Mask.others (ofSystem name s).trivial)
      (ofSystem name s).infeasible, List.replicate (ofSystem name s).system.rows.length false⟩ := by
  have hinfeasible : (ofSystem name (ofSystem name s).system).infeasible
      = Mask.select (Mask.others (ofSystem name s).trivial) (ofSystem name s).infeasible :=
    (Mask.select_zipWith _ _ _ _).symm
  have htrivial : (ofSystem name (ofSystem name s).system).trivial
      = List.replicate (ofSystem name s).system.rows.length false := by
    rw [List.eq_replicate_iff]
    refine ⟨(length_flags name hs.checked).1, ?_⟩
    intro flag hflag
    simpa using List.any_eq_false.1 (trivial_ofSystem_system name s) flag hflag
  rw [← hinfeasible, ← htrivial]
  exact congrArg (fun system => (⟨system, _, _⟩ : CheckedSystem α)) (ofSystem_system name hs)

end

/-! ## What the flags say -/

variable {K : Type} [Field K] [LinearOrder K] [FloorRing K]

open Classical in
/-- A checked system says of every row of a system in `n` variables whether all points satisfy it and
whether none does, and is left with the other rows in their order. It then admits the same points. -/
structure Describes (c : CheckedSystem (Extended K)) (name : SystemName) (n : Nat)
    (s : LinearSystem (Extended K)) : Prop where
  length_trivial : c.trivial.length = s.rows.length
  length_infeasible : c.infeasible.length = s.rows.length
  trivial_iff : ∀ (i : Nat) row b, s.rows[i]? = some row → s.rhs[i]? = some b →
    (c.trivial[i]? = some true ↔ name.AlwaysHolds row b)
  infeasible_iff : ∀ (i : Nat) row b, s.rows[i]? = some row → s.rhs[i]? = some b →
    (c.infeasible[i]? = some true ↔ name.NeverHolds row b)
  disjoint : ∀ i : Nat, ¬(c.trivial[i]? = some true ∧ c.infeasible[i]? = some true)
  fits : c.system.Fits n
  rows : c.system.rows.zip c.system.rhs = (s.rows.zip s.rhs).filter fun p => ¬name.AlwaysHolds p.1 p.2
  shape : c.system.shape = if c.system.rows = [] then (0, 0) else (c.system.rhs.length, n)
  holds_iff : ∀ x : List K, x.length = n →
    (c.system.Holds name (x.map finite) ↔ s.Holds name (x.map finite))

/-- No row is satisfied by all points and by none. -/
theorem not_alwaysHolds_and_neverHolds {name : SystemName} {row : List (Extended K)} {b : Extended K} :
    ¬(name.AlwaysHolds row b ∧ name.NeverHolds row b) := by
  rintro ⟨halways, hnever⟩
  have hlen : (List.replicate row.length (0 : K)).length = row.length := List.length_replicate
  exact hnever _ hlen (halways _ hlen)

variable [IsStrictOrderedRing K] {name : SystemName} {s : LinearSystem (Extended K)} {n : Nat}

theorem describes_ofSystem (hs : s.Fits n) (hrows : ∀ row ∈ s.rows, ∀ a ∈ row, IsFinite a)
    (hrhs : ∀ b ∈ s.rhs, b ≠ Extended.undefined) : (ofSystem name s).Describes name n s := by
  have htrivial {i : Nat} {row : List (Extended K)} {b : Extended K} (hrow : s.rows[i]? = some row)
      (hb : s.rhs[i]? = some b) :
      (ofSystem name s).trivial[i]? = some true ↔ name.AlwaysHolds row b := by
    obtain ⟨row, rfl⟩ := exists_map_finite (hrows row (List.mem_of_getElem? hrow))
    rw [(flags_ofSystem name hrow hb).1, Option.some.injEq]
    exact isTrivial_iff
  have hinfeasible {i : Nat} {row : List (Extended K)} {b : Extended K} (hrow : s.rows[i]? = some row)
      (hb : s.rhs[i]? = some b) :
      (ofSystem name s).infeasible[i]? = some true ↔ name.NeverHolds row b := by
    have hdefined : b ≠ Extended.undefined := hrhs b (List.mem_of_getElem? hb)
    obtain ⟨row, rfl⟩ := exists_map_finite (hrows row (List.mem_of_getElem? hrow))
    rw [(flags_ofSystem name hrow hb).2, Option.some.injEq]
    exact isInfeasible_iff hdefined
  constructor
  case length_trivial => exact (length_flags name hs).1
  case length_infeasible => exact (length_flags name hs).2
  case trivial_iff => exact fun i row b hrow hb => htrivial hrow hb
  case infeasible_iff => exact fun i row b hrow hb => hinfeasible hrow hb
  case disjoint =>
    rintro i ⟨ht, hi⟩
    -- a flag is the flag of some row
    have hlen : i < s.rows.length := by
      rw [← (length_flags name hs).1]
      exact (List.getElem?_eq_some_iff.1 ht).1
    have hrow : s.rows[i]? = some s.rows[i] := List.getElem?_eq_getElem hlen
    obtain ⟨b, hb⟩ : ∃ b, s.rhs[i]? = some b :=
      ⟨_, List.getElem?_eq_getElem (hs.length_rhs ▸ hlen)⟩
    exact not_alwaysHolds_and_neverHolds ⟨(htrivial hrow hb).1 ht, (hinfeasible hrow hb).1 hi⟩
  case fits => exact hs.checked
  case rows =>
    rw [zip_ofSystem]
    apply List.filter_congr
    rintro ⟨row, b⟩ hp
    obtain ⟨row, rfl⟩ := exists_map_finite (hrows row (List.of_mem_zip hp).1)
    by_cases h : name.AlwaysHolds (row.map finite) b
    · simp [isTrivial_iff.2 h, h]
    · simp [Bool.eq_false_iff.2 (isTrivial_iff.not.2 h), h]
  case shape =>
    have hfits : (ofSystem name s).system.Fits n := hs.checked
    rw [hfits.length_rhs, LinearSystem.shape]
    cases hkept : (ofSystem name s).system.rows with
    | nil => rfl
    | cons row rows =>
      have hrow : row.length = n := hfits.length_row row (hkept ▸ List.mem_cons_self)
      rw [if_neg (List.cons_ne_nil row rows), List.headD_cons, hrow]
  case holds_iff =>
    intro x hx
    apply holds_ofSystem hs.length_rhs ?_ hrows (by simp)
    intro row hrow
    rw [List.length_map, hx, hs.length_row row hrow]

/-! ## Systems as they are passed -/

section

variable {α : Type} [Scalar α] [Interchange α] {source : String} {n m : Nat}

/-- A matrix and a vector with an entry for each of its rows are read as they are. -/
theorem read_ofTensor (name : SystemName) {t : Tensor α} {b : List α} (hn : 0 < n)
    (ht : t.shape = [m, n]) (hb : b.length = m) :
    LinearSystem.read name source n (.ofTensor t) (.ofList b) = .ok ⟨t.toRows, b⟩ := by
  have hsize : t.entries.length = m * n := by
    rw [t.length_entries, ht]
    simp [volume]
  have hread : ∃ c, (c = n ∨ c = 0) ∧ (Value.ofTensor t).matrixShape? = some (m, c) ∧
      (Value.ofTensor t).toMatrix = .ok t.toRows := by
    unfold Value.matrixShape? Value.toMatrix
    rw [Value.isEmpty_ofTensor, Value.realNest?_ofTensor, Value.toReals_ofTensor, Tensor.size, hsize, ht,
      Tensor.toRows, ht]
    by_cases hm : m = 0
    · subst hm
      exact ⟨0, .inr rfl, by simp, by simp [Tensor.split]⟩
    · have hpos : 0 < m * n := Nat.mul_pos (Nat.pos_of_ne_zero hm) hn
      rw [beq_eq_false_iff_ne.2 hpos.ne', if_neg Bool.false_ne_true, if_neg Bool.false_ne_true]
      exact ⟨n, .inl rfl, by simp [Nest.shape, Tensor.map, ht], rfl⟩
  obtain ⟨c, hc, hshape, hrows⟩ := hread
  unfold LinearSystem.read
  simp only [hshape, (Value.length_ofList b).2, hrows, Value.toVector_ofList]
  rw [if_pos ⟨hb.symm, hc⟩]
  rfl

end

variable [Interchange (Extended K)]

/-- Checking a system flags exactly the rows that all points satisfy and those that none does, and leaves
out the former. What is left is found as it is when it is checked again. A matrix with `n` columns and a
vector with an entry for each of its rows are such a system. -/
theorem read_describes (name : SystemName) (source : String) (hn : 0 < n) :
    (∀ (m : Nat) (t : Tensor (Extended K)) (b : List (Extended K)), t.shape = [m, n] → b.length = m →
      LinearSystem.read name source n (.ofTensor t) (.ofList b) = .ok ⟨t.toRows, b⟩) ∧
    ∀ (a b : Value (Extended K)) (s : LinearSystem (Extended K)),
      LinearSystem.read name source n a b = .ok s → (∀ row ∈ s.rows, ∀ a ∈ row, IsFinite a) →
      (∀ b ∈ s.rhs, b ≠ Extended.undefined) →
      ∃ c, CheckedSystem.read name source n a b = .ok c ∧ c.Describes name n s ∧
        CheckedSystem.read name source n c.system.matrix (.ofList c.system.rhs) = .ok ⟨c.system,
          Mask.select (Mask.others c.trivial) c.infeasible, List.replicate c.system.rows.length false⟩ := by
  refine ⟨fun m t b ht hb => read_ofTensor name hn ht hb, ?_⟩
  intro a b s hread hrows hrhs
  have hs : s.Fits n := LinearSystem.read_fits hread
  refine ⟨ofSystem name s, ?_, describes_ofSystem hs hrows hrhs, ?_⟩
  · rw [CheckedSystem.read, hread]
    rfl
  · have hagain : LinearSystem.read name source n (ofSystem name s).system.matrix
        (.ofList (ofSystem name s).system.rhs) = .ok (ofSystem name s).system :=
      LinearSystem.read_matrix hs.checked hn
    rw [CheckedSystem.read, hagain]
    exact congrArg Except.ok (ofSystem_system_eq name hs)

/-- Coefficients of two variables: rows of zeros stand before and between others. -/
def mixedRows : Tensor (Extended ℚ) :=
  ⟨[5, 2], [finite 0, finite 0, finite 1, finite 2, finite 0, finite 0, finite 3, finite 0,
    finite 0, finite (-1)], rfl⟩

/-- Right-hand sides of which two are infinite. -/
def mixedRhs : List (Extended ℚ) := [finite 1, finite 3, finite (-1), top, bottom]

/-- Two of five inequalities hold in any case and are left out; two of the others do not hold anywhere. -/
theorem read_describes_mixedRows : ∃ c,
    CheckedSystem.read .inequalities "pdfo" 2 (.ofTensor mixedRows) (.ofList mixedRhs) = .ok c ∧
      c.trivial = [true, false, false, true, false] ∧ c.infeasible = [false, false, true, false, true] ∧
      SystemName.AlwaysHolds .inequalities [finite (3 : ℚ), finite 0] top ∧
      SystemName.NeverHolds .inequalities [finite (0 : ℚ), finite 0] (finite (-1)) ∧
      c.system = ⟨[[finite 1, finite 2], [finite 0, finite 0], [finite 0, finite (-1)]],
        [finite 3, finite (-1), bottom]⟩ ∧
      CheckedSystem.read .inequalities "pdfo" 2 c.system.matrix (.ofList c.system.rhs)
        = .ok ⟨c.system, [false, true, true], [false, false, false]⟩ := by
  have hrun : (CheckedSystem.read .inequalities "pdfo" 2 (.ofTensor mixedRows)
      (.ofList mixedRhs)).toOption.map (fun c =>
        ((c.trivial, c.infeasible), (c.system.rows, c.system.rhs)))
        = some (([true, false, false, true, false], [false, false, true, false, true]),
          ([[finite 1, finite 2], [finite 0, finite 0], [finite 0, finite (-1)]],
            [finite 3, finite (-1), bottom])) := by
    decide +kernel
  obtain ⟨c, hc, hparts⟩ := exists_of_toOption_map hrun
  simp only [Prod.mk.injEq] at hparts
  obtain ⟨⟨htrivial, hinfeasible⟩, hrows, hrhs⟩ := hparts
  obtain ⟨hread, hdescribes⟩ := read_describes (K := ℚ) .inequalities "pdfo" (n := 2) (by decide)
  have hsystem := hread 5 mixedRows mixedRhs rfl rfl
  obtain ⟨c', hc', hmeaning, hagain⟩ := hdescribes _ _ _ hsystem
    (by simp [mixedRows, Tensor.toRows, Tensor.split]) (by simp [mixedRhs])
  obtain rfl : c' = c := Except.ok.inj (hc'.symm.trans hc)
  refine ⟨c', hc, htrivial, hinfeasible, ?_, ?_, ?_, ?_⟩
  · exact (hmeaning.trivial_iff 3 _ _ rfl rfl).1 (by rw [htrivial]; rfl)
  · exact (hmeaning.infeasible_iff 2 _ _ rfl rfl).1 (by rw [hinfeasible]; rfl)
  · exact congrArg₂ LinearSystem.mk hrows hrhs
  · rw [hagain, htrivial, hinfeasible, hrows]
    rfl

end CheckedSystem
end Presolve
