import Presolve.Proofs.Linear.Symmetric
import Presolve.Proofs.Preparation.Degeneracy
import Presolve.Proofs.Value.Sound

/-!
# The violation as a tolerance

The violation of the constraints at a point is one number, the worst of the terms that bounds, rows and
nonlinear constraints contribute (`Problem.violationAt_eq_ok`). Over exact numbers it is at most `δ` exactly
if every constraint holds up to `δ`, where bounds and rows are given room in proportion to their right-hand
sides. This is what `Problem.violationAt_le_iff` says.

The term of an infinite right-hand side is undefined, and undefined terms are passed over. So such
right-hand sides do not restrict a point, whichever way they are infinite.
-/

namespace Presolve

open Scalar Extended

/-! ## The terms of a violation -/

section

variable {α : Type} [Scalar α]

/-- How far a side of a row or of a bound is beyond the one that limits it. -/
def SystemName.deviation (name : SystemName) (a b : α) : α :=
  match name with
  | inequalities => (a - b) / rhsSize b
  | equalities => Scalar.abs ((a - b) / rhsSize b)

/-- The terms of the bounds. -/
def Bounds.deviations (b : Bounds α) (x : List α) : List α :=
  List.zipWith (fun lo a => (lo - a) / rhsSize lo) b.lower x
    ++ List.zipWith (fun a hi => (a - hi) / rhsSize hi) x b.upper

/-- The terms of a system; a matrix without entries has none. -/
def LinearSystem.deviations (name : SystemName) (s : LinearSystem α) (x : List α) : List α :=
  if s.hasRows then List.zipWith (fun row b => name.deviation (dot row x) b) s.rows s.rhs else []

/-- The terms of all constraints, where the nonlinear ones have the values `us` and `vs`. -/
def Problem.deviations (p : Problem α) (x us vs : List α) : List α :=
  p.bounds.deviations x ++ p.inequalities.deviations .inequalities x
    ++ p.equalities.deviations .equalities x ++ (us ++ vs.map Scalar.abs)

theorem Bounds.excess_eq_deviations {b : Bounds α} {x : List α} {n : Nat} (hl : b.lower.length = n)
    (hu : b.upper.length = n) (hx : x.length = n) : b.excess x = .ok (b.deviations x) := by
  rw [Bounds.excess_eq hl hu hx, zipWith_zipWith_map_left, zipWith_zipWith_map_right]
  rfl

theorem LinearSystem.excess_eq_deviations {s : LinearSystem α} {x : List α} {n : Nat} (hs : s.Fits n)
    (hx : x.length = n) : s.excess x = .ok (s.deviations .inequalities x) := by
  unfold LinearSystem.excess LinearSystem.deviations
  split
  · have hproducts : (s.rows.map (dot · x)).length = s.rhs.length := by simp [hs.length_rhs]
    rw [applyRows_eq fun row hrow => (hs.length_row row hrow).trans hx.symm]
    show (entrywise (· - ·) (s.rows.map (dot · x)) s.rhs >>= fun e => relativeExcess e s.rhs) = _
    rw [entrywise_of_length_eq _ hproducts]
    show entrywise (· / ·) _ _ = _
    rw [entrywise_of_length_eq _ (by simp [hs.length_rhs]), zipWith_zipWith_map_right, List.zipWith_map_left]
    rfl
  · rfl

/-- An equality contributes the magnitude of what an inequality would. -/
theorem LinearSystem.map_abs_deviations (s : LinearSystem α) (x : List α) :
    (s.deviations .inequalities x).map Scalar.abs = s.deviations .equalities x := by
  unfold LinearSystem.deviations
  split
  · exact List.map_zipWith
  · rfl

variable [Interchange α]

/-- What nonlinear constraints give at a point: values that should not be positive and values that should
be zero. There are none of either where there is no such constraint. -/
def ConstraintsYield (constraints : Option (Evaluator α)) (x us vs : List α) : Prop :=
  match constraints with
  | none => us = [] ∧ vs = []
  | some f => ∃ output ineq eq, f x = .ok output ∧ outputPair output = .ok (ineq, eq) ∧
      ineq.flatReals = .ok us ∧ eq.flatReals = .ok vs

theorem constraintsYield_of_lists {f : Evaluator α} {x us vs : List α}
    (h : f x = .ok (.tuple [.ofList us, .ofList vs])) : ConstraintsYield (some f) x us vs :=
  ⟨_, _, _, h, rfl, Value.flatReals_ofList us, Value.flatReals_ofList vs⟩

theorem constraintExcess_eq_ok {constraints : Option (Evaluator α)} {x ws : List α} :
    constraintExcess constraints x = .ok ws ↔
      ∃ us vs, ConstraintsYield constraints x us vs ∧ ws = us ++ vs.map Scalar.abs := by
  cases constraints with
  | none => simp [constraintExcess, ConstraintsYield, eq_comm]
  | some f =>
    simp only [constraintExcess, ConstraintsYield, bind_eq_ok, pure_eq_ok]
    constructor
    · rintro ⟨output, houtput, ⟨ineq, eq⟩, hpair, us, hus, vs, hvs, rfl⟩
      exact ⟨us, vs, ⟨output, ineq, eq, houtput, hpair, hus, hvs⟩, rfl⟩
    · rintro ⟨us, vs, ⟨output, ineq, eq, houtput, hpair, hus, hvs⟩, rfl⟩
      exact ⟨output, houtput, (ineq, eq), hpair, us, hus, vs, hvs, rfl⟩

/-- The violation at a point is the worst of the terms, if the nonlinear constraints have values there. -/
theorem Problem.violationAt_eq_ok {p : Problem α} {x : List α} {v : α} (hp : p.Fits x.length) :
    p.violationAt x = .ok v ↔
      ∃ us vs, ConstraintsYield p.constraints x us vs ∧ v = worst (p.deviations x us vs) := by
  simp only [Problem.violationAt, violation, bind_eq_ok, pure_eq_ok,
    Bounds.excess_eq_deviations hp.length_lower hp.length_upper rfl,
    LinearSystem.excess_eq_deviations hp.inequalities rfl,
    LinearSystem.excess_eq_deviations hp.equalities rfl, Except.ok.injEq, exists_eq_left',
    LinearSystem.map_abs_deviations, constraintExcess_eq_ok]
  constructor
  · rintro ⟨_, ⟨us, vs, hyield, rfl⟩, rfl⟩
    exact ⟨us, vs, hyield, rfl⟩
  · rintro ⟨us, vs, hyield, rfl⟩
    exact ⟨_, ⟨us, vs, hyield, rfl⟩, rfl⟩

end

variable {K : Type} [Field K] [LinearOrder K] [FloorRing K]

namespace Extended

/-! ## The worst of some numbers -/

section

variable {x y : Extended K} {xs : List (Extended K)}

theorem worse_spec (hx : x ≤ x) :
    x ≤ worse x y ∧ (worse x y = x ∨ worse x y = y) ∧ ¬worse x y < y := by
  unfold worse
  split
  · next h =>
    refine ⟨hx, .inl rfl, ?_⟩
    intro hlt
    rcases h with h | h
    · rw [isUndefined_eq_false.2 (defined_right (Extended.le_of_lt hlt))] at h
      cases h
    · exact (lt_iff.1 h).2 (Extended.le_of_lt hlt)
  · next h =>
    rw [not_or, Bool.not_eq_true, isUndefined_eq_false] at h
    exact ⟨(Extended.not_lt h.1 hx).1 h.2, .inr rfl, fun hlt => (lt_iff.1 hlt).2 h.1⟩

/-- The worst of some numbers is zero or one of them, and none of them is greater. -/
theorem worst_spec (xs : List (Extended K)) :
    finite 0 ≤ worst xs ∧ (worst xs = finite 0 ∨ worst xs ∈ xs) ∧ ∀ x ∈ xs, ¬worst xs < x := by
  -- the fold starts from zero, but the induction needs any start
  have hfold : ∀ s : Extended K, s ≤ s → s ≤ xs.foldl worse s ∧
      (xs.foldl worse s = s ∨ xs.foldl worse s ∈ xs) ∧ ∀ x ∈ xs, ¬xs.foldl worse s < x := by
    induction xs with
    | nil => exact fun s hs => ⟨hs, .inl rfl, by simp⟩
    | cons x xs ih =>
      intro s hs
      obtain ⟨hle, hone, hnot⟩ := worse_spec (y := x) hs
      obtain ⟨hge, hmem, hrest⟩ := ih (worse s x) (defined_right hle)
      refine ⟨Extended.le_trans hle hge, ?_, ?_⟩
      · rw [List.foldl_cons]
        rcases hmem with hmem | hmem
        · rw [hmem]
          rcases hone with hone | hone <;> simp [hone]
        · exact .inr (List.mem_cons_of_mem x hmem)
      · intro z hz
        rcases List.mem_cons.1 hz with rfl | hz
        · exact fun hlt => hnot (Extended.lt_of_le_of_lt hge hlt)
        · exact hrest z hz
  have hzero : (finite 0 : Extended K) ≤ finite 0 := (finite_le _ _).2 le_rfl
  rw [← zero_eq] at hzero ⊢
  exact hfold 0 hzero

/-- The worst of some numbers is at most a bound that is not negative exactly if none of them is greater. -/
theorem worst_le_iff {c : K} (hc : 0 ≤ c) : worst xs ≤ finite c ↔ ∀ x ∈ xs, ¬finite c < x := by
  obtain ⟨hnonneg, hone, hnot⟩ := worst_spec xs
  constructor
  · intro hle x hx hlt
    exact hnot x hx (Extended.lt_of_le_of_lt hle hlt)
  · intro hall
    rcases hone with hzero | hmem
    · rw [hzero, finite_le]
      exact hc
    · exact (Extended.not_lt ((finite_le _ _).2 le_rfl) (defined_right hnonneg)).1 (hall _ hmem)

theorem worst_pos_iff : finite 0 < worst xs ↔ ∃ x ∈ xs, finite 0 < x := by
  have hzero : (finite 0 : Extended K) ≤ finite 0 := (finite_le _ _).2 le_rfl
  rw [← Extended.not_le (defined_right (worst_spec xs).1) hzero, worst_le_iff le_rfl]
  push Not
  rfl

end

/-! ## Limits with room -/

/-- A number is at most a limit, up to `δ` in proportion to the limit. Only finite limits count. -/
def AtMostWithin (δ : K) (a b : Extended K) : Prop := ∀ c, b = finite c → a ≤ finite (c + δ * max 1 |c|)

/-- A number is at least a limit, up to `δ` in proportion to the limit. Only finite limits count. -/
def AtLeastWithin (δ : K) (a b : Extended K) : Prop := ∀ c, b = finite c → finite (c - δ * max 1 |c|) ≤ a

end Extended

/-- The relation between the sides of a row, up to `δ`. -/
def SystemName.RelatesWithin (δ : K) : SystemName → Extended K → Extended K → Prop
  | inequalities, a, b => AtMostWithin δ a b
  | equalities, a, b => AtMostWithin δ a b ∧ AtLeastWithin δ a b

namespace Extended

variable {δ a c : K} {b : Extended K}

theorem atMostWithin_finite : AtMostWithin δ (finite a) (finite c) ↔ a ≤ c + δ * max 1 |c| := by
  simp [AtMostWithin]

theorem atLeastWithin_finite : AtLeastWithin δ (finite a) (finite c) ↔ c - δ * max 1 |c| ≤ a := by
  simp [AtLeastWithin]

/-- Where there is no room, a limit that is finite counts as it is. -/
theorem atMostWithin_zero (h : IsUpperBound b) : AtMostWithin 0 (finite a) b ↔ finite a ≤ b := by
  rcases h with ⟨c, rfl⟩ | rfl
  · rw [atMostWithin_finite, zero_mul, add_zero, finite_le]
  · simp [AtMostWithin]

theorem atLeastWithin_zero (h : IsLowerBound b) : AtLeastWithin 0 (finite a) b ↔ b ≤ finite a := by
  rcases h with ⟨c, rfl⟩ | rfl
  · rw [atLeastWithin_finite, zero_mul, sub_zero, finite_le]
  · simp [AtLeastWithin]

theorem rhsSize_infinite (h : b = top ∨ b = bottom) : rhsSize b = top := by
  have hone : (1 : Extended K) ≤ 1 := by simp [one_eq]
  rw [rhsSize, abs_eq_top.2 h, (join_top hone).1]

variable [IsStrictOrderedRing K]

theorem rhsSize_finite (b : K) : rhsSize (finite b : Extended K) = finite (max 1 |b|) := by
  rw [rhsSize, abs_finite, one_eq, join_finite]

/-- The terms of a limit are finite if it is, and undefined otherwise. -/
theorem deviation_cases (a : K) (b : Extended K) :
    (∃ c, b = finite c ∧ (finite a - b) / rhsSize b = finite ((a - c) / max 1 |c|) ∧
      (b - finite a) / rhsSize b = finite ((c - a) / max 1 |c|)) ∨
    (¬IsFinite b ∧ (finite a - b) / rhsSize b = undefined ∧ (b - finite a) / rhsSize b = undefined) := by
  cases b with
  | finite c =>
    have hsize : max 1 |c| ≠ 0 := (lt_max_of_lt_left one_pos).ne'
    refine .inl ⟨c, rfl, ?_, ?_⟩ <;> rw [rhsSize_finite, finite_sub, finite_div _ hsize]
  | top =>
    rw [rhsSize_infinite (.inl rfl)]
    exact .inr ⟨by simp [IsFinite], rfl, rfl⟩
  | bottom =>
    rw [rhsSize_infinite (.inr rfl)]
    exact .inr ⟨by simp [IsFinite], rfl, rfl⟩
  | undefined => exact .inr ⟨by simp [IsFinite], undefined_div _, undefined_div _⟩

/-- The term of an upper limit is at most `δ` exactly if the limit is kept up to `δ`. -/
theorem not_lt_deviation_above : ¬finite δ < (finite a - b) / rhsSize b ↔ AtMostWithin δ (finite a) b := by
  rcases deviation_cases a b with ⟨c, rfl, h, -⟩ | ⟨hb, h, -⟩
  · have hsize : 0 < max 1 |c| := lt_max_of_lt_left one_pos
    rw [h, finite_lt, not_lt, div_le_iff₀ hsize, sub_le_iff_le_add', atMostWithin_finite]
  · rw [h]
    exact iff_of_true (not_lt_undefined _) fun c hc => absurd ⟨c, hc⟩ hb

theorem not_lt_deviation_below : ¬finite δ < (b - finite a) / rhsSize b ↔ AtLeastWithin δ (finite a) b := by
  rcases deviation_cases a b with ⟨c, rfl, -, h⟩ | ⟨hb, -, h⟩
  · have hsize : 0 < max 1 |c| := lt_max_of_lt_left one_pos
    rw [h, finite_lt, not_lt, div_le_iff₀ hsize, sub_le_comm, atLeastWithin_finite]
  · rw [h]
    exact iff_of_true (not_lt_undefined _) fun c hc => absurd ⟨c, hc⟩ hb

/-- The term of a row is at most `δ` exactly if the row holds up to `δ`. -/
theorem not_lt_deviation_row {name : SystemName} :
    ¬finite δ < name.deviation (finite a) b ↔ name.RelatesWithin δ (finite a) b := by
  cases name with
  | inequalities => exact not_lt_deviation_above
  | equalities =>
    show ¬finite δ < Scalar.abs ((finite a - b) / rhsSize b) ↔ AtMostWithin _ _ _ ∧ AtLeastWithin _ _ _
    rw [← not_lt_deviation_above, ← not_lt_deviation_below]
    rcases deviation_cases a b with ⟨c, rfl, h, h'⟩ | ⟨-, h, h'⟩
    · have hneg : (c - a) / max 1 |c| = -((a - c) / max 1 |c|) := by ring
      rw [h, h', hneg, abs_finite, finite_lt, finite_lt, finite_lt, not_lt, not_lt, not_lt, abs_le']
    · rw [h, h']
      simp [not_lt_undefined, Scalar.abs]

/-- The terms of finite numbers are finite or undefined. -/
theorem isFinite_deviation (name : SystemName) (a : K) (b : Extended K) :
    IsFinite (name.deviation (finite a) b) ∨ name.deviation (finite a) b = undefined := by
  rcases deviation_cases a b with ⟨c, -, h, -⟩ | ⟨-, h, -⟩
  · cases name <;> simp [SystemName.deviation, h, abs_finite]
  · cases name <;> simp [SystemName.deviation, h, Scalar.abs]

end Extended

/-! ## Points that are admitted up to a tolerance -/

/-- A point satisfies every row of a system up to `δ`. A matrix without entries is no constraint. -/
def LinearSystem.HoldsWithin (δ : K) (name : SystemName) (s : LinearSystem (Extended K))
    (x : List (Extended K)) : Prop :=
  s.hasRows = true → List.Forall₂ (fun row b => name.RelatesWithin δ (dot row x) b) s.rows s.rhs

/-- A point satisfies the bounds and the rows of a problem up to `δ`. -/
structure Problem.AdmitsWithin (δ : K) (p : Problem (Extended K)) (x : List (Extended K)) : Prop where
  lower : List.Forall₂ (fun lo a => AtLeastWithin δ a lo) p.bounds.lower x
  upper : List.Forall₂ (AtMostWithin δ) x p.bounds.upper
  inequalities : p.inequalities.HoldsWithin δ .inequalities x
  equalities : p.equalities.HoldsWithin δ .equalities x

theorem LinearSystem.exists_row_eq {s : LinearSystem (Extended K)} (hrows : s.HasFiniteRows) (x : List K)
    {row : List (Extended K)} (hrow : row ∈ s.rows) : ∃ a : K, dot row (x.map finite) = finite a :=
  isFinite_dot (hrows row hrow) (by simp)

section

variable {δ : K} {p : Problem (Extended K)} {x us vs : List K}

/-- Without room, the points that are admitted are those that satisfy every constraint. -/
theorem Problem.admitsWithin_zero (hp : p.Fits x.length) (hx : 0 < x.length) (hrows : p.HasFiniteRows)
    (hrhs : ∀ name, ∀ b ∈ (p.system name).rhs, IsFinite b)
    (hlower : ∀ a ∈ p.bounds.lower, IsLowerBound a) (hupper : ∀ a ∈ p.bounds.upper, IsUpperBound a) :
    p.AdmitsWithin 0 (x.map finite) ↔ p.Admits (x.map finite) := by
  have hsystem (name : SystemName) : (p.system name).HoldsWithin 0 name (x.map finite) ↔
      (p.system name).Holds name (x.map finite) := by
    have hrelates : List.Forall₂ (fun row b => name.RelatesWithin 0 (dot row (x.map finite)) b)
        (p.system name).rows (p.system name).rhs ↔ (p.system name).Holds name (x.map finite) := by
      apply forall₂_congr_mem
      intro row hrow b hb
      obtain ⟨a, ha⟩ := LinearSystem.exists_row_eq (hrows.system name) x hrow
      obtain ⟨c, rfl⟩ := hrhs name b hb
      rw [ha]
      have habove : AtMostWithin 0 (finite a) (finite c) ↔ finite a ≤ finite c :=
        atMostWithin_zero (.inl ⟨c, rfl⟩)
      cases name with
      | inequalities => exact habove
      | equalities => exact and_congr habove (atLeastWithin_zero (.inl ⟨c, rfl⟩))
    rw [← hrelates, LinearSystem.HoldsWithin]
    cases hentries : (p.system name).hasRows with
    | true => simp
    | false =>
      rw [(hp.system name).eq_empty hx hentries]
      simp [LinearSystem.empty]
  have hbelow : List.Forall₂ (fun lo a => AtLeastWithin 0 a lo) p.bounds.lower (x.map finite) ↔
      List.Forall₂ (· ≤ ·) p.bounds.lower (x.map finite) := by
    apply forall₂_congr_mem
    intro lo hlo a ha
    obtain ⟨a, -, rfl⟩ := List.mem_map.1 ha
    exact atLeastWithin_zero (hlower lo hlo)
  have habove : List.Forall₂ (AtMostWithin 0) (x.map finite) p.bounds.upper ↔
      List.Forall₂ (· ≤ ·) (x.map finite) p.bounds.upper := by
    apply forall₂_congr_mem
    intro a ha hi hhi
    obtain ⟨a, -, rfl⟩ := List.mem_map.1 ha
    exact atMostWithin_zero (hupper hi hhi)
  constructor
  · intro h
    exact ⟨⟨hbelow.1 h.lower, habove.1 h.upper⟩, (hsystem .inequalities).1 h.inequalities,
      (hsystem .equalities).1 h.equalities⟩
  · intro h
    exact ⟨hbelow.2 h.bounds.1, habove.2 h.bounds.2, (hsystem .inequalities).2 h.inequalities,
      (hsystem .equalities).2 h.equalities⟩

variable [IsStrictOrderedRing K]

theorem Bounds.forall_deviations_iff {b : Bounds (Extended K)} (hl : b.lower.length = x.length)
    (hu : b.upper.length = x.length) :
    (∀ t ∈ b.deviations (x.map finite), ¬finite δ < t) ↔
      List.Forall₂ (fun lo a => AtLeastWithin δ a lo) b.lower (x.map finite) ∧
        List.Forall₂ (AtMostWithin δ) (x.map finite) b.upper := by
  rw [Bounds.deviations, List.forall_mem_append, forall_mem_zipWith_iff (by simpa using hl),
    forall_mem_zipWith_iff (by simpa using hu.symm)]
  simp only [List.forall₂_map_left_iff, List.forall₂_map_right_iff, not_lt_deviation_above,
    not_lt_deviation_below]

theorem LinearSystem.forall_deviations_iff {name : SystemName} {s : LinearSystem (Extended K)}
    (hs : s.Fits x.length) (hrows : s.HasFiniteRows) :
    (∀ t ∈ s.deviations name (x.map finite), ¬finite δ < t) ↔ s.HoldsWithin δ name (x.map finite) := by
  unfold LinearSystem.deviations LinearSystem.HoldsWithin
  split
  · next hentries =>
    rw [forall_mem_zipWith_iff hs.length_rhs.symm, forall_prop_of_true hentries]
    apply forall₂_congr_mem
    intro row hrow b _
    obtain ⟨a, ha⟩ := LinearSystem.exists_row_eq hrows x hrow
    rw [ha, not_lt_deviation_row]
  · next hentries => simp [hentries]

/-- No term is greater than `δ` exactly if the point is admitted up to `δ` and the values of nonlinear
constraints are within `δ`. -/
theorem Problem.forall_deviations_iff {us vs : List (Extended K)} (hp : p.Fits x.length)
    (hrows : p.HasFiniteRows) : (∀ t ∈ p.deviations (x.map finite) us vs, ¬finite δ < t) ↔
      p.AdmitsWithin δ (x.map finite) ∧ (∀ u ∈ us, ¬finite δ < u) ∧ ∀ w ∈ vs, ¬finite δ < Scalar.abs w := by
  rw [Problem.deviations, List.forall_mem_append, List.forall_mem_append, List.forall_mem_append,
    List.forall_mem_append, List.forall_mem_map, Bounds.forall_deviations_iff hp.length_lower hp.length_upper,
    LinearSystem.forall_deviations_iff hp.inequalities hrows.1,
    LinearSystem.forall_deviations_iff hp.equalities hrows.2]
  refine and_congr_left fun _ => ?_
  constructor
  · rintro ⟨⟨⟨hlower, hupper⟩, hineq⟩, heq⟩
    exact ⟨hlower, hupper, hineq, heq⟩
  · intro h
    exact ⟨⟨⟨h.lower, h.upper⟩, h.inequalities⟩, h.equalities⟩

/-- The terms of a finite point are finite or undefined, if the nonlinear constraints have finite values. -/
theorem Problem.isFinite_of_mem_deviations (hrows : p.HasFiniteRows)
    {t : Extended K} (ht : t ∈ p.deviations (x.map finite) (us.map finite) (vs.map finite)) :
    IsFinite t ∨ t = Extended.undefined := by
  have hsystem (name : SystemName) (h : t ∈ (p.system name).deviations name (x.map finite)) :
      IsFinite t ∨ t = Extended.undefined := by
    unfold LinearSystem.deviations at h
    split at h
    · obtain ⟨row, hrow, b, -, rfl⟩ := exists_of_mem_zipWith h
      obtain ⟨a, ha⟩ := LinearSystem.exists_row_eq (hrows.system name) x hrow
      rw [ha]
      exact isFinite_deviation name a b
    · cases h
  rw [Problem.deviations] at ht
  simp only [List.mem_append] at ht
  rcases ht with ((hbounds | hineq) | heq) | hother | hother
  · rcases List.mem_append.1 hbounds with h | h
    · obtain ⟨lo, -, a, ha, rfl⟩ := exists_of_mem_zipWith h
      obtain ⟨a, -, rfl⟩ := List.mem_map.1 ha
      rcases deviation_cases a lo with ⟨c, -, -, h⟩ | ⟨-, -, h⟩ <;> simp [h]
    · obtain ⟨a, ha, hi, -, rfl⟩ := exists_of_mem_zipWith h
      obtain ⟨a, -, rfl⟩ := List.mem_map.1 ha
      exact isFinite_deviation .inequalities a hi
  · exact hsystem .inequalities hineq
  · exact hsystem .equalities heq
  · obtain ⟨u, -, rfl⟩ := List.mem_map.1 hother
    exact .inl (isFinite_finite u)
  · rw [List.map_map] at hother
    obtain ⟨w, -, rfl⟩ := List.mem_map.1 hother
    exact .inl ⟨|w|, abs_finite w⟩

variable [Interchange (Extended K)]

/-- The violation at a point is the least tolerance up to which the point is admitted and the values of
nonlinear constraints are what they should be. It is zero exactly at the points that satisfy every
constraint. -/
theorem Problem.violationAt_le_iff (hp : p.Fits x.length) (hrows : p.HasFiniteRows)
    (hrhs : ∀ name, ∀ b ∈ (p.system name).rhs, IsFinite b)
    (hlower : ∀ a ∈ p.bounds.lower, IsLowerBound a) (hupper : ∀ a ∈ p.bounds.upper, IsUpperBound a)
    (hyield : ConstraintsYield p.constraints (x.map finite) (us.map finite) (vs.map finite)) :
    ∃ v : K, p.violationAt (x.map finite) = .ok (finite v) ∧ 0 ≤ v ∧
      (∀ δ, 0 ≤ δ → (v ≤ δ ↔
        p.AdmitsWithin δ (x.map finite) ∧ (∀ u ∈ us, u ≤ δ) ∧ ∀ w ∈ vs, |w| ≤ δ)) ∧
      (0 < x.length → (v = 0 ↔
        p.Admits (x.map finite) ∧ (∀ u ∈ us, u ≤ 0) ∧ ∀ w ∈ vs, w = 0)) := by
  have hfits : p.Fits (x.map finite).length := by rwa [List.length_map]
  obtain ⟨hnonneg, hone, -⟩ := worst_spec (p.deviations (x.map finite) (us.map finite) (vs.map finite))
  -- the worst of the terms is defined, so it is a number
  obtain ⟨v, hv⟩ : IsFinite (worst (p.deviations (x.map finite) (us.map finite) (vs.map finite))) := by
    rcases hone with hzero | hmem
    · exact ⟨0, hzero⟩
    · refine (isFinite_of_mem_deviations hrows hmem).resolve_right ?_
      intro hundefined
      rw [hundefined] at hnonneg
      exact not_le_undefined _ hnonneg
  have hiff (δ : K) (hδ : 0 ≤ δ) : v ≤ δ ↔
      p.AdmitsWithin δ (x.map finite) ∧ (∀ u ∈ us, u ≤ δ) ∧ ∀ w ∈ vs, |w| ≤ δ := by
    rw [← finite_le v δ, ← hv, worst_le_iff hδ, forall_deviations_iff hp hrows]
    simp [abs_finite]
  rw [hv, finite_le] at hnonneg
  refine ⟨v, ?_, hnonneg, hiff, ?_⟩
  · exact (violationAt_eq_ok hfits).2 ⟨_, _, hyield, hv.symm⟩
  · intro hx
    rw [← hnonneg.ge_iff_eq', hiff 0 le_rfl, admitsWithin_zero hp hx hrows hrhs hlower hupper]
    simp

end

/-- An inequality `x₀ + x₁ ≤ 2`, an equality `x₀ - x₁ = 4` and a bound from each side, under nonlinear
constraints that are violated everywhere. -/
def violatedProblem : Problem (Extended ℚ) where
  objective := none
  start := [finite 0, finite 0]
  inequalities := ⟨[[finite 1, finite 1]], [finite 2]⟩
  equalities := ⟨[[finite 1, finite (-1)]], [finite 4]⟩
  bounds := ⟨[finite 0, bottom], [top, finite 4]⟩
  constraints := some fun _ => .ok (.tuple [.ofList [finite (1 / 2)], .ofList [finite (-1 / 4)]])

/-- The inequality is off by `2`, which is once its right-hand side, and nothing is off by more. -/
theorem violationAt_le_iff_violatedProblem :
    violatedProblem.violationAt [finite 3, finite 1] = .ok (finite 1) ∧
      violatedProblem.AdmitsWithin 1 [finite 3, finite 1] ∧
      ¬violatedProblem.AdmitsWithin (1 / 2) [finite 3, finite 1] := by
  have hfits : violatedProblem.Fits [(3 : ℚ), 1].length :=
    ⟨rfl, rfl, rfl, ⟨rfl, by simp [violatedProblem]⟩, ⟨rfl, by simp [violatedProblem]⟩⟩
  have hrows : violatedProblem.HasFiniteRows := by
    constructor <;> simp [LinearSystem.HasFiniteRows, violatedProblem]
  have hrhs : ∀ name, ∀ b ∈ (violatedProblem.system name).rhs, IsFinite b := by
    intro name
    cases name <;> simp [Problem.system, violatedProblem]
  have hyield : ConstraintsYield violatedProblem.constraints ([3, 1].map finite) ([1 / 2].map finite)
      ([-1 / 4].map finite) :=
    constraintsYield_of_lists rfl
  obtain ⟨v, hv, -, hiff, -⟩ := Problem.violationAt_le_iff hfits hrows hrhs
    (by simp [violatedProblem, IsLowerBound]) (by simp [violatedProblem, IsUpperBound]) hyield
  have hrun : violatedProblem.violationAt [finite 3, finite 1] = .ok (finite 1) :=
    eq_ok_of_toOption (by decide +kernel)
  obtain rfl : v = 1 := finite.inj (Except.ok.inj (hv.symm.trans hrun))
  refine ⟨hv, ((hiff 1 zero_le_one).1 le_rfl).1, ?_⟩
  -- the nonlinear constraints are within one half, so the rest is not
  intro hhalf
  have hle := (hiff (1 / 2) (by norm_num)).2 ⟨hhalf, by norm_num, by norm_num [abs_le]⟩
  norm_num at hle

end Presolve
