import Presolve.Proofs.Constraint.Flags
import Presolve.Proofs.Problem.Tolerance

/-!
# Infeasible problems and their violation

A problem is known to be infeasible if its constraints are in conflict: no point satisfies some row, or the
bounds of a variable exclude each other. The violation at a point is computed from other terms. The two agree
about a conflict with finite right-hand sides, which leaves a violation greater than zero at every point.

They need not agree about a conflict with an infinite right-hand side. Its terms are undefined and do not
count, so the violation may be zero although the problem is known to be infeasible
(`exists_conflict_without_violation`).
-/

namespace Presolve

open Scalar Extended

variable {K : Type} [Field K] [LinearOrder K] [FloorRing K]

/-! ## Conflicts -/

/-- No point satisfies some row of the system, and the right-hand side of the row has the property `P`. -/
def LinearSystem.HasConflict (name : SystemName) (P : Extended K → Prop) (s : LinearSystem (Extended K)) :
    Prop :=
  ∃ row b, (row, b) ∈ s.rows.zip s.rhs ∧ (∀ a ∈ row, IsFinite a) ∧ name.NeverHolds row b ∧ P b

/-- The bounds of some variable exclude each other, and both of them have the property `P`. -/
def Bounds.HasConflict (P : Extended K → Prop) (b : Bounds (Extended K)) : Prop :=
  ∃ lo hi, (lo, hi) ∈ b.lower.zip b.upper ∧ hi < lo ∧ P lo ∧ P hi

/-- A row of a problem or the bounds of a variable are a conflict with the property `P`. -/
def Problem.HasConflict (P : Extended K → Prop) (p : Problem (Extended K)) : Prop :=
  (∃ name, (p.system name).HasConflict name P) ∨ p.bounds.HasConflict P

/-- No coefficient and no right-hand side of a problem is undefined. -/
def Problem.HasDefinedRows (p : Problem (Extended K)) : Prop :=
  ∀ name, (∀ row ∈ (p.system name).rows, ∀ a ∈ row, a ≠ Extended.undefined) ∧
    ∀ b ∈ (p.system name).rhs, b ≠ Extended.undefined

/-! ## Which conflicts are flagged -/

namespace Extended

theorem foldl_join_eq_top {xs : List (Extended K)} {s : Extended K} (hs : s ≤ s) (hxs : ∀ x ∈ xs, x ≤ x)
    (h : s = top ∨ top ∈ xs) : xs.foldl join s = top := by
  induction xs generalizing s with
  | nil => simpa using h
  | cons x xs ih =>
    have hx : x ≤ x := hxs x List.mem_cons_self
    apply ih (join_defined hs hx) fun y hy => hxs y (List.mem_cons_of_mem x hy)
    rcases h with rfl | h
    · exact .inl (join_top hx).2
    · rcases List.mem_cons.1 h with rfl | h
      · exact .inl (join_top hs).1
      · exact .inr h

theorem abs_defined {x : Extended K} (h : x ≠ undefined) : Scalar.abs x ≤ Scalar.abs x := by
  cases x <;> simp_all [Scalar.abs]

/-- A row with an infinite coefficient is of infinite size. -/
theorem rowSize_eq_top {row : List (Extended K)} (hrow : ∀ a ∈ row, a ≠ undefined)
    (h : ∃ a ∈ row, ¬IsFinite a) : rowSize row = top := by
  have hdefined : ∀ x ∈ row.map Scalar.abs, x ≤ x := by
    intro x hx
    obtain ⟨a, ha, rfl⟩ := List.mem_map.1 hx
    exact abs_defined (hrow a ha)
  have htop : top ∈ row.map Scalar.abs := by
    obtain ⟨a, ha, hinfinite⟩ := h
    refine List.mem_map.2 ⟨a, ha, abs_eq_top.2 ?_⟩
    have := hrow a ha
    cases a <;> simp_all
  cases row with
  | nil => simp at htop
  | cons a row =>
    rw [List.map_cons] at hdefined htop
    rw [rowSize, List.map_cons, maximum?, Option.getD_some]
    apply foldl_join_eq_top (hdefined _ List.mem_cons_self)
      fun x hx => hdefined x (List.mem_cons_of_mem _ hx)
    simpa [eq_comm] using htop

/-- A row is flagged as infeasible exactly if it has finite coefficients and no point satisfies it. -/
theorem isInfeasible_iff_of_defined [IsStrictOrderedRing K] {name : SystemName} {row : List (Extended K)}
    {b : Extended K} (hrow : ∀ a ∈ row, a ≠ undefined) (hb : b ≠ undefined) :
    name.isInfeasible row b = true ↔ (∀ a ∈ row, IsFinite a) ∧ name.NeverHolds row b := by
  by_cases hfinite : ∀ a ∈ row, IsFinite a
  · obtain ⟨row, rfl⟩ := exists_map_finite hfinite
    rw [isInfeasible_iff hb, and_iff_right hfinite]
  · -- in proportion to an infinite size no right-hand side is infinite
    have hsize : rowSize row = top := rowSize_eq_top hrow (by simpa using hfinite)
    refine iff_of_false ?_ fun h => hfinite h.1
    have hzero : same top (0 : Extended K) = false := by simp [same, zero_eq]
    have hrhs : relativeRhs row b = finite 0 ∨ relativeRhs row b = undefined := by
      simp only [relativeRhs, hsize, hzero]
      cases b with
      | finite c => exact .inl rfl
      | top | bottom | undefined => exact .inr rfl
    have hinfinite : same (relativeRhs row b) (-infinity) = false ∧
        same (Scalar.abs (relativeRhs row b)) infinity = false := by
      rcases hrhs with hrhs | hrhs <;> rw [hrhs] <;> exact ⟨rfl, rfl⟩
    rw [Bool.not_eq_true]
    cases name with
    | inequalities =>
      simp only [SystemName.isInfeasible, hsize, hzero, hinfinite.1, Bool.false_and, Bool.or_self]
    | equalities =>
      simp only [SystemName.isInfeasible, hsize, hzero, hinfinite.2, Bool.false_and, Bool.or_self]

end Extended

/-! ## Which problems are known to be infeasible -/

section

variable {s : LinearSystem (Extended K)} {name : SystemName} {P : Extended K → Prop}

/-- No row of a conflict is left out of a system, since there is a point that violates it. -/
theorem LinearSystem.hasConflict_ofSystem [IsStrictOrderedRing K] :
    (CheckedSystem.ofSystem name s).system.HasConflict name P ↔ s.HasConflict name P := by
  unfold LinearSystem.HasConflict
  rw [CheckedSystem.zip_ofSystem]
  constructor
  · rintro ⟨row, b, hmem, h⟩
    exact ⟨row, b, (List.mem_filter.1 hmem).1, h⟩
  · rintro ⟨row, b, hmem, hrow, hnever, hP⟩
    refine ⟨row, b, List.mem_filter.2 ⟨hmem, ?_⟩, hrow, hnever, hP⟩
    rw [Bool.not_eq_true', Bool.eq_false_iff]
    intro htrivial
    obtain ⟨row, rfl⟩ := exists_map_finite hrow
    exact CheckedSystem.not_alwaysHolds_and_neverHolds ⟨isTrivial_iff.1 htrivial, hnever⟩

theorem Problem.hasConflict_withoutTrivialRows [IsStrictOrderedRing K] {p : Problem (Extended K)} :
    p.withoutTrivialRows.HasConflict P ↔ p.HasConflict P := by
  refine or_congr_left (exists_congr fun name => ?_)
  cases name <;> exact LinearSystem.hasConflict_ofSystem

theorem LinearSystem.any_infeasible_iff [IsStrictOrderedRing K]
    (hrows : ∀ row ∈ s.rows, ∀ a ∈ row, a ≠ Extended.undefined)
    (hrhs : ∀ b ∈ s.rhs, b ≠ Extended.undefined) :
    (CheckedSystem.ofSystem name s).infeasible.any id = true ↔ s.HasConflict name fun _ => True := by
  have hflag {row : List (Extended K)} {b : Extended K} (hmem : (row, b) ∈ s.rows.zip s.rhs) :
      name.isInfeasible row b = true ↔ (∀ a ∈ row, IsFinite a) ∧ name.NeverHolds row b :=
    isInfeasible_iff_of_defined (hrows row (List.of_mem_zip hmem).1) (hrhs b (List.of_mem_zip hmem).2)
  rw [CheckedSystem.ofSystem, List.any_eq_true]
  constructor
  · rintro ⟨flag, hmem, hset⟩
    obtain ⟨⟨row, b⟩, hpair, rfl⟩ := mem_zipWith_iff.1 hmem
    obtain ⟨hrow, hnever⟩ := (hflag hpair).1 hset
    exact ⟨row, b, hpair, hrow, hnever, trivial⟩
  · rintro ⟨row, b, hpair, hrow, hnever, -⟩
    exact ⟨_, mem_zipWith_iff.2 ⟨_, hpair, rfl⟩, (hflag hpair).2 ⟨hrow, hnever⟩⟩

theorem Bounds.any_infeasible_iff {b : Bounds (Extended K)} :
    b.infeasible.any id = true ↔ b.HasConflict fun _ => True := by
  rw [Bounds.infeasible, List.any_eq_true]
  constructor
  · rintro ⟨flag, hmem, hset⟩
    obtain ⟨⟨lo, hi⟩, hpair, rfl⟩ := mem_zipWith_iff.1 hmem
    exact ⟨lo, hi, hpair, of_decide_eq_true hset, trivial, trivial⟩
  · rintro ⟨lo, hi, hpair, hlt, -⟩
    exact ⟨_, mem_zipWith_iff.2 ⟨_, hpair, rfl⟩, decide_eq_true hlt⟩

/-- A problem is known to be infeasible exactly if its constraints are in conflict. -/
theorem Facts.infeasible_iff [IsStrictOrderedRing K] {given : Problem (Extended K)} {f : Facts (Extended K)}
    (hdefined : given.HasDefinedRows)
    (h : Facts.ofConstraints ⟨.ofSystem .inequalities given.inequalities,
      .ofSystem .equalities given.equalities⟩ given.bounds = .ok f) :
    f.infeasible = true ↔ given.HasConflict fun _ => True := by
  obtain ⟨hineq, -, heq, -⟩ := Facts.ofConstraints_rows h
  have hsystem (name : SystemName) :
      (CheckedSystem.ofSystem name (given.system name)).infeasible.any id = true ↔
        (given.system name).HasConflict name fun _ => True :=
    LinearSystem.any_infeasible_iff (hdefined name).1 (hdefined name).2
  rw [Facts.infeasible, hineq, heq, (Facts.ofConstraints_eq_ok h).2.1, Bool.or_eq_true, Bool.or_eq_true,
    Bounds.any_infeasible_iff]
  refine or_congr_left ?_
  constructor
  · rintro (hflag | hflag)
    · exact ⟨.inequalities, (hsystem .inequalities).1 hflag⟩
    · exact ⟨.equalities, (hsystem .equalities).1 hflag⟩
  · rintro ⟨name, hconflict⟩
    cases name with
    | inequalities => exact .inl ((hsystem .inequalities).2 hconflict)
    | equalities => exact .inr ((hsystem .equalities).2 hconflict)

end

/-! ## The violation of a conflict -/

section

variable [IsStrictOrderedRing K] {x : List K} {name : SystemName}

/-- A row with a finite right-hand side that no point satisfies has a term greater than zero. -/
theorem LinearSystem.HasConflict.exists_deviation {s : LinearSystem (Extended K)}
    (h : s.HasConflict name IsFinite) (hs : s.Fits x.length) (hnonempty : [] ∉ s.rows) :
    ∃ t ∈ s.deviations name (x.map finite), finite 0 < t := by
  obtain ⟨row, _, hpair, hrow, hnever, c, rfl⟩ := h
  have hmem : row ∈ s.rows := (List.of_mem_zip hpair).1
  have hne : row ≠ [] := fun hempty => hnonempty (hempty ▸ hmem)
  have hentries : s.hasRows = true := List.any_eq_true.2 ⟨row, hmem, by simpa using hne⟩
  refine ⟨name.deviation (dot row (x.map finite)) (finite c), ?_, ?_⟩
  · rw [LinearSystem.deviations, if_pos hentries]
    exact mem_zipWith_iff.2 ⟨_, hpair, rfl⟩
  · have hpoint : ∀ b ∈ x.map finite, IsFinite b := by simp
    obtain ⟨a, ha⟩ := isFinite_dot hrow hpoint
    have hnot := hnever x (hs.length_row row hmem).symm
    rw [ha] at hnot ⊢
    by_contra hle
    rw [not_lt_deviation_row] at hle
    apply hnot
    have habove := atMostWithin_zero (a := a) (b := finite c) (.inl ⟨c, rfl⟩)
    have hbelow := atLeastWithin_zero (a := a) (b := finite c) (.inl ⟨c, rfl⟩)
    cases name with
    | inequalities => exact habove.1 hle
    | equalities => exact ⟨habove.1 hle.1, hbelow.1 hle.2⟩

/-- A point is not between finite bounds that exclude each other, so it has a term greater than zero. -/
theorem Bounds.HasConflict.exists_deviation {b : Bounds (Extended K)} (h : b.HasConflict IsFinite)
    (hl : b.lower.length = x.length) (hu : b.upper.length = x.length) :
    ∃ t ∈ b.deviations (x.map finite), finite 0 < t := by
  obtain ⟨_, _, hpair, hlt, ⟨l, rfl⟩, u, rfl⟩ := h
  obtain ⟨m, hm, hentry⟩ := List.getElem_of_mem hpair
  rw [List.length_zip] at hm
  rw [List.getElem_zip, Prod.mk.injEq] at hentry
  by_contra hnone
  push Not at hnone
  obtain ⟨hlower, hupper⟩ := (Bounds.forall_deviations_iff hl hu).1 hnone
  have hmx : m < (x.map (finite : K → Extended K)).length := by
    rw [List.length_map]
    omega
  have hat := (List.forall₂_iff_get.1 hlower).2 m (by omega) hmx
  have hat' := (List.forall₂_iff_get.1 hupper).2 m hmx (by omega)
  simp only [List.get_eq_getElem, hentry.1, hentry.2, List.getElem_map] at hat hat'
  rw [atLeastWithin_zero (.inl ⟨l, rfl⟩)] at hat
  rw [atMostWithin_zero (.inl ⟨u, rfl⟩)] at hat'
  exact (lt_iff.1 hlt).2 (Extended.le_trans hat hat')

/-- What a violation `v` tells about the constraints of a problem at a point where the nonlinear ones have
the values `us` and `vs`. -/
structure Problem.ViolationTells (p : Problem (Extended K)) (x : List K) (us vs : List (Extended K))
    (v : Extended K) : Prop where
  nonneg : finite 0 ≤ v
  pos_of_conflict : p.HasConflict IsFinite → finite 0 < v
  pos_iff : p.HasFiniteRows → (finite 0 < v ↔ ¬(p.AdmitsWithin 0 (x.map finite) ∧
    (∀ u ∈ us, ¬finite 0 < u) ∧ ∀ w ∈ vs, ¬finite 0 < Scalar.abs w))

theorem Problem.violationTells_worst {p : Problem (Extended K)} {us vs : List (Extended K)}
    (hp : p.Fits x.length) (hnonempty : ∀ name, [] ∉ (p.system name).rows) :
    p.ViolationTells x us vs (worst (p.deviations (x.map finite) us vs)) := by
  constructor
  case nonneg => exact (worst_spec _).1
  case pos_of_conflict =>
    intro hconflict
    rw [worst_pos_iff]
    -- the term of the conflict is among those of the problem
    rcases hconflict with ⟨name, hsystem⟩ | hbounds
    · obtain ⟨t, ht, hpos⟩ := hsystem.exists_deviation (hp.system name) (hnonempty name)
      refine ⟨t, ?_, hpos⟩
      cases name <;> simp only [Problem.system] at ht <;> simp [Problem.deviations, ht]
    · obtain ⟨t, ht, hpos⟩ := hbounds.exists_deviation hp.length_lower hp.length_upper
      exact ⟨t, by simp [Problem.deviations, ht], hpos⟩
  case pos_iff =>
    intro hrows
    rw [worst_pos_iff, ← forall_deviations_iff hp hrows]
    push Not
    rfl

end

/-! ## Preparations -/

section

variable [Interchange (Extended K)]

theorem LinearSystem.Fits.nil_notMem {α : Type} {s : LinearSystem α} {n : Nat} (hs : s.Fits n)
    (hn : 0 < n) : [] ∉ s.rows := by
  intro hnil
  have hlen := hs.length_row [] hnil
  rw [List.length_nil] at hlen
  omega

namespace Course

variable {search : NearestSearch (Extended K)} {invoker : Invoker} {i : Input (Extended K)}
  {e : Option Category} {j k : Journal (Extended K)} {r : Record (Extended K)}
  (c : Course search invoker i e j r k)

include c

theorem problem_eq_of_allFixed (hfixed : r.facts.allFixed = true) :
    r.problem = (c.given.guarded invoker.name).withoutTrivialRows := by
  rw [← c.checked_of.problem_eq]
  apply c.problem_eq_checked
  rw [Facts.isDegenerate, ← c.facts_eq, hfixed, Bool.true_or]

/-- Where every variable is fixed, their values are a point of numbers. -/
theorem exists_fixedPoint [IsStrictOrderedRing K] (hfixed : r.facts.allFixed = true) :
    ∃ x : List K, x.length = c.given.dimension ∧ r.facts.fixedValues = x.map finite := by
  obtain ⟨hmask, -, hmiddles⟩ := Facts.ofConstraints_eq_ok c.checked_of.facts_eq
  have hlen : c.given.bounds.fixed.length = c.given.dimension := hmask ▸ c.length_fixed
  rw [Bounds.middles_eq c.given_fits.length_lower c.given_fits.length_upper hlen, Except.ok.injEq,
    ← c.facts_eq] at hmiddles
  obtain ⟨x, hx⟩ := exists_map_finite (Bounds.isFinite_fixedValues c.given.bounds)
  refine ⟨x, ?_, hmiddles.symm.trans hx⟩
  have hall : c.given.bounds.fixed.all id = true := by
    rw [← hmask, ← c.facts_eq]
    exact hfixed
  have hvalues := (Bounds.elimination_fits c.given_fits.length_lower c.given_fits.length_upper hlen).2
  rw [hx, List.length_map, Elimination.fixed, Bounds.elimination, Mask.others_others,
    Mask.count_of_all hall, hlen] at hvalues
  exact hvalues

/-- Where every variable is fixed, the violation is reported at the only point that is left. -/
theorem exists_fixedViolation (hfixed : r.facts.allFixed = true) :
    ∃ v, r.fixedViolation = some v ∧ r.problem.violationAt r.facts.fixedValues = .ok v := by
  have h := c.checked_of.violation_eq
  rw [← c.facts_eq, if_pos hfixed, ← c.fixedViolation_eq, c.checked_of.problem_eq,
    ← c.problem_eq_of_allFixed hfixed] at h
  obtain ⟨v, hv, hsome⟩ := map_eq_ok.1 h
  exact ⟨v, hsome.symm, hv⟩

end Course

/-- A problem is known to be infeasible exactly if a row of it holds at no point or bounds exclude each
other. If the right-hand sides of such a conflict are finite, the violation is greater than zero at every
point. In any case it is greater than zero exactly if a constraint with a finite right-hand side or a
nonlinear one is violated. The same holds of the violation that is reported where every variable is
fixed. -/
theorem infeasible_violation [IsStrictOrderedRing K] :
    (∀ (given : Problem (Extended K)) (f : Facts (Extended K)) (x : List K) (us vs : List (Extended K)),
      given.Fits x.length → (∀ name, [] ∉ (given.system name).rows) → given.HasDefinedRows →
      Facts.ofConstraints ⟨.ofSystem .inequalities given.inequalities,
        .ofSystem .equalities given.equalities⟩ given.bounds = .ok f →
      ConstraintsYield given.constraints (x.map finite) us vs →
      (f.infeasible = true ↔ given.withoutTrivialRows.HasConflict fun _ => True) ∧
        ∃ v, given.withoutTrivialRows.violationAt (x.map finite) = .ok v ∧
          given.withoutTrivialRows.ViolationTells x us vs v) ∧
    ∀ (search : NearestSearch (Extended K)) (invoker : Invoker) (i : Input (Extended K))
      (e : Option Category) (r : Record (Extended K)) (given : Problem (Extended K)),
      (Prep.run e (prepare search invoker i)).1 = .ok r → i.stated invoker.name = .ok given →
      given.HasDefinedRows → r.facts.allFixed = true →
      (r.facts.infeasible = true ↔ r.problem.HasConflict fun _ => True) ∧
        ∃ (x : List K) (us vs : List (Extended K)) (v : Extended K), r.facts.fixedValues = x.map finite ∧
          ConstraintsYield r.problem.constraints r.facts.fixedValues us vs ∧ r.fixedViolation = some v ∧
          r.problem.violationAt r.facts.fixedValues = .ok v ∧ r.problem.ViolationTells x us vs v := by
  constructor
  · intro given f x us vs hfits hnonempty hdefined hfacts hyield
    refine ⟨(Facts.infeasible_iff hdefined hfacts).trans Problem.hasConflict_withoutTrivialRows.symm,
      _, ?_, Problem.violationTells_worst hfits.withoutTrivialRows ?_⟩
    · rw [Problem.violationAt_eq_ok (by simpa using hfits.withoutTrivialRows)]
      exact ⟨us, vs, hyield, rfl⟩
    · intro name hnil
      apply hnonempty name
      cases name <;> exact Mask.mem_of_mem_select hnil
  · intro search invoker i e r given hrun hgiven hdefined hfixed
    obtain ⟨c⟩ := exists_course (Prod.ext hrun rfl)
    obtain rfl := Except.ok.inj (hgiven.symm.trans c.stated_eq)
    have hproblem := c.problem_eq_of_allFixed hfixed
    have hfits : r.problem.Fits c.given.dimension := by
      rw [hproblem]
      exact c.given_fits.guarded.withoutTrivialRows
    constructor
    · rw [c.facts_eq, Facts.infeasible_iff hdefined c.checked_of.facts_eq, hproblem,
        Problem.hasConflict_withoutTrivialRows]
      exact Iff.rfl
    · obtain ⟨x, hx, hvalues⟩ := c.exists_fixedPoint hfixed
      obtain ⟨v, hv, hat⟩ := c.exists_fixedViolation hfixed
      have hpoint : r.problem.Fits r.facts.fixedValues.length := by
        rw [hvalues, List.length_map, hx]
        exact hfits
      obtain ⟨us, vs, hyield, hworst⟩ := (Problem.violationAt_eq_ok hpoint).1 hat
      refine ⟨x, us, vs, v, hvalues, hyield, hv, hat, ?_⟩
      rw [hworst, hvalues]
      apply Problem.violationTells_worst (hx ▸ hfits)
      exact fun name => (hfits.system name).nil_notMem c.dimension_pos

end

/-- A row `a * x ≤ b` about a variable that is fixed to zero. -/
def lonePointInput (a : Int) (b : Value (Extended ℚ)) : Input (Extended ℚ) where
  objective := zeroObjective
  start := .list [.int 0]
  inequalityRows := .list [.list [.int a]]
  inequalityRhs := .list [b]
  lower := .list [.int 0]
  upper := .list [.int 0]

/-- One variable under bounds. -/
def boundedProblem (lo hi : Extended ℚ) : Problem (Extended ℚ) where
  objective := none
  start := [finite 0]
  inequalities := .empty
  equalities := .empty
  bounds := ⟨[lo], [hi]⟩
  constraints := none

/-- No point is between one and zero; and where a variable is fixed to zero, `0 * x ≤ -1` is reported to be
violated. -/
theorem infeasible_violation_lonePointInput :
    (∃ v, (boundedProblem (finite 1) (finite 0)).withoutTrivialRows.violationAt [finite (5 : ℚ)] = .ok v ∧
      finite 0 < v) ∧
    ∃ r v, (Prep.run none (prepare NearestSearch.stay .frontEnd (lonePointInput 0 (.int (-1))))).1 = .ok r ∧
      r.facts.infeasible = true ∧ r.fixedViolation = some v ∧ finite 0 < v := by
  obtain ⟨hproblem, hrun⟩ := infeasible_violation (K := ℚ)
  constructor
  · have hfacts : ∃ f, Facts.ofConstraints ⟨.ofSystem .inequalities .empty, .ofSystem .equalities .empty⟩
        (boundedProblem (finite (1 : ℚ)) (finite 0)).bounds = .ok f :=
      Facts.exists_ofConstraints (n := 1) rfl rfl _
    obtain ⟨f, hf⟩ := hfacts
    obtain ⟨-, v, hv, htells⟩ := hproblem (boundedProblem (finite 1) (finite 0)) f [5] [] []
      ⟨rfl, rfl, rfl, ⟨rfl, by simp [boundedProblem, LinearSystem.empty]⟩,
        ⟨rfl, by simp [boundedProblem, LinearSystem.empty]⟩⟩
      (by intro name; cases name <;> simp [Problem.system, boundedProblem, LinearSystem.empty])
      (by intro name; cases name <;> simp [Problem.system, boundedProblem, LinearSystem.empty])
      hf ⟨rfl, rfl⟩
    refine ⟨v, hv, htells.pos_of_conflict (.inr ⟨finite 1, finite 0, ?_, ?_, ⟨1, rfl⟩, 0, rfl⟩)⟩
    · exact List.mem_cons_self
    · simp
  · have hrecord : (Prep.run none (prepare NearestSearch.stay .frontEnd
        (lonePointInput 0 (.int (-1))))).1.toOption.map (fun r => ((r.facts.infeasible, r.facts.allFixed),
          (r.problem.inequalities.rows, r.problem.inequalities.rhs)))
            = some ((true, true), ([[finite 0]], [finite (-1)])) := by
      decide +kernel
    have hsystems : ((lonePointInput 0 (.int (-1))).stated Invoker.frontEnd.name).toOption.map
        (fun p => ((p.inequalities.rows, p.inequalities.rhs), (p.equalities.rows, p.equalities.rhs)))
          = some (([[finite 0]], [finite (-1)]), ([], [])) := by
      decide +kernel
    obtain ⟨r, hr, hparts⟩ := exists_of_toOption_map hrecord
    obtain ⟨given, hgiven, hsystem⟩ := exists_of_toOption_map hsystems
    simp only [Prod.mk.injEq] at hparts hsystem
    obtain ⟨⟨hinfeasible, hfixed⟩, hrows, hrhs⟩ := hparts
    obtain ⟨⟨hrows', hrhs'⟩, hrows'', hrhs''⟩ := hsystem
    have hdefined : given.HasDefinedRows := by
      intro name
      cases name
      · simp [Problem.system, hrows', hrhs']
      · simp [Problem.system, hrows'', hrhs'']
    obtain ⟨-, _, _, _, v, -, -, hv, -, htells⟩ :=
      hrun NearestSearch.stay .frontEnd _ none r given hr hgiven hdefined hfixed
    have hzero : IsZeroRow ([0].map (finite : ℚ → Extended ℚ)) := by simp [IsZeroRow]
    have hnever : SystemName.NeverHolds .inequalities [finite 0] (finite (-1 : ℚ)) :=
      (neverHolds_of_isZeroRow hzero).2 (by simp [SystemName.Relates])
    refine ⟨r, v, hr, hinfeasible, hv, htells.pos_of_conflict (.inl ⟨.inequalities, ?_⟩)⟩
    refine ⟨[finite 0], finite (-1), ?_, by simp, hnever, isFinite_finite _⟩
    rw [Problem.system, hrows, hrhs]
    exact List.mem_cons_self

/-- A row `x ≤ -∞` makes a problem infeasible, but the only point that is left is reported to violate
nothing; and bounds that exclude each other are no violation where the lower one is infinite. -/
theorem exists_conflict_without_violation :
    (∃ r, (Prep.run none (prepare NearestSearch.stay .frontEnd (lonePointInput 1 (.real .bottom)))).1 = .ok r ∧
      r.facts.infeasible = true ∧ r.facts.allFixed = true ∧ r.fixedViolation = some (finite 0)) ∧
    (boundedProblem top (finite 0)).bounds.infeasible = [true] ∧
      (boundedProblem top (finite 0)).violationAt [finite (-1)] = .ok (finite 0) := by
  constructor
  · have hrun : (Prep.run none (prepare NearestSearch.stay .frontEnd
        (lonePointInput 1 (.real .bottom)))).1.toOption.map
          (fun r => (r.facts.infeasible, r.facts.allFixed, r.fixedViolation))
            = some (true, true, some (finite 0)) := by
      decide +kernel
    obtain ⟨r, hr, hrecord⟩ := exists_of_toOption_map hrun
    simp only [Prod.mk.injEq] at hrecord
    exact ⟨r, hr, hrecord⟩
  · exact ⟨by decide, eq_ok_of_toOption (by decide +kernel)⟩

end Presolve
