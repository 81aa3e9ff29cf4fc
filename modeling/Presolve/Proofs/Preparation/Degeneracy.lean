import Presolve.Proofs.Constraint.Degenerate
import Presolve.Proofs.Preparation.Exact
import Presolve.Proofs.Record.Coherence

/-!
# Degenerate rows of a canonical problem

Rows are analysed once, as they were stated. Elimination then takes coefficients away from them, and
nothing looks at them again. So a canonical row may be degenerate, but only in one way: its coefficients
other than zero were all those of fixed variables.

The invariant from stage to stage is `IsRegularRow`. A rescaling keeps it as long as its shifts are
finite.
-/

namespace Presolve

open Scalar Extended

variable {K : Type} [Field K] [LinearOrder K] [FloorRing K]

/-! ## Systems by name -/

section

variable {α : Type} (p : Problem α) (name : SystemName)

/-- One of the two systems of a problem. -/
def Problem.system : SystemName → LinearSystem α
  | .inequalities => p.inequalities
  | .equalities => p.equalities

theorem Problem.Fits.system {p : Problem α} {n : Nat} (h : p.Fits n) (name : SystemName) :
    (p.system name).Fits n := by
  cases name
  · exact h.inequalities
  · exact h.equalities

theorem Problem.HasFiniteRows.system {K : Type} {p : Problem (Extended K)} (h : p.HasFiniteRows)
    (name : SystemName) : (p.system name).HasFiniteRows := by
  cases name
  · exact h.1
  · exact h.2

theorem Problem.system_start (start : List α) :
    ({ p with start } : Problem α).system name = p.system name := by
  cases name <;> rfl

variable [Scalar α]

theorem Problem.system_reducedBy (e : Elimination α) :
    (p.reducedBy e).system name = e.reducedSystem (p.system name) := by
  cases name <;> rfl

theorem Problem.system_rescaledBy (r : Rescaling α) :
    (p.rescaledBy r).system name = r.rescaledSystem (p.system name) := by
  cases name <;> rfl

end

/-! ## Regular rows -/

/-- The coefficients of a row and its right-hand side are finite, and unless coefficients were taken away
some coefficient is not zero. -/
structure IsRegularRow (eliminated : Bool) (row : List (Extended K)) (b : Extended K) : Prop where
  coefficients : ∀ a ∈ row, IsFinite a
  rhs : IsFinite b
  nonzero : eliminated = false → ¬IsZeroRow row

/-- All rows of a system are regular. -/
def LinearSystem.IsRegular (eliminated : Bool) (s : LinearSystem (Extended K)) : Prop :=
  List.Forall₂ (IsRegularRow eliminated) s.rows s.rhs

omit [Field K] [LinearOrder K] [FloorRing K] in
/-- What holds of every row of a system passes to one whose rows were changed and whose right-hand
sides were moved, if it does row by row. -/
theorem LinearSystem.forall₂_moved {α : Type} [Scalar α] {P Q : List α → α → Prop}
    {f : List α → List α} {g : List α → α} {rows : List (List α)} {rhs : List α}
    (h : List.Forall₂ P rows rhs) (hstep : ∀ row ∈ rows, ∀ b, P row b → Q (f row) (b - g row)) :
    List.Forall₂ Q (rows.map f) (List.zipWith (· - ·) rhs (rows.map g)) := by
  induction h with
  | nil => exact .nil
  | cons hrow _ ih =>
    have hfirst := hstep _ List.mem_cons_self _ hrow
    have hrest := ih fun row hrow b => hstep row (List.mem_cons_of_mem _ hrow) b
    exact .cons hfirst hrest

/-! ## Elimination -/

/-- The values of fixed variables are numbers. -/
theorem Bounds.isFinite_fixedValues (b : Bounds (Extended K)) [IsStrictOrderedRing K] :
    ∀ a ∈ (b.elimination b.fixed).fixedValues, IsFinite a := by
  intro a ha
  obtain ⟨p, hp, rfl⟩ := mem_zipWith_iff.1 ha
  have hfixes := List.forall₂_zip (Mask.forall₂_select_zipWith fixes b.lower b.upper) hp
  obtain ⟨l, u, hl, hu, -⟩ := fixes_eq_true.1 hfixes
  rw [hl, hu, middle_finite]
  exact isFinite_finite _

/-- A row stays regular where coefficients are taken away with their values. -/
theorem LinearSystem.IsRegular.reducedSystem {e : Elimination (Extended K)}
    (hvalues : ∀ a ∈ e.fixedValues, IsFinite a) {eliminated : Bool} {s : LinearSystem (Extended K)}
    (h : s.IsRegular eliminated) : (e.reducedSystem s).IsRegular true := by
  apply LinearSystem.forall₂_moved h
  intro row _ b hrow
  have hselect : ∀ (m : List Bool), ∀ a ∈ Mask.select m row, IsFinite a :=
    fun m a ha => hrow.coefficients a (Mask.mem_of_mem_select ha)
  exact {
    coefficients := hselect e.free
    rhs := isFinite_sub hrow.rhs (isFinite_dot (hselect e.fixed) hvalues)
    nonzero := fun h => Bool.noConfusion h }

/-! ## Rescaling -/

/-- The factor of a variable is a number if its shift is. -/
theorem Rescaling.isFinite_factorAt_of_shiftAt [IsStrictOrderedRing K] {lo hi x : Extended K}
    (h : IsFinite (shiftAt lo hi x)) : IsFinite (factorAt lo hi) := by
  unfold factorAt
  unfold shiftAt at h
  split
  · next hboxed =>
    rw [if_pos hboxed] at h
    -- the point half-way between bounds is a number only if both of them are
    rw [Bounds.middle, two_eq] at h
    obtain ⟨⟨l, rfl⟩, ⟨u, rfl⟩⟩ := isFinite_of_add (isFinite_of_div two_pos h)
    rw [halfWidth, finite_sub, two_eq, finite_div _ two_ne_zero]
    exact isFinite_finite _
  · rw [one_eq]
    exact isFinite_finite _

/-- A fitted rescaling is proper if its shifts are finite and no factor is too small. -/
theorem Rescaling.fitted_isProper [IsStrictOrderedRing K] {start : List (Extended K)}
    {b : Bounds (Extended K)} {n : Nat} (hs : start.length = n) (hl : b.lower.length = n)
    (hu : b.upper.length = n) (hshift : ∀ a ∈ (fitted start b).shift, IsFinite a)
    (hleast : ∀ least, minimum? (fitted start b).factor = some least → ¬least < epsilon) :
    (fitted start b).IsProper := by
  refine ⟨isPositive_of_minimum ?_ hleast, hshift⟩
  intro a ha
  -- the shift of the same variable
  obtain ⟨m, hm, rfl⟩ := List.getElem_of_mem ha
  have hmn : m < n := by simpa [fitted, hl, hu] using hm
  have hlen : m < (fitted start b).shift.length := by simpa [fitted, hs, hl, hu] using hmn
  have hat := hshift _ (List.getElem_mem hlen)
  simp only [fitted, List.getElem_zipWith, List.getElem_zip] at hat ⊢
  exact isFinite_factorAt_of_shiftAt hat

/-- Stretching by positive factors takes no coefficient to zero. -/
theorem isZeroRow_stretched {row factor : List (Extended K)} (hlen : row.length = factor.length)
    (hrow : ∀ a ∈ row, IsFinite a) (hfactor : ∀ f ∈ factor, IsPositive f) :
    IsZeroRow (List.zipWith (· * ·) row factor) ↔ IsZeroRow row := by
  constructor
  · intro hzero a ha
    obtain ⟨m, hm, rfl⟩ := List.getElem_of_mem ha
    have hmf : m < factor.length := hlen ▸ hm
    obtain ⟨x, hx⟩ := hrow _ (List.getElem_mem hm)
    obtain ⟨f, hpos, hf⟩ := hfactor _ (List.getElem_mem hmf)
    have hproduct : row[m] * factor[m] = finite 0 := by
      apply hzero
      rw [List.mem_iff_getElem]
      exact ⟨m, by simp [hm, hmf], List.getElem_zipWith⟩
    rw [hx, hf, finite_mul] at hproduct
    rw [hx]
    simpa [hpos.ne'] using hproduct
  · intro hzero a ha
    obtain ⟨x, hx, f, hf, rfl⟩ := exists_of_mem_zipWith ha
    obtain ⟨f, -, rfl⟩ := hfactor f hf
    rw [hzero x hx, finite_mul, zero_mul]

/-- A row stays regular where its variables are rescaled by positive factors and finite shifts. -/
theorem LinearSystem.IsRegular.rescaledSystem [IsStrictOrderedRing K] {r : Rescaling (Extended K)}
    {n : Nat} (hr : r.Fits n) (hproper : r.IsProper) {eliminated : Bool} {s : LinearSystem (Extended K)}
    (hs : s.Fits n) (h : s.IsRegular eliminated) : (r.rescaledSystem s).IsRegular eliminated := by
  apply LinearSystem.forall₂_moved h
  intro row hmem b hrow
  have hlen : row.length = r.factor.length := (hs.length_row row hmem).trans hr.1.symm
  constructor
  · intro a ha
    obtain ⟨x, hx, f, hf, rfl⟩ := exists_of_mem_zipWith ha
    obtain ⟨x, rfl⟩ := hrow.coefficients x hx
    obtain ⟨f, -, rfl⟩ := hproper.factor f hf
    exact isFinite_finite _
  · exact isFinite_sub hrow.rhs (isFinite_dot hrow.coefficients hproper.shift)
  · intro hkept
    rw [isZeroRow_stretched hlen hrow.coefficients hproper.factor]
    exact hrow.nonzero hkept

/-! ## Analysed systems -/

/-- A row that an analysis keeps: some point violates it, and where no row was flagged as infeasible, some
point satisfies it. -/
structure IsKeptRow (name : SystemName) (infeasible : Bool) (row : List (Extended K)) (b : Extended K) :
    Prop where
  coefficients : ∀ a ∈ row, IsFinite a
  defined : b ≠ Extended.undefined
  violated : ¬name.AlwaysHolds row b
  satisfied : infeasible = false → ¬name.NeverHolds row b

theorem IsKeptRow.isRegularRow [IsStrictOrderedRing K] {name : SystemName} {row : List (Extended K)}
    {b : Extended K} (h : IsKeptRow name false row b) : IsRegularRow false row b := by
  obtain ⟨row, rfl⟩ := exists_map_finite h.coefficients
  obtain ⟨hzero, hfinite⟩ := regular_of_not_holds h.defined h.violated (h.satisfied rfl)
  exact ⟨h.coefficients, hfinite, fun _ => hzero⟩

/-- The rows of a checked system are kept ones. -/
theorem CheckedSystem.forall₂_isKeptRow [IsStrictOrderedRing K] {name : SystemName}
    {s : LinearSystem (Extended K)} (hlen : s.rhs.length = s.rows.length) (hrows : s.HasFiniteRows)
    (hrhs : ∀ b ∈ s.rhs, b ≠ Extended.undefined) :
    List.Forall₂ (IsKeptRow name ((ofSystem name s).infeasible.any id)) (ofSystem name s).system.rows
      (ofSystem name s).system.rhs := by
  have hgiven : List.Forall₂ (fun row b => (∀ a ∈ row, IsFinite a) ∧ b ≠ Extended.undefined ∧
      ((ofSystem name s).infeasible.any id = false → name.isInfeasible row b = false))
      s.rows s.rhs := by
    rw [List.forall₂_iff_zip]
    refine ⟨hlen.symm, ?_⟩
    intro row b hpair
    refine ⟨hrows row (List.of_mem_zip hpair).1, hrhs b (List.of_mem_zip hpair).2, ?_⟩
    intro hnone
    have hflag := List.any_eq_false.1 hnone _ (mem_zipWith_iff.2 ⟨_, hpair, rfl⟩)
    simpa using hflag
  -- the rows that are kept are those that pass the opposite test
  have hothers : Mask.others (List.zipWith name.isTrivial s.rows s.rhs)
      = List.zipWith (fun row b => !name.isTrivial row b) s.rows s.rhs := List.map_zipWith
  have hkept := Mask.forall₂_select_zipWith (fun row b => !name.isTrivial row b) s.rows s.rhs
  rw [← hothers] at hkept
  refine List.Forall₂.mp ?_ hkept (Mask.forall₂_select _ hgiven)
  rintro row b hnontrivial ⟨hrow, hb, hfeasible⟩
  obtain ⟨row, rfl⟩ := exists_map_finite hrow
  refine ⟨hrow, hb, ?_, ?_⟩
  · rw [← isTrivial_iff]
    simpa using hnontrivial
  · intro hnone
    rw [← isInfeasible_iff hb, hfeasible hnone]
    exact Bool.false_ne_true

/-! ## Preparations -/

/-- No row of the problem that a preparation ends with is satisfied by every point, and none by no point
unless the problem is known to be infeasible. -/
def Record.IsAnalysed (r : Record (Extended K)) : Prop :=
  ∀ name, List.Forall₂ (fun row b => ¬SystemName.AlwaysHolds name row b ∧
    (r.facts.infeasible = false → ¬SystemName.NeverHolds name row b))
    (r.problem.system name).rows (r.problem.system name).rhs

namespace Course

variable [Interchange (Extended K)] {search : NearestSearch (Extended K)} {invoker : Invoker}
  {i : Input (Extended K)} {e : Option Category} {j k : Journal (Extended K)}
  {r : Record (Extended K)} (c : Course search invoker i e j r k)

include c

theorem checked_system (name : SystemName) :
    c.checked.problem.system name = (CheckedSystem.ofSystem name (c.given.system name)).system := by
  rw [c.checked_of.problem_eq]
  cases name <;> rfl

theorem settled_system (name : SystemName) : c.settled.system name = c.reduced.system name := by
  obtain ⟨start, h⟩ := c.settled_eq
  rw [h]
  exact Problem.system_start c.reduced name start

/-- A problem with a flagged row is known to be infeasible. -/
theorem infeasible_of_flag (name : SystemName) :
    (CheckedSystem.ofSystem name (c.given.system name)).infeasible.any id = true →
      r.facts.infeasible = true := by
  obtain ⟨hineq, -, heq, -⟩ := Facts.ofConstraints_rows c.checked_of.facts_eq
  rw [c.facts_eq, Facts.infeasible, hineq, heq, Bool.or_eq_true, Bool.or_eq_true]
  intro hflag
  cases name
  · exact .inl (.inl hflag)
  · exact .inl (.inr hflag)

variable [IsStrictOrderedRing K]

/-- A rescaling by finite shifts is by positive factors. -/
theorem rescaling_isProper_of_shift (hsearch : search.KeepsDimension) {s : Rescaling (Extended K)}
    (hs : r.rescaling = some s) (hshift : ∀ a ∈ s.shift, IsFinite a) : s.IsProper := by
  have h := c.problem_eq (c.settled_fits hsearch)
  have hfits := c.settled_fits hsearch
  split at h
  · obtain rfl := Option.some.inj (hs.symm.trans h.1)
    exact Rescaling.fitted_isProper hfits.length_start hfits.length_lower hfits.length_upper hshift
      h.2.2.1
  · rw [h.1] at hs
    cases hs

variable (hrows : c.given.HasFiniteRows)
  (hrhs : ∀ name, ∀ b ∈ (c.given.system name).rhs, b ≠ Extended.undefined)

include hrows hrhs

/-- The rows of a checked problem are kept ones. -/
theorem checked_isKept (name : SystemName) :
    List.Forall₂ (IsKeptRow name r.facts.infeasible) (c.checked.problem.system name).rows
      (c.checked.problem.system name).rhs := by
  rw [c.checked_system]
  refine (CheckedSystem.forall₂_isKeptRow (c.given_fits.system name).length_rhs (hrows.system name)
    (hrhs name)).imp ?_
  intro row b hrow
  refine ⟨hrow.coefficients, hrow.defined, hrow.violated, ?_⟩
  intro hfeasible
  apply hrow.satisfied
  rw [Bool.eq_false_iff]
  intro hflag
  rw [c.infeasible_of_flag name hflag] at hfeasible
  cases hfeasible

/-- Where a problem is not known to be infeasible, the rows of its canonical form are regular. -/
theorem problem_isRegular (hsearch : search.KeepsDimension)
    (hshift : ∀ s, r.rescaling = some s → ∀ a ∈ s.shift, IsFinite a)
    (hfeasible : r.facts.infeasible = false) (name : SystemName) :
    (r.problem.system name).IsRegular r.isReduced := by
  have hchecked : (c.checked.problem.system name).IsRegular false := by
    have hkept := c.checked_isKept hrows hrhs name
    rw [hfeasible] at hkept
    exact hkept.imp fun _ _ => IsKeptRow.isRegularRow
  have hreduced : (c.reduced.system name).IsRegular r.isReduced := by
    have h := c.reduced_eq
    rw [Record.isReduced]
    split at h
    · have hfixed : c.checked.facts.fixed = c.checked.problem.bounds.fixed := by
        rw [(Facts.ofConstraints_eq_ok c.checked_of.facts_eq).1, c.checked_of.bounds_eq]
      rw [h.1, h.2, Problem.system_reducedBy, hfixed]
      exact hchecked.reducedSystem (Bounds.isFinite_fixedValues _)
    · rw [h.1, h.2]
      exact hchecked
  have hsettled : (c.settled.system name).IsRegular r.isReduced := by
    rw [c.settled_system]
    exact hreduced
  have h := c.problem_eq (c.settled_fits hsearch)
  split at h
  · have hproper := c.rescaling_isProper_of_shift hsearch h.1 (hshift _ h.1)
    rw [h.2.1, Problem.system_rescaledBy]
    exact hsettled.rescaledSystem (c.rescaling_fits (c.settled_fits hsearch)) hproper
      ((c.settled_fits hsearch).system name)
  · rw [h.2.1]
    exact hsettled

omit hrhs in
/-- After an elimination, a row has a coefficient other than zero exactly if it was stated with one of a
variable that is left. -/
theorem isZeroRow_problem (hsearch : search.KeepsDimension)
    (hshift : ∀ s, r.rescaling = some s → ∀ a ∈ s.shift, IsFinite a) (hreduced : r.isReduced = true)
    (name : SystemName) :
    List.Forall₂ (fun row stated => IsZeroRow row ↔
        IsZeroRow (Mask.select (Mask.others r.facts.fixed) stated))
      (r.problem.system name).rows (CheckedSystem.ofSystem name (c.given.system name)).system.rows := by
  have hfinite : (c.settled.system name).HasFiniteRows := by
    rw [c.settled_system]
    exact (c.reduced_hasFiniteRows hrows).system name
  -- a rescaling takes no coefficient to zero
  have hcanonical : List.Forall₂ (fun row settled => IsZeroRow row ↔ IsZeroRow settled)
      (r.problem.system name).rows (c.settled.system name).rows := by
    have h := c.problem_eq (c.settled_fits hsearch)
    split at h
    · have hproper := c.rescaling_isProper_of_shift hsearch h.1 (hshift _ h.1)
      rw [h.2.1, Problem.system_rescaledBy, Rescaling.rescaledSystem, List.forall₂_map_left_iff,
        List.forall₂_same]
      intro row hrow
      have hlen := ((c.settled_fits hsearch).system name).length_row row hrow
      have hfactor := (c.rescaling_fits (c.settled_fits hsearch)).1
      exact isZeroRow_stretched (hlen.trans hfactor.symm) (hfinite row hrow)
        hproper.factor
    · rw [h.2.1, List.forall₂_same]
      exact fun row _ => Iff.rfl
  have hreduce := c.reduced_eq
  rw [if_pos (c.isReduced_iff.1 hreduced)] at hreduce
  rw [c.settled_system, hreduce.2, Problem.system_reducedBy, Elimination.reducedSystem,
    List.forall₂_map_right_iff] at hcanonical
  rw [← c.checked_system, c.facts_eq]
  exact hcanonical

end Course

variable [Interchange (Extended K)] {search : NearestSearch (Extended K)} {invoker : Invoker}
  {i : Input (Extended K)} {e : Option Category} {r : Record (Extended K)} {given : Problem (Extended K)}

/-- Unless variables were eliminated, no row of the problem that a preparation ends with is satisfied by
every point, and none by no point if the problem is not known to be infeasible. If variables were
eliminated, a row is satisfied by every point or by none exactly if it has no coefficient other than zero;
that is, if the row that was stated had none for a variable that is left. -/
theorem prepare_degenerate_rows [IsStrictOrderedRing K] (hsearch : search.KeepsDimension)
    (h : (Prep.run e (prepare search invoker i)).1 = .ok r)
    (hgiven : i.stated invoker.name = .ok given) (hrows : given.HasFiniteRows)
    (hrhs : ∀ name, ∀ b ∈ (given.system name).rhs, b ≠ Extended.undefined)
    (hshift : ∀ s, r.rescaling = some s → ∀ a ∈ s.shift, IsFinite a) :
    (r.isReduced = false → r.IsAnalysed) ∧
    (r.isReduced = true → r.facts.infeasible = false ∧ ∀ name,
      List.Forall₂ (fun row b => SystemName.AlwaysHolds name row b ∨ SystemName.NeverHolds name row b ↔
        IsZeroRow row) (r.problem.system name).rows (r.problem.system name).rhs ∧
      List.Forall₂ (fun row stated => IsZeroRow row ↔
        IsZeroRow (Mask.select (Mask.others r.facts.fixed) stated)) (r.problem.system name).rows
          (CheckedSystem.ofSystem name (given.system name)).system.rows) := by
  obtain ⟨c⟩ := exists_course (Prod.ext h rfl)
  obtain rfl := Except.ok.inj (hgiven.symm.trans c.stated_eq)
  -- where no row was flagged, the rows of the canonical problem are regular
  have hregular (hfeasible : r.facts.infeasible = false) (name : SystemName) :=
    c.problem_isRegular hrows hrhs hsearch hshift hfeasible name
  have hdegenerate {row : List (Extended K)} {b : Extended K} (name : SystemName)
      (hrow : IsRegularRow r.isReduced row b) :
      name.AlwaysHolds row b ∨ name.NeverHolds row b ↔ IsZeroRow row := by
    obtain ⟨row, rfl⟩ := exists_map_finite hrow.coefficients
    exact holds_iff_isZeroRow hrow.rhs
  constructor
  · intro hkept name
    cases hinfeasible : r.facts.infeasible with
    | false =>
      refine (hregular hinfeasible name).imp ?_
      intro row b hrow
      have hnot := (not_congr (hdegenerate name hrow)).2 (hrow.nonzero hkept)
      exact ⟨fun halways => hnot (.inl halways), fun _ hnever => hnot (.inr hnever)⟩
    | true =>
      -- nothing was done with the rows that were kept
      have hproblem := c.problem_eq_checked (by
        rw [Facts.isDegenerate, ← c.facts_eq, hinfeasible, Bool.or_true])
      rw [hproblem]
      refine (c.checked_isKept hrows hrhs name).imp ?_
      intro row b hrow
      exact ⟨hrow.violated, fun hfeasible => Bool.noConfusion hfeasible⟩
  · intro hreduced
    have hfeasible : r.facts.infeasible = false := by
      rw [c.facts_eq]
      exact (Facts.eliminates_iff.1 (c.isReduced_iff.1 hreduced)).2.2
    refine ⟨hfeasible, fun name => ⟨?_, c.isZeroRow_problem hrows hsearch hshift hreduced name⟩⟩
    exact (hregular hfeasible name).imp fun row b hrow => hdegenerate name hrow

/-- Four variables, the first two of them fixed, under rows about the fixed ones alone, about all of them
and about the free ones. -/
def pinnedPairInput : Input (Extended ℚ) where
  objective := zeroObjective
  start := .list [.int 0, .int 0, .int 0, .int 0]
  inequalityRows := .list [.list [.int 1, .int 2, .int 0, .int 0],
    .list [.int 1, .int 1, .int 1, .int 1]]
  inequalityRhs := .list [.int 4, .int 9]
  equalityRows := .list [.list [.int 0, .int 0, .int 1, .int (-1)]]
  equalityRhs := .list [.int 0]
  lower := .list [.int 1, .int 1, .int (-1), .int (-2)]
  upper := .list [.int 1, .int 1, .int 1, .int 2]
  options := .mapping [(.text "scale", .bool true)]

/-- A row about fixed variables alone is degenerate after they were eliminated, and no other row is. -/
theorem prepare_degenerate_rows_pinnedPairInput : ∃ r given,
    (Prep.run none (prepare NearestSearch.stay .frontEnd pinnedPairInput)).1 = .ok r ∧
      pinnedPairInput.stated Invoker.frontEnd.name = .ok given ∧ r.isReduced = true ∧
      (r.problem.inequalities.rows, r.problem.inequalities.rhs)
        = ([[finite 0, finite 0], [finite 1, finite 2]], [finite 1, finite 7]) ∧
      (SystemName.AlwaysHolds .inequalities [finite 0, finite 0] (finite (1 : ℚ)) ∨
        SystemName.NeverHolds .inequalities [finite 0, finite 0] (finite (1 : ℚ))) ∧
      ¬SystemName.AlwaysHolds .inequalities [finite 1, finite 2] (finite (7 : ℚ)) := by
  have hrun : (Prep.run none (prepare NearestSearch.stay .frontEnd pinnedPairInput)).1.toOption.map
      (fun r => (r.isReduced, (r.problem.inequalities.rows, r.problem.inequalities.rhs)))
        = some (true, ([[finite 0, finite 0], [finite 1, finite 2]], [finite 1, finite 7])) := by
    decide +kernel
  have hshifts : (Prep.run none (prepare NearestSearch.stay .frontEnd pinnedPairInput)).1.toOption.map
      (fun r => r.rescaling.map Rescaling.shift) = some (some [finite 0, finite 0]) := by decide +kernel
  have hsystems : (pinnedPairInput.stated Invoker.frontEnd.name).toOption.map
      (fun p => ((p.inequalities.rows, p.inequalities.rhs), (p.equalities.rows, p.equalities.rhs)))
        = some (([[finite 1, finite 2, finite 0, finite 0], [finite 1, finite 1, finite 1, finite 1]],
          [finite 4, finite 9]), ([[finite 0, finite 0, finite 1, finite (-1)]], [finite 0])) := by
    decide +kernel
  obtain ⟨r, hr, hrecord⟩ := exists_of_toOption_map hrun
  obtain ⟨given, hgiven, hparts⟩ := exists_of_toOption_map hsystems
  rw [hr] at hshifts
  simp only [Prod.mk.injEq] at hrecord hparts
  obtain ⟨⟨hrows, hrhs⟩, hrows', hrhs'⟩ := hparts
  have hfinite : given.HasFiniteRows := by
    constructor
    · simp [LinearSystem.HasFiniteRows, hrows]
    · simp [LinearSystem.HasFiniteRows, hrows']
  have hdefined : ∀ name, ∀ b ∈ (given.system name).rhs, b ≠ Extended.undefined := by
    intro name
    cases name
    · simp [Problem.system, hrhs]
    · simp [Problem.system, hrhs']
  have hshift : ∀ s, r.rescaling = some s → ∀ a ∈ s.shift, IsFinite a := by
    intro s hs
    have h : r.rescaling.map Rescaling.shift = some [finite 0, finite 0] := Option.some.inj hshifts
    rw [hs] at h
    rw [show s.shift = [finite 0, finite 0] from Option.some.inj h]
    simp
  obtain ⟨-, hreduced⟩ := prepare_degenerate_rows NearestSearch.stay_keepsDimension hr hgiven hfinite
    hdefined hshift
  obtain ⟨hdegenerate, -⟩ := (hreduced hrecord.1).2 .inequalities
  rw [Problem.system, hrecord.2.1, hrecord.2.2, List.forall₂_cons, List.forall₂_cons] at hdegenerate
  obtain ⟨hzero, hother, -⟩ := hdegenerate
  refine ⟨r, given, hr, hgiven, hrecord.1, Prod.ext hrecord.2.1 hrecord.2.2, hzero.2 ?_, ?_⟩
  · simp [IsZeroRow]
  · intro halways
    have h := hother.1 (.inl halways)
    simp [IsZeroRow] at h

/-! ## Degenerate rows that are left -/

/-- The rows and right-hand sides of the input are finite, no row of it is flagged as infeasible, and the
only inequality of the problem that a solver gets is this degenerate one. -/
def Input.LeavesDegenerateRow (i : Input (Extended ℚ)) (row : List ℚ) (b : Extended ℚ) : Prop :=
  ∃ r given, (Prep.run none (prepare NearestSearch.stay .frontEnd i)).1 = .ok r ∧
    i.stated Invoker.frontEnd.name = .ok given ∧ given.HasFiniteRows ∧
    (∀ name, ∀ b ∈ (given.system name).rhs, IsFinite b) ∧ r.facts.infeasible = false ∧
    r.problem.inequalities.rows = [row.map finite] ∧ r.problem.inequalities.rhs = [b] ∧ ¬r.IsAnalysed

theorem Input.leavesDegenerateRow {i : Input (Extended ℚ)} {row : List ℚ} {b : Extended ℚ}
    {a : List ℚ} {c : ℚ}
    (hrun : (Prep.run none (prepare NearestSearch.stay .frontEnd i)).1.toOption.map
      (fun r => (r.facts.infeasible, r.problem.inequalities.rows, r.problem.inequalities.rhs))
        = some (false, [row.map finite], [b]))
    (hsystems : (i.stated Invoker.frontEnd.name).toOption.map
      (fun p => ((p.inequalities.rows, p.inequalities.rhs), (p.equalities.rows, p.equalities.rhs)))
        = some (([a.map finite], [finite c]), ([], [])))
    (hdegenerate : SystemName.AlwaysHolds .inequalities (row.map finite) b ∨
      SystemName.NeverHolds .inequalities (row.map finite) b) : i.LeavesDegenerateRow row b := by
  obtain ⟨r, hr, hrecord⟩ := exists_of_toOption_map hrun
  obtain ⟨given, hgiven, hparts⟩ := exists_of_toOption_map hsystems
  simp only [Prod.mk.injEq] at hrecord hparts
  obtain ⟨⟨hrows, hrhs⟩, hrows', hrhs'⟩ := hparts
  refine ⟨r, given, hr, hgiven, ⟨?_, ?_⟩, ?_, hrecord.1, hrecord.2.1, hrecord.2.2, ?_⟩
  · simp [LinearSystem.HasFiniteRows, hrows]
  · simp [LinearSystem.HasFiniteRows, hrows']
  · intro name
    cases name
    · simp [Problem.system, hrhs]
    · simp [Problem.system, hrhs']
  · intro hanalysed
    have h := hanalysed .inequalities
    rw [Problem.system, hrecord.2.1, hrecord.2.2, List.forall₂_cons] at h
    obtain ⟨⟨hnot, hnever⟩, -⟩ := h
    exact hdegenerate.elim hnot (hnever hrecord.1)

/-- A row `x₀ ≤ b` about two variables, the first of which is fixed to one. -/
def pinnedRowInput (b : Int) : Input (Extended ℚ) where
  objective := zeroObjective
  start := .list [.int 0, .int 0]
  inequalityRows := .list [.list [.int 1, .int 0]]
  inequalityRhs := .list [.int b]
  lower := .list [.int 1, .int (-1)]
  upper := .list [.int 1, .int 1]
  constraints := .function ⟨"function", none⟩ none fun x => .ok (.tuple [.absent, .ofList x])

/-- A row `a * x ≤ 1` about one variable that starts at infinity and is to be rescaled. -/
def infiniteStartInput (a : Int) : Input (Extended ℚ) where
  objective := zeroObjective
  start := .list [.real .top]
  inequalityRows := .list [.list [.int a]]
  inequalityRhs := .list [.int 1]
  constraints := .function ⟨"function", none⟩ none fun x => .ok (.tuple [.absent, .ofList x])
  options := .mapping [(.text "scale", .bool true)]

/-- A row of which nothing but zeros is left may be satisfied by every point or by none, and so may one
whose right-hand side was moved by an infinite start. -/
theorem prepare_leaves_degenerate_rows :
    (pinnedRowInput 2).LeavesDegenerateRow [0] (finite 1) ∧
      SystemName.AlwaysHolds .inequalities [finite 0] (finite (1 : ℚ)) ∧
    (pinnedRowInput 0).LeavesDegenerateRow [0] (finite (-1)) ∧
      SystemName.NeverHolds .inequalities [finite 0] (finite (-1 : ℚ)) ∧
    (infiniteStartInput (-1)).LeavesDegenerateRow [-1] top ∧
      SystemName.AlwaysHolds .inequalities [finite (-1 : ℚ)] top ∧
    (infiniteStartInput 1).LeavesDegenerateRow [1] bottom ∧
      SystemName.NeverHolds .inequalities [finite (1 : ℚ)] bottom := by
  have hzero : IsZeroRow ([0].map (finite : ℚ → Extended ℚ)) := by simp [IsZeroRow]
  have hmixed (a : ℚ) (ha : a ≠ 0) : ¬IsZeroRow ([a].map (finite : ℚ → Extended ℚ)) := by
    simpa [IsZeroRow] using ha
  have hpositive : SystemName.AlwaysHolds .inequalities [finite 0] (finite (1 : ℚ)) :=
    (alwaysHolds_of_isZeroRow hzero).2 (by simp [SystemName.Relates])
  have hnegative : SystemName.NeverHolds .inequalities [finite 0] (finite (-1 : ℚ)) :=
    (neverHolds_of_isZeroRow hzero).2 (by simp [SystemName.Relates])
  have hlimitless : SystemName.AlwaysHolds .inequalities [finite (-1 : ℚ)] top :=
    (alwaysHolds_of_not_isZeroRow (hmixed (-1) (by decide))).2 ⟨rfl, rfl⟩
  have himpossible : SystemName.NeverHolds .inequalities [finite (1 : ℚ)] bottom :=
    (neverHolds_of_not_isZeroRow (hmixed 1 (by decide)) (by simp)).2 (.inl rfl)
  refine ⟨?_, hpositive, ?_, hnegative, ?_, hlimitless, ?_, himpossible⟩
  · exact Input.leavesDegenerateRow (a := [1, 0]) (c := 2) (by decide +kernel) (by decide +kernel)
      (.inl hpositive)
  · exact Input.leavesDegenerateRow (a := [1, 0]) (c := 0) (by decide +kernel) (by decide +kernel)
      (.inr hnegative)
  · exact Input.leavesDegenerateRow (a := [-1]) (c := 1) (by decide +kernel) (by decide +kernel)
      (.inl hlimitless)
  · exact Input.leavesDegenerateRow (a := [1]) (c := 1) (by decide +kernel) (by decide +kernel)
      (.inr himpossible)

end Presolve
