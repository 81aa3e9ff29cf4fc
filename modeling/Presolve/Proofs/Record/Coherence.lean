import Presolve.Proofs.Number.Extended
import Presolve.Proofs.Record.Points
import Presolve.Proofs.Solver.Selected

/-!
# Coherent records

The flags, masks, dimensions and arrays of a record are decided at different stages, each under a condition
of its own. This file says how they fit together in every record that a preparation ends with.
-/

namespace Presolve

open Scalar

variable {α : Type} [Scalar α]

/-! ## What a caller passed -/

/-- The number of variables and the numbers of rows that an input has, as they were passed. -/
structure Input.Counts (i : Input α) (n inequalities equalities : Nat) : Prop where
  start : i.start.vectorLength? = some n
  inequalities : i.inequalityRows.matrixShape?.map Prod.fst = some inequalities
  equalities : i.equalityRows.matrixShape?.map Prod.fst = some equalities

/-! ## Systems -/

omit [Scalar α] in
/-- A canonical system in `n` variables: nothing at all, or a right-hand side for each of its rows. The rows
are those of the given ones that are not marked. -/
structure LinearSystem.IsCanonical (s : LinearSystem α) (n given : Nat) (trivial : List Bool) : Prop where
  shape : (s.shape = (0, 0) ∧ s.rhs = []) ∨ s.shape = (s.rhs.length, n)
  length_row : ∀ row ∈ s.rows, row.length = n
  length_trivial : trivial.length = given
  length_rows : s.rows.length = given - Mask.count trivial

omit [Scalar α] in
theorem LinearSystem.Fits.shape_eq {s : LinearSystem α} {n : Nat} (h : s.Fits n) :
    (s.shape = (0, 0) ∧ s.rhs = []) ∨ s.shape = (s.rhs.length, n) := by
  cases hrows : s.rows with
  | nil =>
    have hrhs : s.rhs.length = 0 := by rw [h.length_rhs, hrows, List.length_nil]
    exact .inl ⟨by rw [shape, hrows]; rfl, List.length_eq_zero_iff.1 hrhs⟩
  | cons row rows =>
    have hrow : row.length = n := h.length_row row (by rw [hrows]; exact List.mem_cons_self)
    refine .inr ?_
    rw [shape, h.length_rhs, hrows, List.headD_cons, hrow]

/-- The rows of a checked system are those that are not trivial. -/
theorem CheckedSystem.length_rows (name : SystemName) {s : LinearSystem α} {n : Nat} (h : s.Fits n) :
    (ofSystem name s).trivial.length = s.rows.length ∧
      (ofSystem name s).system.rows.length = s.rows.length - Mask.count (ofSystem name s).trivial := by
  have hlen : (List.zipWith name.isTrivial s.rows s.rhs).length = s.rows.length := by
    simp [h.length_rhs]
  refine ⟨hlen, ?_⟩
  show (Mask.select (Mask.others (List.zipWith name.isTrivial s.rows s.rhs)) s.rows).length = _
  rw [Mask.length_select (by rw [Mask.length_others, hlen]), Mask.count_others, hlen]
  rfl

/-! ## What was read -/

section

variable [Interchange α] {source : String} {n : Nat}

theorem readStart_counts {v : Value α} {xs : List α} (h : readStart source v = .ok xs) :
    v.vectorLength? = some xs.length := by
  unfold readStart at h
  split at h
  · next length hlength => rw [hlength, Value.length_toVector hlength h]
  · cases h

theorem LinearSystem.read_counts {name : SystemName} {a b : Value α} {s : LinearSystem α}
    (h : LinearSystem.read name source n a b = .ok s) :
    a.matrixShape?.map Prod.fst = some s.rows.length := by
  unfold LinearSystem.read at h
  split at h
  · next rows cols length hshape _ =>
    split at h
    · simp only [bind_eq_ok, pure_eq_ok] at h
      obtain ⟨matrix, hmatrix, rhs, -, rfl⟩ := h
      rw [hshape]
      exact congrArg some (Value.shape_toMatrix hshape hmatrix).1.symm
    · cases h
  · cases h

/-- A stated problem has as many variables and rows as were passed. -/
theorem Input.stated_counts {i : Input α} {p : Problem α} (h : i.stated source = .ok p) :
    i.Counts p.dimension p.inequalities.rows.length p.equalities.rows.length := by
  simp only [Input.stated, bind_eq_ok, pure_eq_ok] at h
  obtain ⟨f, -, start, hstart, ineq, hineq, eq, heq, bounds, -, c, -, rfl⟩ := h
  exact ⟨readStart_counts hstart, LinearSystem.read_counts hineq, LinearSystem.read_counts heq⟩

end

/-! ## Records -/

/-- The parts of a record agree with each other and with the problem `given` that was prepared. -/
structure Record.IsCoherent (source : String) (given : Problem α) (r : Record α) : Prop where
  rawDimension_eq : r.rawDimension = given.dimension
  length_fixed : r.facts.fixed.length = r.rawDimension
  length_infeasibleBounds : r.facts.infeasibleBounds.length = r.rawDimension
  isReduced_iff : r.isReduced = true ↔
    true ∈ r.facts.fixed ∧ false ∈ r.facts.fixed ∧ r.facts.infeasible = false
  isReduced_iff_elimination : r.isReduced = true ↔
    ∃ e, r.elimination = some e ∧ e.fixed = r.facts.fixed
  isScaled_iff : r.isScaled = true ↔
    r.settings.scale = true ∧ r.facts.infeasible = false ∧ r.facts.allFixed = false
  isScaled_iff_rescaling : r.isScaled = true ↔ ∃ s, r.rescaling = some s ∧
    s.factor.length = r.refinedDimension ∧ s.shift.length = r.refinedDimension
  refinedDimension_eq : r.refinedDimension =
    if r.isReduced then r.rawDimension - Mask.count r.facts.fixed else r.rawDimension
  refinedDimension_pos : 1 ≤ r.refinedDimension
  length_start : r.problem.start.length = r.refinedDimension
  length_lower : r.problem.bounds.lower.length = r.refinedDimension
  length_upper : r.problem.bounds.upper.length = r.refinedDimension
  inequalities : r.problem.inequalities.IsCanonical r.refinedDimension
    given.inequalities.rows.length r.facts.trivialInequalities
  equalities : r.problem.equalities.IsCanonical r.refinedDimension
    given.equalities.rows.length r.facts.trivialEqualities
  fixedViolation_iff : r.fixedViolation.isSome = true ↔ r.facts.allFixed = true
  unchanged : r.facts.infeasible = true ∨ r.facts.allFixed = true →
    r.problem = (given.guarded source).withoutTrivialRows

namespace Course

variable [Interchange α] {search : NearestSearch α} {invoker : Invoker} {i : Input α}
  {e : Option Category} {j k : Journal α} {r : Record α} (c : Course search invoker i e j r k)

include c

/-- Selection leaves the question of rescaling as it was answered. -/
theorem settings_scale : r.settings.scale = c.resolved.scale := by
  have hsettled : r.settings.scale = c.adjusted.scale := by
    rcases settleSolver_yields (Prep.yields_of_outcome c.solver_eq) with h | ⟨h, -⟩
    · rw [h]
    · obtain ⟨rule, -, -, hadapt⟩ := h
      obtain ⟨npt, rhobeg, rhoend, h⟩ := Settings.adapt_changes hadapt
      rw [h]
  rw [hsettled]
  rcases rescaleIfAsked_settings (Prep.yields_of_outcome c.rescale_eq) with h | h
  · rw [h]
  · rw [h]
    rfl

/-- No stage after the check adds or removes a row. -/
theorem length_rows (hsearch : search.KeepsDimension) :
    r.problem.inequalities.rows.length = c.checked.problem.inequalities.rows.length ∧
      r.problem.equalities.rows.length = c.checked.problem.equalities.rows.length := by
  have hreduced : c.reduced.inequalities.rows.length = c.checked.problem.inequalities.rows.length ∧
      c.reduced.equalities.rows.length = c.checked.problem.equalities.rows.length := by
    have h := c.reduced_eq
    split at h
    · rw [h.2]
      exact ⟨List.length_map .., List.length_map ..⟩
    · rw [h.2]
      exact ⟨rfl, rfl⟩
  obtain ⟨start, hsettled⟩ := c.settled_eq
  have h := c.problem_eq (c.settled_fits hsearch)
  rw [hsettled] at h
  split at h
  · rw [h.2.1]
    exact ⟨(List.length_map ..).trans hreduced.1, (List.length_map ..).trans hreduced.2⟩
  · rw [h.2.1]
    exact hreduced

/-- Where nothing is left to solve, the problem is the one that was checked. -/
theorem problem_eq_checked (h : c.checked.facts.isDegenerate = true) :
    r.problem = c.checked.problem := by
  have hreduced : c.reduced = c.checked.problem := by
    have heq := c.reduced_eq
    rw [if_neg (by simp [Facts.eliminates, h])] at heq
    exact heq.2
  have hsettled : c.settled = c.reduced := by
    rcases settleStart_yields (Prep.yields_of_outcome c.settle_eq) with heq | ⟨hopen, -⟩
    · exact heq
    · rw [h] at hopen
      cases hopen
  have hfits : c.settled.Fits r.refinedDimension := by
    rw [hsettled]
    exact c.reduced_fits
  have heq := c.problem_eq hfits
  rw [if_neg (by simp [h])] at heq
  rw [heq.2.1, hsettled, hreduced]

theorem isReduced_iff : r.isReduced = true ↔ c.checked.facts.eliminates = true := by
  have h := c.reduced_eq
  rw [Record.isReduced]
  split at h
  · next heliminates => simp [h.1, heliminates]
  · next hkeeps => simp [h.1, hkeeps]

theorem isScaled_iff (hsearch : search.KeepsDimension) :
    r.isScaled = true ↔ (c.resolved.scale && !c.checked.facts.isDegenerate) = true := by
  have h := c.problem_eq (c.settled_fits hsearch)
  rw [Record.isScaled]
  split at h
  · next hscales => simp [h.1, hscales]
  · next hkeeps => simp [h.1, hkeeps]

/-- The variables that are left are those that were not eliminated. -/
theorem refinedDimension_eq_sub : r.refinedDimension =
    if r.isReduced then r.rawDimension - Mask.count r.facts.fixed else r.rawDimension := by
  have hraw := c.rawDimension_eq_dimension
  have h := c.reduced_eq
  rw [Record.isReduced, c.refinedDimension_eq, c.facts_eq]
  split at h
  · rw [h.1, h.2, Option.isSome_some, if_pos rfl, hraw, ← c.length_fixed, ← Mask.count_others]
    have hfits := Problem.reducedBy_fits c.checked_fits c.elimination_fits
    exact hfits.length_start
  · rw [h.1, h.2, ← c.rawDimension_eq]
    rfl

/-- Both canonical systems consist of the rows that are not trivial. -/
theorem systems_isCanonical (hsearch : search.KeepsDimension) :
    r.problem.inequalities.IsCanonical r.refinedDimension c.given.inequalities.rows.length
        r.facts.trivialInequalities ∧
      r.problem.equalities.IsCanonical r.refinedDimension c.given.equalities.rows.length
        r.facts.trivialEqualities := by
  obtain ⟨-, hineq, -, heq⟩ := Facts.ofConstraints_rows c.checked_of.facts_eq
  have hproblem := c.problem_fits hsearch
  obtain ⟨hrows, hrows'⟩ := c.length_rows hsearch
  have hcheckedRows := CheckedSystem.length_rows .inequalities c.given_fits.inequalities
  have hcheckedRows' := CheckedSystem.length_rows .equalities c.given_fits.equalities
  rw [c.facts_eq, hineq, heq]
  rw [c.checked_of.problem_eq] at hrows hrows'
  exact ⟨⟨hproblem.inequalities.shape_eq, hproblem.inequalities.length_row, hcheckedRows.1,
      hrows.trans hcheckedRows.2⟩,
    ⟨hproblem.equalities.shape_eq, hproblem.equalities.length_row, hcheckedRows'.1,
      hrows'.trans hcheckedRows'.2⟩⟩

theorem fixedViolation_iff : r.fixedViolation.isSome = true ↔ r.facts.allFixed = true := by
  have h := c.checked_of.violation_eq
  rw [c.fixedViolation_eq, c.facts_eq]
  split at h
  · next hfixed =>
    obtain ⟨violation, -, hsome⟩ := map_eq_ok.1 h
    simp [← hsome, hfixed]
  · next hfree => simp [h, hfree]

end Course

/-- Every record that a preparation ends with is coherent with itself and with what was passed. -/
theorem prepare_isCoherent [Interchange α] {search : NearestSearch α} (hsearch : search.KeepsDimension)
    {invoker : Invoker} {i : Input α} {e : Option Category} {r : Record α}
    (h : (Prep.run e (prepare search invoker i)).1 = .ok r) :
    ∃ given, i.stated invoker.name = .ok given ∧
      i.Counts given.dimension given.inequalities.rows.length given.equalities.rows.length ∧
      r.IsCoherent invoker.name given := by
  obtain ⟨c⟩ := exists_course (Prod.ext h rfl)
  refine ⟨c.given, c.stated_eq, Input.stated_counts c.stated_eq, ?_⟩
  have hraw := c.rawDimension_eq_dimension
  have hproblem := c.problem_fits hsearch
  have hfixed : r.facts.fixed.length = r.rawDimension := by rw [c.facts_eq, hraw, c.length_fixed]
  obtain ⟨-, hbounds, -⟩ := Facts.ofConstraints_eq_ok c.checked_of.facts_eq
  exact {
    rawDimension_eq := hraw
    length_fixed := hfixed
    length_infeasibleBounds := by
      rw [c.facts_eq, hraw, hbounds, Bounds.infeasible, List.length_zipWith, c.given_fits.length_lower,
        c.given_fits.length_upper, Nat.min_self]
    isReduced_iff := by rw [c.isReduced_iff, Facts.eliminates_iff, c.facts_eq]
    isReduced_iff_elimination := by
      rw [Record.isReduced, Option.isSome_iff_exists]
      constructor
      · rintro ⟨el, hel⟩
        exact ⟨el, hel, (c.elimination_facts hel).1⟩
      · rintro ⟨el, hel, -⟩
        exact ⟨el, hel⟩
    isScaled_iff := by
      rw [c.isScaled_iff hsearch, c.settings_scale, c.facts_eq]
      simp [Facts.isDegenerate, and_comm]
    isScaled_iff_rescaling := by
      rw [Record.isScaled, Option.isSome_iff_exists]
      constructor
      · rintro ⟨s, hs⟩
        exact ⟨s, hs, (c.record_fits hsearch).rescaling s hs⟩
      · rintro ⟨s, hs, -⟩
        exact ⟨s, hs⟩
    refinedDimension_eq := c.refinedDimension_eq_sub
    refinedDimension_pos := c.refinedDimension_pos
    length_start := hproblem.length_start
    length_lower := hproblem.length_lower
    length_upper := hproblem.length_upper
    inequalities := (c.systems_isCanonical hsearch).1
    equalities := (c.systems_isCanonical hsearch).2
    fixedViolation_iff := c.fixedViolation_iff
    unchanged := by
      intro hdegenerate
      rw [← c.checked_of.problem_eq]
      apply c.problem_eq_checked
      rw [Facts.isDegenerate, Bool.or_eq_true, ← c.facts_eq]
      exact hdegenerate.symm }

/-- Three variables, the first of them fixed, under two rows, the first of them trivial. -/
def partlyFixedInput : Input (Extended ℚ) where
  objective := zeroObjective
  start := .list [.int 1, .int 0, .int 2]
  inequalityRows := .list [.list [.int 0, .int 0, .int 0], .list [.int 1, .int 1, .int 1]]
  inequalityRhs := .list [.int 3, .int 10]
  lower := .list [.int 1, .int (-1), .int 0]
  upper := .list [.int 1, .int 1, .int 4]
  options := .mapping [(.text "scale", .bool true)]

/-- One row and two variables are left, and these are rescaled. -/
theorem prepare_isCoherent_partlyFixedInput : ∃ r given,
    (Prep.run none (prepare NearestSearch.stay .frontEnd partlyFixedInput)).1 = .ok r ∧
      (r.rawDimension, r.refinedDimension, r.isReduced, r.isScaled) = (3, 2, true, true) ∧
      r.facts.trivialInequalities = [true, false] ∧ partlyFixedInput.Counts 3 2 0 ∧
      r.IsCoherent "pdfo" given := by
  have hrun : (Prep.run none (prepare NearestSearch.stay .frontEnd partlyFixedInput)).1.toOption.map
      (fun r => ((r.rawDimension, r.refinedDimension, r.isReduced, r.isScaled),
        r.facts.trivialInequalities)) = some ((3, 2, true, true), [true, false]) := by decide +kernel
  obtain ⟨r, hr, hresult⟩ := exists_of_toOption_map hrun
  obtain ⟨hflags, htrivial⟩ := Prod.mk.inj hresult
  obtain ⟨given, -, -, hcoherent⟩ := prepare_isCoherent NearestSearch.stay_keepsDimension hr
  have hcounts : partlyFixedInput.Counts 3 2 0 := ⟨rfl, rfl, rfl⟩
  exact ⟨r, given, hr, hflags, htrivial, hcounts, hcoherent⟩

end Presolve
