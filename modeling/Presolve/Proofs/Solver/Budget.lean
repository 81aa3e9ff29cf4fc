import Mathlib.Tactic.Linarith
import Presolve.Proofs.Number.Extended
import Presolve.Proofs.Solver.Selected

/-!
# The budget that a solver works with

A solver interpolates the objective at a number of points before it takes its first step, and needs one
evaluation more than that. The number of points and the budget are resolved for the solver that was
asked for; where the table puts another one in its place, the number of points is derived anew from the
old budget. That the new number is not too small is up to the order of the rules: a tight budget never
gets as far as a solver with interpolation points.
-/

namespace Presolve

open Scalar

variable {α : Type} [Scalar α]

/-! ## Workable budgets -/

namespace Solver

/-- Can the solver work on `n` variables with this number of points and this budget? -/
def WorksWith (n : Nat) (npt : Option Int) (budget : Int) : Solver → Prop
  | newuoa | bobyqa | lincoa =>
    ∃ m : Int, npt = some m ∧ n + 2 ≤ m ∧ m ≤ fullQuadratic n ∧ m + 1 ≤ budget
  | uobyqa => fullQuadratic n + 1 ≤ budget
  | cobyla => n + 2 ≤ budget

theorem two_mul_add_one_le_fullQuadratic (n : Nat) : 2 * n + 1 ≤ fullQuadratic n := by
  rw [fullQuadratic, Nat.le_div_iff_mul_le (by omega)]
  cases n with
  | zero => omega
  | succ k => nlinarith

/-- Is this a number of points that the solver samples on `n` variables? It is a matter of choice only
where it is an option. -/
def Samples (s : Solver) (n : Nat) (m : Int) : Prop :=
  if s.takesNpt then n + 2 ≤ m ∧ m ≤ fullQuadratic n else m = s.defaultNpt n

theorem samples_defaultNpt (s : Solver) {n : Nat} (hn : 0 < n) : s.Samples n (s.defaultNpt n) := by
  have hfull := two_mul_add_one_le_fullQuadratic n
  cases s with
  | newuoa | bobyqa | lincoa =>
    show (n : Int) + 2 ≤ (2 * n + 1 : Nat) ∧ ((2 * n + 1 : Nat) : Int) ≤ fullQuadratic n
    omega
  | uobyqa | cobyla => rfl

/-- A budget beyond the points that a solver samples is one that it can work with. -/
theorem Samples.worksWith {s : Solver} {n : Nat} {m budget : Int} (h : s.Samples n m)
    (hbudget : m + 1 ≤ budget) : s.WorksWith n (some m) budget := by
  cases s with
  | newuoa | bobyqa | lincoa => exact ⟨m, rfl, h.1, h.2, hbudget⟩
  | uobyqa =>
    have h : m = fullQuadratic n := h
    show (fullQuadratic n : Int) + 1 ≤ budget
    omega
  | cobyla =>
    have h : m = (n + 1 : Nat) := h
    show (n : Int) + 2 ≤ budget
    omega

/-- Whatever the solver, its budget allows for a point beyond a linear model. -/
theorem WorksWith.add_two_le {s : Solver} {n : Nat} {npt : Option Int} {budget : Int}
    (h : s.WorksWith n npt budget) : (n : Int) + 2 ≤ budget := by
  have hfull := two_mul_add_one_le_fullQuadratic n
  cases s with
  | uobyqa =>
    have h : (fullQuadratic n : Int) + 1 ≤ budget := h
    omega
  | newuoa | bobyqa | lincoa =>
    obtain ⟨m, -, hlow, -, hbudget⟩ := h
    omega
  | cobyla => exact h

end Solver

namespace Settings

/-- The settings name a solver that can work with them on `n` variables. -/
def Works (s : Settings α) (n : Nat) : Prop :=
  ∃ solver, s.solver = some solver ∧ solver.WorksWith n s.npt s.maxfun

/-- The settings work for their solver or, while there is none, leave a choice. -/
def WorksIfNamed (s : Settings α) (n : Nat) : Prop :=
  match s.solver with
  | some solver => solver.WorksWith n s.npt s.maxfun
  | none => n + 2 ≤ s.maxfun

omit [Scalar α] in
theorem WorksIfNamed.add_two_le {s : Settings α} {n : Nat} (h : s.WorksIfNamed n) :
    (n : Int) + 2 ≤ s.maxfun := by
  unfold WorksIfNamed at h
  split at h
  · exact h.add_two_le
  · exact h

theorem WorksIfNamed.withUnitRadius {s : Settings α} {n : Nat} (h : s.WorksIfNamed n) :
    s.withUnitRadius.WorksIfNamed n := h

end Settings

/-! ## Resolution -/

namespace Resolution

variable [Interchange α] {c : Context α}

/-- The number of points that is set for a solver is one that it samples. -/
theorem npt_yields {solver : Solver} {m? : Option Int} (hn : 0 < c.n)
    (h : (npt c (some solver)).Yields m?) : ∃ m, m? = some m ∧ solver.Samples c.n m := by
  have hdefault := solver.samples_defaultNpt hn
  -- anything but an integer in the range is replaced by the number that the solver has by itself
  simp only [npt] at h
  split at h
  · next value _ htakes =>
    obtain ⟨asked?, -, h⟩ := h.of_bind
    cases asked? with
    | none =>
      obtain ⟨_, -, h⟩ := h.of_bind
      exact ⟨_, (Prep.yields_pure.1 h).symm, hdefault⟩
    | some asked =>
      simp only at h
      split at h
      · next hrange =>
        refine ⟨asked, (Prep.yields_pure.1 h).symm, ?_⟩
        rwa [Solver.Samples, if_pos htakes]
      · obtain ⟨_, -, h⟩ := h.of_bind
        exact ⟨_, (Prep.yields_pure.1 h).symm, hdefault⟩
  · exact ⟨_, (Prep.yields_pure.1 h).symm, hdefault⟩

/-- No points are set for no solver. -/
theorem npt_yields_none {m? : Option Int} (h : (npt c none).Yields m?) : m? = none :=
  (Prep.yields_pure.1 h).symm

/-- The least budget for a number of points, or for a choice. -/
def leastBudget (n : Nat) (npt : Option Int) : Int := npt.elim (n + 2) (· + 1)

/-- The budget that is set without a valid one is at least the least one. -/
theorem leastBudget_le_fallback {n : Nat} (hn : 0 < n) (npt : Option Int) :
    leastBudget n npt ≤ match npt with
      | some m => max (defaultBudget n : Int) (m + 1)
      | none => (defaultBudget n : Int) := by
  cases npt with
  | none =>
    simp only [leastBudget, defaultBudget, Option.elim]
    omega
  | some m => exact le_max_right _ _

/-- The budget is at least the least one. -/
theorem maxfun_yields {solver : Option Solver} {npt : Option Int} {budget : Int} (hn : 0 < c.n)
    (hnone : solver = none ↔ npt = none) (h : (maxfun c solver npt).Yields budget) :
    leastBudget c.n npt ≤ budget := by
  have hfallback := leastBudget_le_fallback hn npt
  -- each branch sets the fallback, a budget that was asked for and is not too small, or the least one
  simp only [maxfun] at h
  split at h
  · rw [Prep.yields_pure] at h
    subst h
    exact hfallback
  · obtain ⟨asked?, -, h⟩ := h.of_bind
    cases asked? with
    | none =>
      obtain ⟨_, -, h⟩ := h.of_bind
      rw [Prep.yields_pure] at h
      subst h
      exact hfallback
    | some asked =>
      simp only at h
      split at h
      · obtain ⟨_, -, h⟩ := h.of_bind
        rw [Prep.yields_pure] at h
        subst h
        exact hfallback
      · split at h
        · next _ =>
          rw [hnone.1 rfl, leastBudget, Option.elim]
          split at h
          · obtain ⟨_, -, h⟩ := h.of_bind
            rw [Prep.yields_pure] at h
            omega
          · rw [Prep.yields_pure] at h
            omega
        · next m =>
          rw [leastBudget, Option.elim]
          split at h
          · obtain ⟨_, -, h⟩ := h.of_bind
            rw [Prep.yields_pure] at h
            omega
          · rw [Prep.yields_pure] at h
            omega
        · exact absurd (hnone.2 rfl) (by simp)

/-- Resolved settings work for the solver that was asked for. -/
theorem settings_work {s : Settings α} (hn : 0 < c.n) (h : (settings c).Yields s) :
    s.WorksIfNamed c.n := by
  have hsteps := settings_yields h
  have hnpt := hsteps.npt
  have hmaxfun := hsteps.maxfun
  unfold Settings.WorksIfNamed
  cases hsolver : s.solver with
  | none =>
    rw [hsolver] at hnpt hmaxfun
    have hnone := npt_yields_none hnpt
    have hbudget := maxfun_yields hn (by simp [hnone]) hmaxfun
    rw [hnone] at hbudget
    exact hbudget
  | some solver =>
    rw [hsolver] at hnpt hmaxfun
    obtain ⟨m, hm, hrange⟩ := npt_yields hn hnpt
    have hbudget := maxfun_yields hn (by simp [hm]) hmaxfun
    rw [hm] at hbudget
    rw [hm]
    exact hrange.worksWith hbudget

end Resolution

/-! ## Selection -/

namespace SelectionRule

/-- The table names the solver of full quadratic models only where the budget is enough for one. -/
theorem first?_table_uobyqa {kind : ProblemKind} {n : Nat} {budget : Int} {rule : SelectionRule}
    (h : first? table kind n budget = some rule) (hsolver : rule.solver = .uobyqa) :
    (Solver.fullQuadratic n : Int) + 1 ≤ budget := by
  -- one row of the table names that solver, and its condition asks for the budget
  have hmem : rule ∈ table := List.mem_of_find?_eq_some h
  have honly : ∀ rule ∈ table, rule.solver = .uobyqa → rule.condition = .smallAndAffordable := by
    decide
  have hholds := List.find?_some h
  rw [honly rule hmem hsolver, Condition.holds, Bool.and_eq_true, decide_eq_true_eq] at hholds
  exact hholds.2.2.2

/-- With a tight budget the table never gets as far as a solver with interpolation points: a rule for
such budgets stands before each of those. -/
theorem first?_table_of_tight {kind : ProblemKind} {n : Nat} {budget : Int} {rule : SelectionRule}
    (h : first? table kind n budget = some rule) (htight : budget ≤ n + 2) :
    rule.solver.takesNpt = false := by
  cases kind with
  | unconstrained =>
    simp only [first?, table, List.find?_cons, Condition.holds, htight, decide_true, beq_self_eq_true,
      Bool.true_and] at h
    split at h <;> cases h <;> rfl
  | boundConstrained | linearlyConstrained | nonlinearlyConstrained =>
    simp [first?, table, Condition.holds, htight] at h
    subst h
    rfl

end SelectionRule

namespace Settings

/-- The settings for the solver that the table names work. -/
theorem adapt_works {s t : Settings α} {kind : ProblemKind} {n : Nat} {bounds : Bounds α}
    {rule : SelectionRule} (hn : 0 < n) (hbudget : (n : Int) + 2 ≤ s.maxfun)
    (hrule : SelectionRule.first? SelectionRule.table kind n s.maxfun = some rule)
    (h : s.adapt rule.solver n bounds = .ok t) : t.Works n := by
  obtain ⟨hsolver, hmaxfun, hnpt⟩ := adapt_eq_ok h
  refine ⟨rule.solver, hsolver, ?_⟩
  rw [hmaxfun, hnpt]
  cases htakes : rule.solver.takesNpt with
  | true =>
    have hroom : (n : Int) + 2 < s.maxfun := by
      -- a tighter budget would have met a rule for a solver without interpolation points
      by_contra htight
      rw [SelectionRule.first?_table_of_tight hrule (not_lt.1 htight)] at htakes
      cases htakes
    have hfull := Solver.two_mul_add_one_le_fullQuadratic n
    rw [if_pos rfl]
    apply Solver.Samples.worksWith
    · rw [Solver.Samples, if_pos htakes]
      omega
    · omega
  | false =>
    rw [if_neg Bool.false_ne_true]
    cases hrest : rule.solver with
    | newuoa | bobyqa | lincoa =>
      rw [hrest] at htakes
      cases htakes
    | uobyqa => exact SelectionRule.first?_table_uobyqa hrule hrest
    | cobyla => exact hbudget

end Settings

variable [Interchange α]

/-- The settings with a selected solver work if those before did for the solver that they named. -/
theorem selectSolver_works {s t : Settings α} {kind : ProblemKind} {n : Nat} {bounds : Bounds α}
    {invoker : Invoker} (hn : 0 < n) (hs : s.WorksIfNamed n)
    (h : (selectSolver SelectionRule.table s kind n bounds invoker).Yields t) : t.Works n := by
  obtain ⟨e, j, k, h⟩ := h
  have hadapts (h : s.AdaptsTo SelectionRule.table kind n bounds t) : t.Works n := by
    obtain ⟨rule, hrule, -, hadapt⟩ := h
    exact Settings.adapt_works hn hs.add_two_le hrule hadapt
  have h := selectSolver_outcome h
  cases hsolver : s.solver with
  | some solver =>
    simp only [hsolver] at h
    split at h
    · rw [Settings.WorksIfNamed, hsolver] at hs
      rw [h.1]
      exact ⟨solver, hsolver, hs⟩
    · exact hadapts h.1
  | none =>
    simp only [hsolver] at h
    exact hadapts h.1

/-! ## Preparations -/

variable {search : NearestSearch α} {invoker : Invoker} {i : Input α} {e : Option Category}
  {r : Record α}

/-- However a solver was chosen, the settings that a preparation ends with give it a number of points in
its range and a budget beyond them. -/
theorem prepare_settings_work (hsearch : search.KeepsDimension)
    (h : (Prep.run e (prepare search invoker i)).1 = .ok r) :
    0 < r.refinedDimension ∧ r.settings.Works r.refinedDimension := by
  obtain ⟨c⟩ := exists_course (Prod.ext h rfl)
  have hpos := c.refinedDimension_pos
  obtain ⟨entries, -, hresolved⟩ := c.resolved_yields
  -- options are resolved in the refined dimension, and later only the radii change
  have hadjusted : c.adjusted.WorksIfNamed r.refinedDimension := by
    have hworks : c.resolved.WorksIfNamed r.refinedDimension :=
      Resolution.settings_work (c := c.context entries) hpos hresolved
    rcases c.adjusted_eq hsearch with h | h <;> rw [h]
    · exact hworks
    · exact hworks.withUnitRadius
  refine ⟨hpos, ?_⟩
  have hsolver := Prep.yields_of_outcome c.solver_eq
  rw [settleSolver, c.problem_dimension hsearch] at hsolver
  split at hsolver
  · exact selectSolver_works hpos hadjusted hsolver
  · -- a solver that is the invoker is the one that the options were resolved for
    rw [Prep.yields_pure] at hsolver
    obtain ⟨entries, -, hasked⟩ := c.adjusted_solver hsearch
    cases invoker with
    | frontEnd => contradiction
    | solver s =>
      have hs : c.adjusted.solver = some s := hasked
      rw [Settings.WorksIfNamed, hs] at hadjusted
      rw [← hsolver]
      exact ⟨s, hs, hadjusted⟩

/-- Three variables between bounds, with a solver that does not handle bounds and a budget that is too
small for it. -/
def boxedInput : Input (Extended ℚ) where
  objective := zeroObjective
  start := .list [.int 0, .int 0, .int 0]
  lower := .list [.int (-1), .int (-1), .int (-1)]
  upper := .list [.int 1, .int 1, .int 1]
  options := .mapping [(.text "solver", .text "UOBYQA"), (.text "maxfun", .int 6)]

/-- The budget is resolved for the solver that was asked for, and the points for the one in its place. -/
theorem prepare_settings_work_boxedInput : ∃ r,
    (Prep.run none (prepare NearestSearch.stay .frontEnd boxedInput)).1 = .ok r ∧
      (r.settings.solver, r.settings.npt, r.settings.maxfun) = (some .bobyqa, some 7, 11) ∧
      0 < r.refinedDimension ∧ r.settings.Works r.refinedDimension := by
  have hrun : (Prep.run none (prepare NearestSearch.stay .frontEnd boxedInput)).1.toOption.map
      (fun r => (r.settings.solver, r.settings.npt, r.settings.maxfun))
        = some (some .bobyqa, some 7, 11) := by decide +kernel
  obtain ⟨r, hr, hsettings⟩ := exists_of_toOption_map hrun
  exact ⟨r, hr, hsettings, prepare_settings_work NearestSearch.stay_keepsDimension hr⟩

end Presolve
