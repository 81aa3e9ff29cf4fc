import Presolve.Proofs.Preparation.Escalation
import Presolve.Proofs.Preparation.Start
import Presolve.Proofs.Problem.Again

/-!
# Preparing a problem again

A preparation leaves a problem at which there is nothing more to do. What this means is said first, without
looking at where the problem comes from: no stage changes a problem `AtRest`, so preparing it succeeds and
gives it back. Then the canonical problems are found to be at rest (`Course.atRest`): the functions are
behind their barriers, the trivial rows are gone, no variable that is left is fixed, and the start either
has arrived in the bounds or is as near to them as it was.

This leaves out the problems that were rescaled, those whose start was searched for, and those with rows whose
columns moved to the right-hand sides, where rows may have become trivial.
-/

namespace Presolve

open Scalar

variable {α : Type} [Scalar α] [Interchange α] {search : NearestSearch α} {invoker : Invoker}
  {source : String} {i : Input α} {p : Problem α} {f : Facts α} {e : Option Category}

/-! ## Stages without anything to do -/

/-- A problem that no stage changes, with what is known of its constraints. -/
structure Problem.AtRest (search : NearestSearch α) (source : String) (p : Problem α) (f : Facts α) :
    Prop where
  facts_eq : Facts.ofConstraints ⟨.ofSystem .inequalities p.inequalities,
    .ofSystem .equalities p.equalities⟩ p.bounds = .ok f
  checked_eq : (p.guarded source).withoutTrivialRows = p
  violation : f.allFixed = true → ∃ v, p.violationAt f.fixedValues = .ok v
  not_eliminates : f.eliminates = false
  start : f.isDegenerate = false → ∃ start, p.feasibleStart search p.kind = .ok (start, none) ∧
    p.isRevised start = .ok false

omit [Scalar α] [Interchange α] in
/-- An event that is left only sometimes keeps no run from its result. -/
theorem Prep.exists_outcome_of_leave {β : Type} {c : Prop} [Decidable c] {v : Event α}
    {g : Unit → Prep α β} {b : β} (h : ∀ j, ∃ k, (g ()).outcome e j = (.ok b, k)) (j : Journal α) :
    ∃ k, (if c then Prep.leave v >>= g else g ()).outcome e j = (.ok b, k) := by
  split
  · exact h _
  · exact h j

/-- A start that is not far from the feasible one stays. -/
theorem moveStart_eq_pure {kind : ProblemKind} {start : List α}
    (h : p.feasibleStart search kind = .ok (start, none)) (hnear : p.isRevised start = .ok false) :
    moveStart search source kind p = pure p := by
  simp only [moveStart, h, hnear, Prep.lift_ok, pure_bind]
  rfl

theorem rescaleIfAsked_eq_pure {s : Settings α} (h : (s.scale && !f.isDegenerate) = false) :
    rescaleIfAsked source f p s = pure (p, none, s) := by
  rw [rescaleIfAsked, h, if_neg Bool.false_ne_true]

namespace Problem.AtRest

/-- Checking gives back the problem, whatever its constraints are violated by. -/
theorem exists_check (h : p.AtRest search source f) (hi : i.stated source = .ok p)
    (hobjective : i.objective.isAbsent = false) (j : Journal α) :
    ∃ v k, (check source i).outcome e j = (.ok ⟨p, f, v⟩, k) := by
  rw [check_eq hi h.facts_eq, hobjective, if_neg Bool.false_ne_true, h.checked_eq]
  have hrest (v : Option α) (j : Journal α) : ∃ k, (do
      if f.infeasible then Prep.leave .infeasible
      return ⟨p, f, v⟩ : Prep α (Checked α)).outcome e j = (.ok ⟨p, f, v⟩, k) :=
    Prep.exists_outcome_of_leave (fun j => ⟨j, rfl⟩) j
  by_cases hall : f.allFixed = true
  · obtain ⟨v, hv⟩ := h.violation hall
    refine ⟨some v, Prep.exists_outcome_of_leave (fun j => ?_) j⟩
    simp only [hall, if_true, hv]
    exact hrest (some v) j
  · refine ⟨none, Prep.exists_outcome_of_leave (fun j => ?_) j⟩
    rw [if_neg hall]
    exact hrest none j

theorem reduce_eq (h : p.AtRest search source f) (v : Option α) : reduce ⟨p, f, v⟩ = pure (p, none) :=
  if_neg (by simpa [Facts.eliminates] using h.not_eliminates)

theorem settleStart_eq (h : p.AtRest search source f) :
    settleStart search source p.kind f p = pure p := by
  unfold settleStart
  split
  · rfl
  · next hopen =>
    obtain ⟨start, hstart, hnear⟩ := h.start (by simpa using hopen)
    exact moveStart_eq_pure hstart hnear

/-- A problem at rest is prepared as it is, where its kind is handled and the options can be resolved. -/
theorem exists_prepare (h : p.AtRest search invoker.name f) (hi : i.stated invoker.name = .ok p)
    (hobjective : i.objective.isAbsent = false) (hhandles : invoker.handles p.kind = true)
    {resolved settings : Settings α} {j₁ k₁ j₂ k₂ : Journal α}
    (hresolve : (resolveOptions invoker i.options p.dimension p.bounds).outcome e j₁
      = (.ok resolved, k₁))
    (hscale : (resolved.scale && !f.isDegenerate) = false)
    (hsolver : (settleSolver invoker resolved p.kind p).outcome e j₂ = (.ok settings, k₂)) :
    ∃ r, (Prep.run e (prepare search invoker i)).1 = .ok r ∧ r.isReduced = false ∧
      r.refinedKind = p.kind ∧ r.problem = p := by
  -- resolution and selection do not look at what was reported before, so they go as they went
  obtain ⟨v, j, hcheck⟩ := h.exists_check hi hobjective (e := e) {}
  obtain ⟨j', hresolve⟩ := (resolveOptions_stepwise invoker i.options p.dimension
    p.bounds).exists_outcome hresolve { j with trace := j.trace ++ [.classified p.kind p.kind] }
  obtain ⟨k, hsolver⟩ := (settleSolver_stepwise invoker resolved p.kind p).exists_outcome hsolver j'
  have hreduce : (reduce ⟨p, f, v⟩).outcome e j = (.ok (p, none), j) := by
    rw [h.reduce_eq v, Prep.outcome_pure]
  have hsettle : (settleStart search invoker.name p.kind f p).outcome e j' = (.ok p, j') := by
    rw [h.settleStart_eq, Prep.outcome_pure]
  have hrescale : (rescaleIfAsked invoker.name f p resolved).outcome e j'
      = (.ok (p, none, resolved), j') := by
    rw [rescaleIfAsked_eq_pure hscale, Prep.outcome_pure]
  exact ⟨_, prepare_outcome hcheck hreduce hhandles hresolve hsettle hrescale hsolver, rfl, rfl, rfl⟩

/-- The start of a problem at rest is not moved. -/
theorem not_reportsMove {r : Record α} (h : p.AtRest search invoker.name f)
    (hi : i.stated invoker.name = .ok p) (hobjective : i.objective.isAbsent = false)
    (hr : (Prep.run e (prepare search invoker i)).1 = .ok r) : ¬r.ReportsMove := by
  obtain ⟨c⟩ := exists_course (Prod.ext hr rfl)
  obtain ⟨v, j, hcheck⟩ := h.exists_check hi hobjective (e := e) {}
  have hchecked : c.checked = ⟨p, f, v⟩ :=
    Except.ok.inj (congrArg Prod.fst (c.check_eq.symm.trans hcheck))
  have hreduced : c.reduced = p := by
    have hreduce := c.reduce_eq
    rw [hchecked, h.reduce_eq, Prep.outcome_pure] at hreduce
    exact (congrArg Prod.fst (Except.ok.inj (congrArg Prod.fst hreduce))).symm
  by_cases hopen : f.isDegenerate = false
  · obtain ⟨start, hstart, hnear⟩ := h.start hopen
    obtain ⟨start', failure, hstart', hcases⟩ := c.settled_cases (by rw [hchecked]; exact hopen)
    rw [hreduced, hstart] at hstart'
    cases hstart'
    rcases hcases with ⟨-, -, hsilent⟩ | ⟨hfar, -, -⟩
    · exact hsilent
    · rw [hreduced, hnear] at hfar
      cases hfar
  · exact (c.settled_of_degenerate (by rw [hchecked]; simpa using hopen)).2

end Problem.AtRest

/-! ## Canonical problems -/

omit [Interchange α] in
/-- Where no point is searched for, a feasible start is the start itself or, for a problem with bounds, the
start moved into them. -/
theorem Problem.feasibleStart_of_ne {kind : ProblemKind} (hkind : kind ≠ .linearlyConstrained)
    {start : List α} {failure : Option String}
    (h : p.feasibleStart search kind = .ok (start, failure)) :
    failure = none ∧ (kind ≠ .boundConstrained ∧ start = p.start ∨
      kind = .boundConstrained ∧ p.bounds.clip p.start = .ok start) := by
  cases kind with
  | unconstrained | nonlinearlyConstrained =>
    cases h
    exact ⟨rfl, .inl ⟨by decide, rfl⟩⟩
  | boundConstrained =>
    obtain ⟨x, hx, hpair⟩ := map_eq_ok.1 h
    cases hpair
    exact ⟨rfl, .inr ⟨rfl, hx⟩⟩
  | linearlyConstrained => exact absurd rfl hkind

omit [Interchange α] in
/-- A start that was made feasible is feasible. -/
theorem Problem.feasibleStart_again [SteadyScalar α] {kind : ProblemKind} {n : Nat}
    (hkind : kind ≠ .linearlyConstrained) (hp : p.Fits n) {start : List α} {failure : Option String}
    (h : p.feasibleStart search kind = .ok (start, failure)) :
    Problem.feasibleStart search kind { p with start } = .ok (start, none) := by
  obtain ⟨-, ⟨hother, hstart⟩ | ⟨rfl, hclip⟩⟩ := Problem.feasibleStart_of_ne hkind h
  · cases kind with
    | unconstrained | nonlinearlyConstrained => rfl
    | boundConstrained => exact absurd rfl hother
    | linearlyConstrained => exact absurd rfl hkind
  · have hagain := Bounds.clip_clip hp.length_lower hp.length_upper hp.length_start hclip
    exact map_eq_ok.2 ⟨start, hagain, rfl⟩

namespace Course

variable {k : Journal α} {r : Record α} (c : Course search invoker i e {} r k)

include c

theorem settled_kind : c.settled.kind = r.refinedKind := by
  obtain ⟨start, hsettled⟩ := c.settled_eq
  rw [hsettled, c.refinedKind_eq]
  rfl

/-- Without rescaling the canonical problem is the settled one. -/
theorem problem_eq_settled (hkind : r.refinedKind ≠ .linearlyConstrained) (hscaled : r.isScaled = false) :
    r.problem = c.settled ∧ c.adjusted = c.resolved ∧
      (c.resolved.scale && !c.checked.facts.isDegenerate) = false := by
  have h := c.problem_eq (c.settled_fits_of_ne hkind)
  split at h
  · rw [Record.isScaled, h.1] at hscaled
    cases hscaled
  · next hplain => exact ⟨h.2.1, h.2.2, by simpa using hplain⟩

/-- The settled start has arrived where it was moved to, or stays once more. -/
theorem settled_start [SteadyScalar α] (hkind : r.refinedKind ≠ .linearlyConstrained)
    (hopen : c.checked.facts.isDegenerate = false) : ∃ start,
      c.settled.feasibleStart search r.refinedKind = .ok (start, none) ∧
      c.settled.isRevised start = .ok false := by
  obtain ⟨start, failure, hstart, hcases⟩ := c.settled_cases hopen
  rw [c.refinedKind_eq] at hkind ⊢
  rcases hcases with ⟨hnear, hsettled, -⟩ | ⟨-, hsettled, -⟩
  · obtain ⟨rfl, -⟩ := Problem.feasibleStart_of_ne hkind hstart
    rw [hsettled]
    exact ⟨start, hstart, hnear⟩
  · rw [hsettled]
    exact ⟨start, Problem.feasibleStart_again hkind c.reduced_fits hstart, Problem.isRevised_start _⟩

theorem guarded_checked [SteadyScalar α] :
    c.checked.problem.guarded invoker.name = c.checked.problem := by
  rw [c.checked_of.problem_eq]
  exact congrArg Problem.withoutTrivialRows (Problem.guarded_guarded c.given)

/-- The functions of the settled problem are behind their barriers. -/
theorem guarded_settled [SteadyScalar α] : c.settled.guarded invoker.name = c.settled := by
  have hreduced : c.reduced.guarded invoker.name = c.reduced := by
    have h := c.reduced_eq
    split at h
    · rw [h.2]
      exact Problem.guarded_reducedBy c.guarded_checked _
    · rw [h.2]
      exact c.guarded_checked
  obtain ⟨start, hsettled⟩ := c.settled_eq
  rw [hsettled]
  exact congrArg (fun q : Problem α => { q with start }) hreduced

/-- What is left of the problem if no variable was eliminated. -/
theorem settled_of_not_reduced (hreduced : r.isReduced = false) :
    c.checked.facts.eliminates = false ∧ ∃ start, c.settled = { c.checked.problem with start } := by
  have h := c.reduced_eq
  split at h
  · rw [Record.isReduced, h.1] at hreduced
    cases hreduced
  · next hkept =>
    obtain ⟨start, hsettled⟩ := c.settled_eq
    exact ⟨by simpa using hkept, start, by rw [hsettled, h.2]⟩

/-- Of the problem without its trivial rows the same is known as of the stated one, apart from the rows. -/
theorem exists_facts_again [SteadyScalar α] : ∃ f, Facts.ofConstraints
      ⟨.ofSystem .inequalities c.checked.problem.inequalities,
        .ofSystem .equalities c.checked.problem.equalities⟩ c.checked.problem.bounds = .ok f ∧
    f.infeasible = c.checked.facts.infeasible ∧ f.fixed = c.checked.facts.fixed ∧
    f.fixedValues = c.checked.facts.fixedValues := by
  have hgiven := c.given_fits
  obtain ⟨hfixed, hbounds, hvalues⟩ := Facts.ofConstraints_eq_ok c.checked_of.facts_eq
  obtain ⟨hineq, -, heq, -⟩ := Facts.ofConstraints_rows c.checked_of.facts_eq
  rw [c.checked_of.problem_eq]
  obtain ⟨f, hf⟩ := Facts.exists_ofConstraints hgiven.length_lower hgiven.length_upper
    ⟨.ofSystem .inequalities (CheckedSystem.ofSystem .inequalities c.given.inequalities).system,
      .ofSystem .equalities (CheckedSystem.ofSystem .equalities c.given.equalities).system⟩
  obtain ⟨hfixed', hbounds', hvalues'⟩ := Facts.ofConstraints_eq_ok hf
  obtain ⟨hineq', -, heq', -⟩ := Facts.ofConstraints_rows hf
  refine ⟨f, hf, ?_, hfixed'.trans hfixed.symm, Except.ok.inj (hvalues'.symm.trans hvalues)⟩
  simp only [Facts.infeasible, hineq, hineq', heq, heq', hbounds, hbounds',
    CheckedSystem.infeasible_ofSystem_system]

/-- Without an elimination the settled problem is at rest. -/
theorem atRest_of_not_reduced [SteadyScalar α] (hkind : r.refinedKind ≠ .linearlyConstrained)
    (hreduced : r.isReduced = false) : ∃ f, c.settled.AtRest search invoker.name f ∧
      f.isDegenerate = c.checked.facts.isDegenerate := by
  obtain ⟨hkept, start, hsettled⟩ := c.settled_of_not_reduced hreduced
  obtain ⟨f, hf, hinfeasible, hfixed, hvalues⟩ := c.exists_facts_again
  have hall : f.allFixed = c.checked.facts.allFixed := by rw [Facts.allFixed, Facts.allFixed, hfixed]
  have hdegenerate : f.isDegenerate = c.checked.facts.isDegenerate := by
    rw [Facts.isDegenerate, Facts.isDegenerate, hall, hinfeasible]
  refine ⟨f, ?_, hdegenerate⟩
  constructor
  · rw [hsettled]
    exact hf
  · have hrows : c.checked.problem.withoutTrivialRows = c.checked.problem := by
      rw [c.checked_of.problem_eq]
      have hineq := CheckedSystem.ofSystem_system .inequalities c.given_fits.inequalities
      have heq := CheckedSystem.ofSystem_system .equalities c.given_fits.equalities
      simp only [Problem.withoutTrivialRows, Problem.guarded, hineq, heq]
    rw [c.guarded_settled, hsettled]
    exact congrArg (fun q : Problem α => { q with start }) hrows
  · intro hfixedAll
    have hviolation := c.checked_of.violation_eq
    rw [if_pos (hall.symm.trans hfixedAll), ← hvalues] at hviolation
    obtain ⟨v, hv, -⟩ := map_eq_ok.1 hviolation
    rw [hsettled]
    exact ⟨v, hv⟩
  · rw [Facts.eliminates, hfixed, hdegenerate]
    exact hkept
  · intro hopen
    rw [c.settled_kind]
    exact c.settled_start hkind (hdegenerate.symm.trans hopen)

/-- After an elimination something is left to solve, and no variable that is left is fixed. -/
theorem settled_isOpen (hreduced : r.isReduced = true) :
    c.checked.facts.isDegenerate = false ∧ c.settled.bounds.IsOpen := by
  have hopen : c.checked.facts.isDegenerate = false := by
    have h := c.reduced_eq
    split at h
    · next heliminates =>
      rw [Facts.eliminates, Bool.and_eq_true, Bool.not_eq_true'] at heliminates
      exact heliminates.2
    · rw [Record.isReduced, h.1] at hreduced
      cases hreduced
  obtain ⟨hfixed, hinfeasible, -⟩ := Facts.ofConstraints_eq_ok c.checked_of.facts_eq
  rw [← c.checked_of.bounds_eq] at hfixed hinfeasible
  have hbounds : c.reduced.bounds.IsOpen := reduce_isOpen c.checked_fits c.dimension_pos hfixed
    hinfeasible (Prep.yields_of_outcome c.reduce_eq) hopen
  obtain ⟨start, hsettled⟩ := c.settled_eq
  rw [hsettled]
  exact ⟨hopen, hbounds⟩

/-- After an elimination the settled problem is at rest if it has no rows. -/
theorem atRest_of_reduced [SteadyScalar α] (hkind : r.refinedKind ≠ .linearlyConstrained)
    (hreduced : r.isReduced = true) (hineq : c.settled.inequalities.hasRows = false)
    (heq : c.settled.equalities.hasRows = false) : ∃ f, c.settled.AtRest search invoker.name f ∧
      f.isDegenerate = c.checked.facts.isDegenerate := by
  obtain ⟨hopen, hbounds⟩ := c.settled_isOpen hreduced
  have hfits := c.settled_fits_of_ne hkind
  have hineq := hfits.inequalities.eq_empty c.refinedDimension_pos hineq
  have heq := hfits.equalities.eq_empty c.refinedDimension_pos heq
  obtain ⟨f, hf⟩ := Facts.exists_ofConstraints hfits.length_lower hfits.length_upper
    ⟨.ofSystem .inequalities c.settled.inequalities, .ofSystem .equalities c.settled.equalities⟩
  obtain ⟨hfixed, hinfeasible, -⟩ := Facts.ofConstraints_eq_ok hf
  obtain ⟨hrows, -, hrows', -⟩ := Facts.ofConstraints_rows hf
  have hfree : f.fixed.any id = false := hfixed ▸ hbounds.free
  have hnotAll : f.allFixed = false := by
    -- there is a variable, and it is not fixed
    have hlen : f.fixed.length = r.refinedDimension := by
      rw [hfixed, Bounds.fixed, List.length_zipWith, hfits.length_lower, hfits.length_upper, Nat.min_self]
    cases hmask : f.fixed with
    | nil =>
      rw [hmask] at hlen
      exact absurd hlen c.refinedDimension_pos.ne
    | cons b mask =>
      rw [hmask, List.any_cons, Bool.or_eq_false_iff] at hfree
      rw [Facts.allFixed, hmask, List.all_cons, hfree.1, Bool.false_and]
  have hdegenerate : f.isDegenerate = false := by
    rw [Facts.isDegenerate, hnotAll, Facts.infeasible, hinfeasible, hbounds.feasible, hrows, hrows', hineq, heq]
    rfl
  refine ⟨f, ?_, hdegenerate.trans hopen.symm⟩
  constructor
  · exact hf
  · rw [c.guarded_settled]
    have hkept : (CheckedSystem.ofSystem .inequalities c.settled.inequalities).system
        = c.settled.inequalities := by
      rw [hineq]
      rfl
    have hkept' : (CheckedSystem.ofSystem .equalities c.settled.equalities).system
        = c.settled.equalities := by
      rw [heq]
      rfl
    simp only [Problem.withoutTrivialRows, hkept, hkept']
  · intro hall
    rw [hnotAll] at hall
    cases hall
  · rw [Facts.eliminates, hfree, Bool.false_and]
  · intro _
    rw [c.settled_kind]
    exact c.settled_start hkind hopen

/-- A canonical problem is at rest, if it was neither rescaled nor searched a start for and if no columns of
its rows were moved. -/
theorem atRest [SteadyScalar α] (hkind : r.refinedKind ≠ .linearlyConstrained)
    (hscaled : r.isScaled = false)
    (hrows : (r.problem.inequalities.hasRows = false ∧ r.problem.equalities.hasRows = false) ∨
      r.isReduced = false) : ∃ f, r.problem.AtRest search invoker.name f ∧
      f.isDegenerate = c.checked.facts.isDegenerate := by
  rw [(c.problem_eq_settled hkind hscaled).1] at hrows ⊢
  cases hreduced : r.isReduced with
  | false => exact c.atRest_of_not_reduced hkind hreduced
  | true =>
    obtain ⟨hineq, heq⟩ := hrows.resolve_right (by simp [hreduced])
    exact c.atRest_of_reduced hkind hreduced hineq heq

end Course

/-- Preparation is idempotent on its own output. The canonical problem of a preparation that did not rescale and
whose problem is not linearly constrained, passed again to the same invoker with the same options, is
prepared without an elimination, without moving the start and with the same kind; and what comes out is the
same problem, functions included. If variables were eliminated, there must be no rows. -/
theorem prepare_canonical_again [SteadyScalar α] {r : Record α}
    (h : (Prep.run e (prepare search invoker i)).1 = .ok r) (hscaled : r.isScaled = false)
    (hkind : r.refinedKind ≠ .linearlyConstrained)
    (hrows : (r.problem.inequalities.hasRows = false ∧ r.problem.equalities.hasRows = false) ∨
      r.isReduced = false) (g g' : Guise α) :
    ∃ r', (Prep.run e (prepare search invoker (r.problem.toInput g g' i.options))).1 = .ok r' ∧
      r'.isReduced = false ∧ ¬r'.ReportsMove ∧ r'.refinedKind = r.refinedKind ∧
      r'.problem = r.problem := by
  obtain ⟨c⟩ := exists_course (Prod.ext h rfl)
  obtain ⟨hproblem, hadjusted, hplain⟩ := c.problem_eq_settled hkind hscaled
  obtain ⟨f, hrest, hdegenerate⟩ := c.atRest hkind hscaled hrows
  have hfits : r.problem.Fits r.refinedDimension := hproblem ▸ c.settled_fits_of_ne hkind
  -- solvers and options are settled for a problem of this kind, of this dimension and with these bounds
  have hsame : r.problem.kind = c.reduced.kind ∧ r.problem.dimension = c.reduced.dimension ∧
      r.problem.bounds = c.reduced.bounds ∧ r.problem.objective = c.reduced.objective := by
    obtain ⟨start, hsettled⟩ := c.settled_eq
    refine ⟨?_, ?_, ?_, ?_⟩
    · rw [hproblem, c.settled_kind, c.refinedKind_eq]
    · exact hfits.length_start.trans c.refinedDimension_eq
    · rw [hproblem, hsettled]
    · rw [hproblem, hsettled]
  obtain ⟨hsamekind, hdimension, hbounds, hfunction⟩ := hsame
  obtain ⟨u, hu⟩ := Option.isSome_iff_exists.1 (hfunction ▸ c.reduced_objective)
  have hi : (r.problem.toInput g g' i.options).stated invoker.name = .ok r.problem :=
    Input.stated_toInput hfits c.refinedDimension_pos (by rw [hu]; rfl) invoker.name g g' i.options
  have hpresent : (r.problem.toInput g g' i.options).objective.isAbsent = false := by
    rw [Problem.toInput, hu]
    rfl
  obtain ⟨r', hr', hnot, hkind', hproblem'⟩ := hrest.exists_prepare hi hpresent
    (by rw [hsamekind]; exact c.handles) (by rw [hdimension, hbounds]; exact c.resolve_eq)
    (hdegenerate ▸ hplain) (by rw [hsamekind, ← hadjusted]; exact c.solver_eq)
  refine ⟨r', hr', hnot, hrest.not_reportsMove hi hpresent hr', ?_, hproblem'⟩
  rw [hkind', hsamekind, c.refinedKind_eq]

/-- Three variables, one fixed, one without bounds and one whose start is outside its bounds, and a row
without coefficients. -/
def crowdedInput : Input Float where
  objective := zeroObjective
  start := .list [.int 5, .int 1, .int 0]
  inequalityRows := .list [.list [.int 0, .int 0, .int 0]]
  inequalityRhs := .list [.int 2]
  lower := .list [.int (-1), .int 1, .real (-infinity)]
  upper := .list [.int 3, .int 1, .real infinity]

def plainGuise : Guise Float := ⟨⟨"function", none⟩, none⟩

/-- The first preparation eliminates a variable, removes the row and moves the start, and the second does
none of this. -/
theorem prepare_canonical_again_crowdedInput : ∃ r r',
    (Prep.run none (prepare .stay .frontEnd crowdedInput)).1 = .ok r ∧
      (r.isReduced, r.facts.trivialInequalities) = (true, [true]) ∧ r.ReportsMove ∧
      (Prep.run none (prepare .stay .frontEnd
        (r.problem.toInput plainGuise plainGuise crowdedInput.options))).1 = .ok r' ∧
      r'.isReduced = false ∧ ¬r'.ReportsMove ∧ r'.refinedKind = .boundConstrained ∧
      r'.problem = r.problem := by
  have hrun : (Prep.run none (prepare .stay .frontEnd crowdedInput)).1.toOption.map
      (fun r => ((r.isReduced, r.facts.trivialInequalities), r.isScaled, r.refinedKind,
        r.problem.inequalities.hasRows, r.problem.equalities.hasRows,
        r.diagnostics.any fun d => d.anomaly.tag == "ReviseX0"))
      = some ((true, [true]), false, .boundConstrained, false, false, true) := by decide +kernel
  obtain ⟨r, hr, hrecord⟩ := exists_of_toOption_map hrun
  simp only [Prod.mk.injEq] at hrecord
  obtain ⟨⟨hreduced, htrivial⟩, hscaled, hkind, hineq, heq, hany⟩ := hrecord
  have hreport : r.ReportsMove := by
    obtain ⟨d, hd, htag⟩ := List.any_eq_true.1 hany
    exact ⟨d, hd, beq_iff_eq.1 htag⟩
  obtain ⟨r', hr', hnot, hsilent, hkind', hproblem⟩ := prepare_canonical_again hr hscaled
    (by rw [hkind]; decide) (.inl ⟨hineq, heq⟩) plainGuise plainGuise
  exact ⟨r, r', hr, by rw [hreduced, htrivial], hreport, hr', hnot, hsilent, hkind'.trans hkind, hproblem⟩

end Presolve
