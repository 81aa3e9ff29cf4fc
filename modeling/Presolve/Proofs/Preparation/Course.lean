import Presolve.Proofs.Preparation.Stages

/-!
# The course of a preparation

A preparation that succeeds passes through its stages in order. `Course` names what each stage made of
what the one before it had made, together with the journals in between, and `exists_course` says that
every successful preparation has one. Statements about whole preparations start from there.
-/

namespace Presolve

open Scalar

variable {α : Type} [Scalar α] [Interchange α]

/-- What the stages of a successful preparation made, one after the other. -/
structure Course (search : NearestSearch α) (invoker : Invoker) (i : Input α)
    (e : Option Category) (j : Journal α) (r : Record α) (k : Journal α) where
  given : Problem α
  stated_eq : i.stated invoker.name = .ok given
  checked : Checked α
  afterCheck : Journal α
  check_eq : (check invoker.name i).outcome e j = (.ok checked, afterCheck)
  checked_of : Checked.Of invoker.name given checked
  reduced : Problem α
  afterReduce : Journal α
  reduce_eq : (reduce checked).outcome e afterCheck = (.ok (reduced, r.elimination), afterReduce)
  handles : invoker.handles reduced.kind = true
  resolved : Settings α
  beforeResolve : Journal α
  beforeResolve_log : beforeResolve.log = afterReduce.log
  afterResolve : Journal α
  resolve_eq : (resolveOptions invoker i.options reduced.dimension reduced.bounds).outcome e
    beforeResolve = (.ok resolved, afterResolve)
  settled : Problem α
  afterSettle : Journal α
  settle_eq : (settleStart search invoker.name reduced.kind checked.facts reduced).outcome e
    afterResolve = (.ok settled, afterSettle)
  adjusted : Settings α
  afterRescale : Journal α
  rescale_eq : (rescaleIfAsked invoker.name checked.facts settled resolved).outcome e afterSettle
    = (.ok (r.problem, r.rescaling, adjusted), afterRescale)
  afterSolver : Journal α
  solver_eq : (settleSolver invoker adjusted reduced.kind r.problem).outcome e afterRescale
    = (.ok r.settings, afterSolver)
  facts_eq : r.facts = checked.facts
  fixedViolation_eq : r.fixedViolation = checked.fixedViolation
  rawDimension_eq : r.rawDimension = checked.problem.dimension
  rawKind_eq : r.rawKind = checked.problem.kind
  refinedDimension_eq : r.refinedDimension = reduced.dimension
  refinedKind_eq : r.refinedKind = reduced.kind
  diagnostics_eq : r.diagnostics = afterSolver.log.entries

variable {search : NearestSearch α} {invoker : Invoker} {i : Input α} {e : Option Category}
  {j k : Journal α} {r : Record α}

/-- An invoker is let through exactly if it handles the kind of the problem. -/
theorem checkKind_eq_ok {kind : ProblemKind} {u : Unit} :
    checkKind invoker kind = .ok u ↔ invoker.handles kind = true := by
  unfold checkKind
  split <;> simp [*]

/-- Every successful preparation passes through the stages. -/
theorem exists_course (h : (prepare search invoker i).outcome e j = (.ok r, k)) :
    Nonempty (Course search invoker i e j r k) := by
  simp only [prepare, Prep.outcome_bind_eq_ok] at h
  -- one result and one journal for each stage; those that only leave a trace change no result
  obtain ⟨checked, j₁, hcheck, ⟨reduced, elimination⟩, j₂, hreduce, h⟩ := h
  simp only [Prep.outcome_leave, Prep.outcome_lift, Prod.mk.injEq] at h
  obtain ⟨_, j₃, ⟨-, rfl⟩, _, j₄, ⟨hkind, rfl⟩, resolved, j₅, hresolve, settled, j₆, hsettle,
    ⟨problem, rescaling, adjusted⟩, j₇, hrescale, h⟩ := h
  simp only [Prep.outcome_diagnostics, Prep.outcome_pure, Prod.mk.injEq, Except.ok.injEq] at h
  obtain ⟨settings, j₈, hsolver, entries, _, ⟨rfl, rfl⟩, _, _, ⟨-, rfl⟩, rfl, rfl⟩ := h
  obtain ⟨given, hgiven, hof⟩ := check_yields (Prep.yields_of_outcome hcheck)
  exact ⟨{
    given, stated_eq := hgiven, checked, afterCheck := j₁, check_eq := hcheck, checked_of := hof
    reduced, afterReduce := j₂, reduce_eq := hreduce
    handles := checkKind_eq_ok.1 hkind
    resolved
    beforeResolve := { j₂ with
      trace := j₂.trace ++ [.classified checked.problem.kind reduced.kind] }
    beforeResolve_log := rfl, afterResolve := j₅, resolve_eq := hresolve
    settled, afterSettle := j₆, settle_eq := hsettle
    adjusted, afterRescale := j₇, rescale_eq := hrescale
    afterSolver := j₈, solver_eq := hsolver
    facts_eq := rfl, fixedViolation_eq := rfl, rawDimension_eq := rfl, rawKind_eq := rfl
    refinedDimension_eq := rfl, refinedKind_eq := rfl, diagnostics_eq := rfl }⟩

/-- A record lists the diagnostics of the journal, and keeps the input in debug mode. -/
theorem prepare_keeps (h : (prepare search invoker i).outcome e j = (.ok r, k)) :
    r.diagnostics = k.log.entries ∧ r.input = if r.settings.debug then some i else none := by
  simp only [prepare, Prep.outcome_bind_eq_ok] at h
  obtain ⟨checked, j₁, -, reduced, j₂, -, _, j₃, -, _, j₄, -, resolved, j₅, -, settled, j₆, -, rescaled,
    j₇, -, settings, j₈, -, diagnostics, j₉, hdiagnostics, _, j₁₀, hleave, h⟩ := h
  simp only [Prep.outcome_diagnostics, Prep.outcome_leave, Prep.outcome_pure, Prod.mk.injEq,
    Except.ok.injEq] at hdiagnostics hleave h
  obtain ⟨rfl, rfl⟩ := hdiagnostics
  obtain ⟨-, rfl⟩ := hleave
  obtain ⟨rfl, rfl⟩ := h
  exact ⟨rfl, rfl⟩

/-- A preparation whose stages succeed one after the other succeeds. -/
theorem prepare_outcome {checked : Checked α} {reduced problem settled : Problem α}
    {elimination : Option (Elimination α)} {rescaling : Option (Rescaling α)}
    {resolved adjusted settings : Settings α} {j₁ j₂ j₃ j₄ j₅ j₆ : Journal α}
    (hcheck : (check invoker.name i).outcome e j = (.ok checked, j₁))
    (hreduce : (reduce checked).outcome e j₁ = (.ok (reduced, elimination), j₂))
    (hhandles : invoker.handles reduced.kind = true)
    (hresolve : (resolveOptions invoker i.options reduced.dimension reduced.bounds).outcome e
      { j₂ with trace := j₂.trace ++ [.classified checked.problem.kind reduced.kind] }
        = (.ok resolved, j₃))
    (hsettle : (settleStart search invoker.name reduced.kind checked.facts reduced).outcome e j₃
      = (.ok settled, j₄))
    (hrescale : (rescaleIfAsked invoker.name checked.facts settled resolved).outcome e j₄
      = (.ok (problem, rescaling, adjusted), j₅))
    (hsolver : (settleSolver invoker adjusted reduced.kind problem).outcome e j₅
      = (.ok settings, j₆)) :
    ((prepare search invoker i).outcome e j).1 = .ok {
      invoker
      facts := checked.facts
      fixedViolation := checked.fixedViolation
      rawDimension := checked.problem.dimension
      rawKind := checked.problem.kind
      refinedDimension := reduced.dimension
      refinedKind := reduced.kind
      elimination, rescaling
      diagnostics := j₆.log.entries
      input := if settings.debug then some i else none
      problem, settings } := by
  have hkind : checkKind invoker reduced.kind = .ok () := checkKind_eq_ok.2 hhandles
  simp only [prepare, Prep.outcome_bind, hcheck, hreduce, Prep.outcome_leave, Prep.outcome_lift, hkind,
    hresolve, hsettle, hrescale, hsolver, Prep.outcome_diagnostics, Prep.outcome_pure]

namespace Course

variable (c : Course search invoker i e j r k)

include c

/-! ## Dimensions -/

theorem given_fits : c.given.Fits c.given.dimension := (Input.stated_fits c.stated_eq).1

theorem dimension_pos : 0 < c.given.dimension := (Input.stated_fits c.stated_eq).2

theorem checked_fits : c.checked.problem.Fits c.given.dimension :=
  c.checked_of.problem_fits c.given_fits

theorem length_fixed : c.checked.facts.fixed.length = c.given.dimension :=
  c.checked_of.length_fixed c.given_fits

theorem rawDimension_eq_dimension : r.rawDimension = c.given.dimension := by
  rw [c.rawDimension_eq]
  exact c.checked_fits.length_start

theorem elimination_fits :
    (c.checked.problem.bounds.elimination c.checked.facts.fixed).Fits c.given.dimension :=
  Bounds.elimination_fits c.checked_fits.length_lower c.checked_fits.length_upper c.length_fixed

/-- The elimination and the reduced problem in closed form. -/
theorem reduced_eq :
    if c.checked.facts.eliminates then
      r.elimination = some (c.checked.problem.bounds.elimination c.checked.facts.fixed) ∧
        c.reduced = c.checked.problem.reducedBy
          (c.checked.problem.bounds.elimination c.checked.facts.fixed)
    else r.elimination = none ∧ c.reduced = c.checked.problem :=
  reduce_yields c.checked_fits c.dimension_pos c.length_fixed (Prep.yields_of_outcome c.reduce_eq)

/-- The facts of a record and its elimination agree about the fixed variables and their values. -/
theorem elimination_facts {el : Elimination α} (hel : r.elimination = some el) :
    el.fixed = r.facts.fixed ∧ el.fixedValues = r.facts.fixedValues := by
  have h := c.reduced_eq
  split at h
  · obtain rfl := Option.some.inj (hel.symm.trans h.1)
    obtain ⟨hfixed, -, hvalues⟩ := Facts.ofConstraints_eq_ok c.checked_of.facts_eq
    rw [← hfixed, Bounds.middles_eq c.given_fits.length_lower c.given_fits.length_upper
      c.length_fixed] at hvalues
    rw [c.facts_eq, c.checked_of.bounds_eq]
    exact ⟨Mask.others_others _, Except.ok.inj hvalues⟩
  · rw [h.1] at hel
    cases hel

/-- A problem keeps at least one variable. -/
theorem reduced_fits_pos : c.reduced.Fits r.refinedDimension ∧ 0 < r.refinedDimension := by
  obtain ⟨m, hm, hpos⟩ := reduce_fits c.checked_fits c.dimension_pos c.length_fixed
    (Prep.yields_of_outcome c.reduce_eq)
  rw [c.refinedDimension_eq, Problem.dimension, hm.length_start]
  exact ⟨hm, hpos⟩

theorem reduced_fits : c.reduced.Fits r.refinedDimension := c.reduced_fits_pos.1

theorem refinedDimension_pos : 0 < r.refinedDimension := c.reduced_fits_pos.2

/-! ## Objectives -/

theorem checked_objective : c.checked.problem.objective.isSome := by
  obtain ⟨f, hf⟩ := Option.isSome_iff_exists.1 (Input.stated_objective c.stated_eq)
  rw [c.checked_of.problem_eq]
  simp [Problem.withoutTrivialRows, Problem.guarded, hf]

theorem reduced_objective : c.reduced.objective.isSome := by
  have h := c.reduced_eq
  split at h <;> rw [h.2]
  · rfl
  · exact c.checked_objective

theorem settled_eq : ∃ start, c.settled = { c.reduced with start } := by
  rcases settleStart_yields (Prep.yields_of_outcome c.settle_eq) with h | ⟨-, start, _, -, h⟩
  · exact ⟨c.reduced.start, h⟩
  · exact ⟨start, h⟩

/-! ## Dimensions of what is left -/

theorem settled_fits (hsearch : search.KeepsDimension) : c.settled.Fits r.refinedDimension :=
  (settleStart_fits hsearch c.reduced_fits (Prep.yields_of_outcome c.settle_eq)).1

/-- Where no start is searched for, a settled problem fits in any case. -/
theorem settled_fits_of_ne (hkind : r.refinedKind ≠ .linearlyConstrained) :
    c.settled.Fits r.refinedDimension := by
  rcases settleStart_yields (Prep.yields_of_outcome c.settle_eq) with h | ⟨-, start, _, hstart, h⟩
  · rw [h]
    exact c.reduced_fits
  · rw [c.refinedKind_eq] at hkind
    rw [h]
    exact { c.reduced_fits with
      length_start := Problem.length_feasibleStart_of_ne hkind c.reduced_fits hstart }

/-- The rescaling and the canonical problem in closed form. -/
theorem problem_eq (hsettled : c.settled.Fits r.refinedDimension) :
    if c.resolved.scale && !c.checked.facts.isDegenerate then
      r.rescaling = some (.fitted c.settled.start c.settled.bounds) ∧
        r.problem = c.settled.rescaledBy (.fitted c.settled.start c.settled.bounds) ∧
        (∀ least, minimum? (Rescaling.fitted c.settled.start c.settled.bounds).factor = some least →
          ¬least < epsilon) ∧
        ∃ substantial, (Rescaling.fitted c.settled.start c.settled.bounds).isSubstantial
            = .ok substantial ∧
          c.adjusted = if substantial then c.resolved.withUnitRadius else c.resolved
    else r.rescaling = none ∧ r.problem = c.settled ∧ c.adjusted = c.resolved :=
  rescaleIfAsked_yields hsettled c.refinedDimension_pos (Prep.yields_of_outcome c.rescale_eq)

theorem rescaling_fits (hsettled : c.settled.Fits r.refinedDimension) :
    (Rescaling.fitted c.settled.start c.settled.bounds).Fits r.refinedDimension :=
  Rescaling.fitted_fits hsettled.length_start hsettled.length_lower hsettled.length_upper

/-- The canonical problem has the refined dimension. -/
theorem problem_fits (hsearch : search.KeepsDimension) : r.problem.Fits r.refinedDimension :=
  rescaleIfAsked_fits (c.settled_fits hsearch) c.refinedDimension_pos
    (Prep.yields_of_outcome c.rescale_eq)

end Course
end Presolve
