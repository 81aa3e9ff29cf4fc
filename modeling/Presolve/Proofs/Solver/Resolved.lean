import Presolve.Proofs.Preparation.Course

/-!
# Resolved settings

What the stages before and after the choice of a solver make of the settings. The solver, the number of
points and the budget are resolved one after the other, each from those before it; nothing that is
resolved later changes them.
-/

namespace Presolve

open Scalar

variable {α : Type} [Scalar α] [Interchange α]

namespace Resolution

variable {c : Context α}

/-- The solver that a context asks for: the invoker itself or, for the front end, the one that the
options name. -/
def Context.asked? (c : Context α) : Option Solver :=
  match c.invoker with
  | .solver s => some s
  | .frontEnd => (c.find? .solver).bind fun v => Solver.parse? (requestedName v)

omit [Scalar α] in
/-- The solver that options are resolved for is the one that is asked for. -/
theorem solver_yields {s? : Option Solver} (h : (solver c).Yields s?) : s? = c.asked? := by
  unfold solver at h
  -- by invoker, and by whether the options name a solver
  split at h
  · next hinvoker hnone =>
    rw [Context.asked?, hinvoker, hnone]
    exact (Prep.yields_pure.1 h).symm
  · next hinvoker hsome =>
    rw [Context.asked?, hinvoker, hsome]
    exact (Prep.yields_pure.1 h.of_step).symm
  · next hinvoker hnone =>
    rw [Context.asked?, hinvoker]
    exact (Prep.yields_pure.1 h).symm
  · next hinvoker hsome =>
    rw [Context.asked?, hinvoker]
    exact (Prep.yields_pure.1 h.of_step).symm

/-- The steps of a resolution that resulted in the settings `s`, each with its own result. -/
structure Leads (c : Context α) (s : Settings α) : Prop where
  solver : (solver c).Yields s.solver
  unknown : (checkUnknown c s.solver).Yields ()
  npt : (npt c s.solver).Yields s.npt
  maxfun : (maxfun c s.solver s.npt).Yields s.maxfun
  radii : ∃ first last, defaultRadii c s.solver = .ok (first, last) ∧
    (rhobeg c s.solver first).Yields s.rhobeg ∧
    (rhoend c s.rhobeg (radiusRatio first last)).Yields s.rhoend
  ftarget : (ftarget c).Yields s.ftarget
  classical : (flag c .classical).Yields s.classical
  scale : (flag c .scale).Yields s.scale
  quiet : (flag c .quiet).Yields s.quiet
  debug : (flag c .debug).Yields s.debug
  chkfunval : (chkfunval c s.debug).Yields s.chkfunval

/-- The settings that a context is resolved to are those that its steps lead to. -/
theorem settings_yields {s : Settings α} (h : (settings c).Yields s) : Leads c s := by
  -- one result for each step; the reports in between are passed over
  obtain ⟨named, hnamed, h⟩ := h.of_bind
  obtain ⟨⟨⟩, hunknown, h⟩ := h.of_bind
  obtain ⟨⟨first, last⟩, hdefaults, h⟩ := h.of_bind
  obtain ⟨points, hpoints, h⟩ := h.of_bind
  obtain ⟨budget, hbudget, h⟩ := h.of_bind
  obtain ⟨beginning, hbeginning, h⟩ := h.of_bind
  obtain ⟨ending, hending, h⟩ := h.of_bind
  obtain ⟨target, htarget, h⟩ := h.of_bind
  obtain ⟨classical, hclassical, h⟩ := h.of_bind
  obtain ⟨scaled, hscaled, h⟩ := h.of_step.of_bind
  obtain ⟨quiet, hquiet, h⟩ := h.of_bind
  obtain ⟨debug, hdebug, h⟩ := h.of_bind
  obtain ⟨checked, hchecked, h⟩ := h.of_step.of_bind
  have h := h.of_step
  rw [Prep.yields_pure] at h
  subst h
  exact ⟨hnamed, hunknown, hpoints, hbudget,
    ⟨first, last, Prep.yields_lift.1 hdefaults, hbeginning, hending⟩, htarget, hclassical, hscaled,
    hquiet, hdebug, hchecked⟩

end Resolution

/-- Options are resolved in the context of their entries. -/
theorem resolveOptions_yields {invoker : Invoker} {options : Value α} {n : Nat} {bounds : Bounds α}
    {s : Settings α} (h : (resolveOptions invoker options n bounds).Yields s) :
    ∃ entries, readEntries invoker.name options = .ok entries ∧
      (Resolution.settings ⟨invoker, n, bounds, entries⟩).Yields s := by
  obtain ⟨entries, hentries, h⟩ := h.of_bind
  exact ⟨entries, Prep.yields_lift.1 hentries, h⟩

/-! ## Settings along a preparation -/

namespace Course

variable {search : NearestSearch α} {invoker : Invoker} {i : Input α} {e : Option Category}
  {j k : Journal α} {r : Record α}

/-- The context that options are resolved in. -/
def context (c : Course search invoker i e j r k) (entries : Entries α) : Resolution.Context α :=
  ⟨invoker, r.refinedDimension, c.reduced.bounds, entries⟩

variable (c : Course search invoker i e j r k)

include c

theorem resolved_yields : ∃ entries, readEntries invoker.name i.options = .ok entries ∧
    (Resolution.settings (c.context entries)).Yields c.resolved := by
  simp only [context, c.refinedDimension_eq]
  exact resolveOptions_yields (Prep.yields_of_outcome c.resolve_eq)

/-- Rescaling leaves the settings as they are, except for the radii. -/
theorem adjusted_eq (hsearch : search.KeepsDimension) :
    c.adjusted = c.resolved ∨ c.adjusted = c.resolved.withUnitRadius := by
  have h := c.problem_eq (c.settled_fits hsearch)
  split at h
  · obtain ⟨-, -, -, substantial, -, h⟩ := h
    cases substantial with
    | true => exact .inr h
    | false => exact .inl h
  · exact .inl h.2.2

/-- The solver before selection is the one that is asked for. -/
theorem adjusted_solver (hsearch : search.KeepsDimension) : ∃ entries,
    readEntries invoker.name i.options = .ok entries ∧
      c.adjusted.solver = (c.context entries).asked? := by
  obtain ⟨entries, hentries, hresolved⟩ := c.resolved_yields
  have hsolver := Resolution.solver_yields (Resolution.settings_yields hresolved).solver
  refine ⟨entries, hentries, ?_⟩
  rcases c.adjusted_eq hsearch with h | h <;> rw [h]
  · exact hsolver
  · exact hsolver

/-- The problem that the solver is selected for has the refined dimension. -/
theorem problem_dimension (hsearch : search.KeepsDimension) :
    r.problem.dimension = r.refinedDimension := (c.problem_fits hsearch).length_start

end Course

end Presolve
