import Presolve.Proofs.Solver.Resolved

/-!
# Selected solvers

What selection does with settings: it keeps the solver that they name if that one handles the problem, and
otherwise adapts them to the solver of the first rule that applies. Only the second of these is reported,
and only where a solver was named.
-/

namespace Presolve

open Scalar

variable {α : Type} [Scalar α]

namespace Settings

/-- The settings `t` are those of `s` for the solver of the first rule that applies. -/
def AdaptsTo (s : Settings α) (rules : List SelectionRule) (kind : ProblemKind) (n : Nat)
    (bounds : Bounds α) (t : Settings α) : Prop :=
  ∃ rule, SelectionRule.first? rules kind n s.maxfun = some rule ∧
    rule.solver.handles kind = true ∧ s.adapt rule.solver n bounds = .ok t

/-- The settings for another solver keep the budget, and have points only for a solver with an option
for them. -/
theorem adapt_eq_ok {s t : Settings α} {solver : Solver} {n : Nat} {bounds : Bounds α}
    (h : s.adapt solver n bounds = .ok t) :
    t.solver = some solver ∧ t.maxfun = s.maxfun ∧
      t.npt = if solver.takesNpt then some (min (2 * (n : Int) + 1) (s.maxfun - 1)) else s.npt := by
  unfold adapt at h
  simp only at h
  split at h
  · obtain ⟨_, -, h⟩ := bind_eq_ok.1 h
    cases h
    exact ⟨rfl, rfl, rfl⟩
  · cases h
    exact ⟨rfl, rfl, rfl⟩

/-- The settings for another solver differ in the solver, the number of points and the radii alone. -/
theorem adapt_changes {s t : Settings α} {solver : Solver} {n : Nat} {bounds : Bounds α}
    (h : s.adapt solver n bounds = .ok t) :
    ∃ npt rhobeg rhoend, t = { s with npt, rhobeg, rhoend, solver := some solver } := by
  unfold adapt at h
  simp only at h
  split at h
  · obtain ⟨_, -, h⟩ := bind_eq_ok.1 h
    cases h
    exact ⟨_, _, _, rfl⟩
  · cases h
    exact ⟨_, s.rhobeg, s.rhoend, rfl⟩

/-- The radii of settings that were adapted to a solver that limits its radius. -/
theorem adapt_radii {s t : Settings α} {solver : Solver} {n : Nat} {bounds : Bounds α}
    (hlimits : solver.limitsRadius = true) (h : s.adapt solver n bounds = .ok t) :
    ∃ halfWidth, bounds.halfWidth = .ok halfWidth ∧
      (t.rhobeg, t.rhoend) = fittedRadii s.rhobeg s.rhoend halfWidth := by
  unfold adapt at h
  rw [if_pos hlimits] at h
  obtain ⟨halfWidth, hwidth, h⟩ := bind_eq_ok.1 h
  cases h
  exact ⟨halfWidth, hwidth, rfl⟩

end Settings

variable {rules : List SelectionRule} {s t : Settings α} {kind : ProblemKind} {n : Nat}
  {bounds : Bounds α} {invoker : Invoker} {e : Option Category} {j k : Journal α}

theorem choose_outcome (h : (selectSolver.choose rules s kind n bounds).outcome e j = (.ok t, k)) :
    s.AdaptsTo rules kind n bounds t ∧ k.log = j.log := by
  obtain ⟨rule, l, hrule, h⟩ := Prep.outcome_bind_eq_ok.1 h
  rw [Prep.outcome_lift, Prod.mk.injEq] at hrule
  obtain ⟨hrule, rfl⟩ := hrule
  -- a rule whose solver does not handle the problem would end the preparation
  obtain ⟨hhandles, h⟩ := Prep.outcome_of_guard h
  obtain ⟨_, l', hleave, h⟩ := Prep.outcome_bind_eq_ok.1 h
  cases hleave
  rw [Prep.outcome_lift, Prod.mk.injEq] at h
  obtain ⟨hadapt, rfl⟩ := h
  unfold matchRule at hrule
  split at hrule
  · next found hfound =>
    cases hrule
    exact ⟨⟨rule, hfound, by simpa using hhandles, hadapt⟩, rfl⟩
  · cases hrule

variable [Interchange α]

/-- What selection makes of settings and adds to the log. -/
theorem selectSolver_outcome
    (h : (selectSolver rules s kind n bounds invoker).outcome e j = (.ok t, k)) :
    match s.solver with
    | some solver =>
      if solver.handles kind then t = s ∧ k.log.entries = j.log.entries
      else s.AdaptsTo rules kind n bounds t ∧
        k.log.entries = j.log.entries ++ [⟨invoker.name, .unsuitableSolver solver kind⟩]
    | none => s.AdaptsTo rules kind n bounds t ∧ k.log.entries = j.log.entries := by
  unfold selectSolver at h
  replace h := (Prep.outcome_of_guard h).2
  cases hsolver : s.solver with
  | some solver =>
    simp only [hsolver] at h
    split at h
    · next hhandles =>
      -- kept: the trace grows, the log does not
      obtain ⟨_, l, hleave, h⟩ := Prep.outcome_bind_eq_ok.1 h
      cases hleave
      rw [Prep.outcome_pure, Prod.mk.injEq] at h
      obtain ⟨hs, rfl⟩ := h
      cases hs
      exact (if_pos hhandles).mpr ⟨rfl, rfl⟩
    · next hhandles =>
      -- in vain: the report comes first and the table second
      obtain ⟨_, l, hreport, h⟩ := Prep.outcome_bind_eq_ok.1 h
      have hentries := Prep.entries_report (e := e) (j := j) invoker.name
        (.unsuitableSolver solver kind)
      rw [hreport] at hentries
      obtain ⟨hadapts, hlog⟩ := choose_outcome h
      refine (if_neg hhandles).mpr ⟨hadapts, ?_⟩
      rw [hlog]
      exact hentries
  | none =>
    simp only [hsolver] at h
    obtain ⟨hadapts, hlog⟩ := choose_outcome h
    exact ⟨hadapts, congrArg _ hlog⟩

/-- The settings with the solver for an invoker are those before, or were adapted in place of a solver that
does not handle the problem. -/
theorem settleSolver_yields {invoker : Invoker} {s t : Settings α} {kind : ProblemKind} {p : Problem α}
    (h : (settleSolver invoker s kind p).Yields t) :
    t = s ∨ s.AdaptsTo SelectionRule.table kind p.dimension p.bounds t ∧
      ∀ asked, s.solver = some asked → asked.handles kind = false := by
  unfold settleSolver at h
  split at h
  · obtain ⟨e, j, k, h⟩ := h
    have h := selectSolver_outcome h
    cases hsolver : s.solver with
    | some asked =>
      simp only [hsolver] at h
      split at h
      · exact .inl h.1
      · next hhandles =>
        refine .inr ⟨h.1, ?_⟩
        intro _ hasked
        cases hasked
        exact eq_false_of_ne_true hhandles
    | none =>
      simp only [hsolver] at h
      exact .inr ⟨h.1, fun _ hasked => nomatch hasked⟩
  · exact .inl (Prep.yields_pure.1 h).symm

end Presolve
