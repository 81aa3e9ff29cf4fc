import Presolve.Proofs.Number.Valued
import Presolve.Proofs.Preparation.Escalation
import Presolve.Proofs.Solver.Decision

/-!
# The kinds of a problem before and after elimination

A preparation classifies a problem twice, as it was checked and without its fixed variables. Elimination keeps
the nonlinear constraints, and it keeps the rows: every row that is left has a coefficient for each of the
variables that are left. It can only lose bounds. A problem with a fixed variable has finite bounds, so its
kind is another one afterwards exactly if bounds were all that it had and the variables that are left have
none.

So a solver that handles the problem as it was checked handles what is left of it.
-/

namespace Presolve

open Scalar

variable {α : Type}

/-! ## Rows -/

/-- A system about at least one variable has entries if it has a row. -/
theorem LinearSystem.Fits.hasRows_iff {s : LinearSystem α} {n : Nat} (h : s.Fits n) (hn : 0 < n) :
    s.hasRows = true ↔ s.rows ≠ [] := by
  constructor
  · intro hrows hempty
    rw [LinearSystem.hasRows, hempty] at hrows
    cases hrows
  · intro hrows
    by_contra hnone
    rw [Bool.not_eq_true] at hnone
    exact hrows (congrArg LinearSystem.rows (h.eq_empty hn hnone))

variable [Scalar α]

/-- Where a variable is left, elimination leaves rows if there were any. -/
theorem LinearSystem.Fits.hasRows_reducedSystem {s : LinearSystem α} {e : Elimination α} {n : Nat}
    (hs : s.Fits n) (he : e.Fits n) (hn : 0 < n) (hleft : 0 < e.dimension) :
    (e.reducedSystem s).hasRows = s.hasRows := by
  rw [Bool.eq_iff_iff, (he.reducedSystem_fits hs).hasRows_iff hleft, hs.hasRows_iff hn]
  exact not_congr List.map_eq_nil_iff

/-! ## Bounds -/

/-- No bound is undefined. -/
def Bounds.IsDefined (b : Bounds α) : Prop := (∀ lo ∈ b.lower, lo ≤ lo) ∧ ∀ hi ∈ b.upper, hi ≤ hi

/-- No bound is finite, and none excludes everything. -/
def Bounds.IsFree (b : Bounds α) : Prop :=
  (∀ lo ∈ b.lower, same lo (-infinity) = true) ∧ ∀ hi ∈ b.upper, same hi infinity = true

section

variable [ValuedScalar α] {b : Bounds α}

theorem Bounds.IsDefined.restricts_eq_false_iff (h : b.IsDefined) : b.restricts = false ↔ b.IsFree := by
  rw [← Bool.not_eq_true, restricts_iff h.1 h.2, not_or, IsFree]
  simp only [not_exists, not_and]
  exact and_congr (forall₂_congr fun lo hlo => (ValuedScalar.same_neg_infinity_iff (h.1 lo hlo)).symm)
    (forall₂_congr fun hi hhi => (ValuedScalar.same_infinity_iff (h.2 hi hhi)).symm)

/-- Bounds that fix a variable are finite, so they restrict the problem. -/
theorem Bounds.IsDefined.restricts_of_fixed (h : b.IsDefined) (hfixed : true ∈ b.fixed) :
    b.restricts = true := by
  rw [restricts_iff h.1 h.2]
  obtain ⟨lo, hlo, hi, -, hfixes⟩ := exists_of_mem_zipWith hfixed
  have hfinite := ValuedScalar.isFinite_of_abs_sub_lt (of_decide_eq_true hfixes)
  exact .inl ⟨lo, hlo, (ValuedScalar.bounded_of_isFinite hfinite.1).1⟩

omit [ValuedScalar α] in
theorem Bounds.IsDefined.reducedBy {p : Problem α} (h : p.bounds.IsDefined) (e : Elimination α) :
    (p.reducedBy e).bounds.IsDefined :=
  ⟨fun lo hlo => h.1 lo (Mask.mem_of_mem_select hlo), fun hi hhi => h.2 hi (Mask.mem_of_mem_select hhi)⟩

end

/-! ## Kinds -/

/-- Where bounds that restrict a problem are replaced, the kind of the problem is another one exactly if
there is nothing else that restricts it. -/
theorem ProblemKind.ofConstraints_demoted (A B : LinearSystem α) {b : Bounds α} (b' : Bounds α)
    (c : Bool) (hb : b.restricts = true) :
    ofConstraints A B b' c ≤ ofConstraints A B b c ∧
      (ofConstraints A B b' c ≠ ofConstraints A B b c ↔
        c = false ∧ A.hasRows = false ∧ B.hasRows = false ∧ b'.restricts = false) ∧
      (ofConstraints A B b' c ≠ ofConstraints A B b c →
        ofConstraints A B b c = .boundConstrained ∧ ofConstraints A B b' c = .unconstrained) := by
  simp only [ofConstraints, hb]
  cases c <;> cases A.hasRows <;> cases B.hasRows <;> cases b'.restricts <;> decide

theorem Problem.kind_reducedBy {p : Problem α} {e : Elimination α} {n : Nat} (hp : p.Fits n) (he : e.Fits n)
    (hn : 0 < n) (hleft : 0 < e.dimension) : (p.reducedBy e).kind
      = .ofConstraints p.inequalities p.equalities (p.reducedBy e).bounds p.constraints.isSome := by
  have hinequalities : (p.reducedBy e).inequalities.hasRows = p.inequalities.hasRows :=
    hp.inequalities.hasRows_reducedSystem he hn hleft
  have hequalities : (p.reducedBy e).equalities.hasRows = p.equalities.hasRows :=
    hp.equalities.hasRows_reducedSystem he hn hleft
  have hconstraints : (p.reducedBy e).constraints.isSome = p.constraints.isSome := Option.isSome_map
  rw [kind, ProblemKind.ofConstraints, hinequalities, hequalities, hconstraints, ProblemKind.ofConstraints]

/-! ## Preparations -/

section

variable [Interchange α]

omit [Scalar α] in
/-- What a preparation left in the trace stays there. -/
theorem Prep.Built.trace_prefix {β : Type} {p : Prep α β} (hp : p.Built) (e : Option Category)
    (j : Journal α) : j.trace <+: (p.outcome e j).2.trace := by
  induction hp generalizing j with
  | lift x => exact List.prefix_rfl
  | leave v => exact List.prefix_append _ _
  | report source a => exact List.prefix_append _ _
  | diagnostics => exact List.prefix_rfl
  | @bind β γ p f hp hf ihp ihf =>
    have hfirst := ihp j
    rw [outcome_bind]
    rcases h : p.outcome e j with ⟨x | b, l⟩
    · rwa [h] at hfirst
    · rw [h] at hfirst
      exact hfirst.trans (ihf b l)

variable {search : NearestSearch α} {invoker : Invoker} {i : Input α} {e : Option Category}
  {given p : Problem α} {elimination : Option (Elimination α)}

theorem Checked.Of.kind_eq {source : String} {c : Checked α} (h : Checked.Of source given c) :
    c.problem.kind = given.withoutTrivialRows.kind := by
  rw [h.problem_eq]
  exact congrArg (ProblemKind.ofConstraints _ _ _) Option.isSome_map

/-- A run whose checks and elimination succeed leaves the two kinds in the trace, however it ends. -/
theorem classified_mem_trace (hgiven : i.stated invoker.name = .ok given)
    (hvalid : (Prep.run e (check invoker.name i >>= reduce)).1 = .ok (p, elimination)) :
    Event.classified given.withoutTrivialRows.kind p.kind ∈
      (Prep.run e (prepare search invoker i)).2.trace := by
  obtain ⟨checked, l, hcheck, hreduce⟩ := Prep.outcome_bind_eq_ok.1 (Prod.ext hvalid rfl)
  obtain ⟨_, hgiven', hof⟩ := check_yields (Prep.yields_of_outcome hcheck)
  obtain rfl := Except.ok.inj (hgiven.symm.trans hgiven')
  have hrun : Prep.run e (prepare search invoker i) = _ :=
    (Prep.outcome_bind_of_ok hcheck).trans (Prep.outcome_bind_of_ok hreduce)
  rw [hrun, ← hof.kind_eq, Prep.outcome_bind_of_ok (Prep.outcome_leave _)]
  -- what comes after the classification only adds to the trace
  refine (Prep.Built.trace_prefix ?_ _ _).subset (List.mem_append_right _ List.mem_cons_self)
  refine (Prep.Built.lift _).bind fun _ => ?_
  refine (resolveOptions_stepwise invoker _ _ _).built.bind fun resolved => ?_
  refine (settleStart_stepwise search invoker.name _ _ _).built.bind fun settled => ?_
  refine (rescaleIfAsked_stepwise invoker.name _ _ _).built.bind fun rescaled => ?_
  refine (settleSolver_stepwise invoker _ _ _).built.bind fun settings => ?_
  exact Prep.Built.diagnostics.bind fun _ => (Prep.Built.leave _).bind fun _ => .pure _

/-- The kind of what is left of a problem, beside the kind of the problem as it was checked. -/
theorem reduce_demotes_kind [ValuedScalar α] (hgiven : i.stated invoker.name = .ok given)
    (hdefined : given.bounds.IsDefined)
    (hvalid : (Prep.run e (check invoker.name i >>= reduce)).1 = .ok (p, elimination)) :
    p.kind ≤ given.withoutTrivialRows.kind ∧
      (p.kind ≠ given.withoutTrivialRows.kind ↔ elimination.isSome = true ∧ given.constraints = none ∧
        given.withoutTrivialRows.inequalities.rows = [] ∧ given.withoutTrivialRows.equalities.rows = [] ∧
        p.bounds.IsFree) ∧
      (p.kind ≠ given.withoutTrivialRows.kind →
        given.withoutTrivialRows.kind = .boundConstrained ∧ p.kind = .unconstrained) := by
  obtain ⟨c, l, hcheck, hreduce⟩ := Prep.outcome_bind_eq_ok.1 (Prod.ext hvalid rfl)
  obtain ⟨_, hgiven', hof⟩ := check_yields (Prep.yields_of_outcome hcheck)
  obtain rfl := Except.ok.inj (hgiven.symm.trans hgiven')
  obtain ⟨hfits, hn⟩ := Input.stated_fits hgiven
  have hchecked := hof.problem_fits hfits
  have hreduced := reduce_yields hchecked hn (hof.length_fixed hfits) (Prep.yields_of_outcome hreduce)
  rw [← hof.kind_eq]
  split at hreduced
  · next heliminates =>
    obtain ⟨rfl, rfl⟩ := hreduced
    obtain ⟨hsome, hleft, -⟩ := Facts.eliminates_iff.1 heliminates
    have helimination := Bounds.elimination_fits hchecked.length_lower hchecked.length_upper
      (hof.length_fixed hfits)
    have hpos : 0 < (c.problem.bounds.elimination c.facts.fixed).dimension :=
      Mask.count_others_pos (by simpa using hleft)
    have hdefined' : c.problem.bounds.IsDefined := hof.bounds_eq ▸ hdefined
    rw [(Facts.ofConstraints_eq_ok hof.facts_eq).1, ← hof.bounds_eq] at hsome
    have hdemoted := ProblemKind.ofConstraints_demoted c.problem.inequalities c.problem.equalities
      (c.problem.reducedBy (c.problem.bounds.elimination c.facts.fixed)).bounds
      c.problem.constraints.isSome (hdefined'.restricts_of_fixed hsome)
    -- what the kind depends on is said of the stated problem
    have hconstraints : c.problem.constraints.isSome = false ↔ given.constraints = none := by
      rw [hof.problem_eq, Option.isSome_eq_false_iff, Option.isNone_iff_eq_none]
      exact Option.map_eq_none_iff
    have hrows {s t : LinearSystem α} (hs : s = t) (hfits : s.Fits given.dimension) :
        s.hasRows = false ↔ t.rows = [] := by
      rw [← hs, ← Bool.not_eq_true, hfits.hasRows_iff hn, not_not]
    have hinequalities := hrows (congrArg Problem.inequalities hof.problem_eq) hchecked.inequalities
    have hequalities := hrows (congrArg Problem.equalities hof.problem_eq) hchecked.equalities
    rw [Problem.kind_reducedBy hchecked helimination hn hpos]
    refine ⟨hdemoted.1, hdemoted.2.1.trans ?_, hdemoted.2.2⟩
    rw [hconstraints, hinequalities, hequalities, (hdefined'.reducedBy _).restricts_eq_false_iff]
    exact (and_iff_right rfl).symm
  · obtain ⟨rfl, rfl⟩ := hreduced
    exact ⟨Nat.le_refl _, by simp, fun h => absurd rfl h⟩

/-- Elimination only ever demotes a problem, from one with bounds to one without constraints, and exactly where
the bounds of the eliminated variables were all that restricted it. So a solver that handles the problem as it
was checked is not refused. -/
theorem prepare_demotes_kind [ValuedScalar α] (hgiven : i.stated invoker.name = .ok given)
    (hdefined : given.bounds.IsDefined)
    (hvalid : (Prep.run e (check invoker.name i >>= reduce)).1 = .ok (p, elimination)) :
    Event.classified given.withoutTrivialRows.kind p.kind ∈
      (Prep.run e (prepare search invoker i)).2.trace ∧
    p.kind ≤ given.withoutTrivialRows.kind ∧
    (p.kind ≠ given.withoutTrivialRows.kind ↔ elimination.isSome = true ∧ given.constraints = none ∧
      given.withoutTrivialRows.inequalities.rows = [] ∧ given.withoutTrivialRows.equalities.rows = [] ∧
      p.bounds.IsFree) ∧
    (p.kind ≠ given.withoutTrivialRows.kind →
      given.withoutTrivialRows.kind = .boundConstrained ∧ p.kind = .unconstrained) ∧
    (∀ own, invoker = .solver own → own.handles given.withoutTrivialRows.kind = true →
      own.handles p.kind = true ∧ (search.NeverRefuses →
        ∀ x, (Prep.run e (prepare search invoker i)).1 = .error x → ¬x.IsRefusal)) ∧
    ∀ r, (Prep.run e (prepare search invoker i)).1 = .ok r →
      r.rawKind = given.withoutTrivialRows.kind ∧ r.refinedKind = p.kind ∧
        r.elimination = elimination := by
  obtain ⟨hle, hiff, hkinds⟩ := reduce_demotes_kind hgiven hdefined hvalid
  refine ⟨classified_mem_trace hgiven hvalid, hle, hiff, hkinds, ?_, ?_⟩
  · rintro own rfl hraw
    have hhandles : own.handles p.kind = true := Solver.handles_of_le hle hraw
    refine ⟨hhandles, fun hsearch x hx hrefusal => ?_⟩
    have hrefused := (prepare_isRefusal_iff hsearch hvalid).1 ⟨x, hx, hrefusal⟩
    rw [hhandles] at hrefused
    cases hrefused
  · intro r hr
    obtain ⟨c⟩ := exists_course (Prod.ext hr rfl)
    obtain rfl := Except.ok.inj (hgiven.symm.trans c.stated_eq)
    -- the run passes through the same checks and the same elimination
    have hsame : (Prep.run e (check invoker.name i >>= reduce)).1 = .ok (c.reduced, r.elimination) :=
      congrArg Prod.fst ((Prep.outcome_bind_of_ok c.check_eq).trans c.reduce_eq)
    obtain ⟨rfl, rfl⟩ := Prod.mk.inj (Except.ok.inj (hvalid.symm.trans hsame))
    exact ⟨c.rawKind_eq.trans c.checked_of.kind_eq, c.refinedKind_eq, rfl⟩

end

/-- A problem whose only bounds fix a variable is prepared for a solver that handles bounds, and is left without
any. -/
theorem prepare_demotes_kind_pinnedInput : ∃ given p elimination,
    pinnedInput.stated (Invoker.solver .bobyqa).name = .ok given ∧
      (Prep.run none (check (Invoker.solver .bobyqa).name pinnedInput >>= reduce)).1
        = .ok (p, elimination) ∧
      elimination.isSome = true ∧ given.withoutTrivialRows.kind = .boundConstrained ∧
      p.kind = .unconstrained ∧
      ∀ x, (Prep.run none (prepare NearestSearch.stay (.solver .bobyqa) pinnedInput)).1 = .error x →
        ¬x.IsRefusal := by
  have hstated : (pinnedInput.stated (Invoker.solver .bobyqa).name).toOption.map
      (fun given => (given.bounds.lower, given.bounds.upper, given.withoutTrivialRows.kind))
        = some ([.bottom, .finite 1], [.top, .finite 1], .boundConstrained) := by decide +kernel
  have hrun : (Prep.run none (check (Invoker.solver .bobyqa).name pinnedInput >>= reduce)).1.toOption.map
      (fun r => (r.1.kind, r.2.isSome)) = some (.unconstrained, true) := by decide +kernel
  obtain ⟨given, hgiven, hparts⟩ := exists_of_toOption_map hstated
  obtain ⟨⟨p, elimination⟩, hvalid, hkinds⟩ := exists_of_toOption_map hrun
  simp only [Prod.mk.injEq] at hparts hkinds
  obtain ⟨hlower, hupper, hraw⟩ := hparts
  have hdefined : given.bounds.IsDefined := by
    rw [Bounds.IsDefined, hlower, hupper]
    simp
  refine ⟨given, p, elimination, hgiven, hvalid, hkinds.2, hraw, hkinds.1, ?_⟩
  obtain ⟨-, -, -, -, hsolver, -⟩ := prepare_demotes_kind hgiven hdefined hvalid
  exact (hsolver .bobyqa rfl (by rw [hraw]; rfl)).2 NearestSearch.stay_neverRefuses

end Presolve
