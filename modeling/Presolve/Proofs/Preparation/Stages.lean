import Presolve.Proofs.Transform.Elimination
import Presolve.Proofs.Transform.Rescaling
import Presolve.Proofs.Transform.Start

/-!
# The stages of a preparation

For each stage, what it can yield. The statements take the stages apart into the closed forms of the
transforms, so that nothing later looks into a stage again.
-/

namespace Presolve

open Scalar

variable {α : Type} [Scalar α]

/-! ## Elimination -/

/-- The facts that checking finds about the bounds of a problem. -/
theorem Facts.ofConstraints_eq_ok {linear : LinearConstraints α} {bounds : Bounds α} {f : Facts α}
    (h : Facts.ofConstraints linear bounds = .ok f) :
    f.fixed = bounds.fixed ∧ f.infeasibleBounds = bounds.infeasible ∧
      bounds.middles bounds.fixed = .ok f.fixedValues := by
  simp only [Facts.ofConstraints, bind_eq_ok, pure_eq_ok] at h
  obtain ⟨values, hvalues, rfl⟩ := h
  exact ⟨rfl, rfl, hvalues⟩

/-- The facts that checking finds about the rows of a problem. -/
theorem Facts.ofConstraints_rows {linear : LinearConstraints α} {bounds : Bounds α} {f : Facts α}
    (h : Facts.ofConstraints linear bounds = .ok f) :
    f.infeasibleInequalities = linear.inequalities.infeasible ∧
      f.trivialInequalities = linear.inequalities.trivial ∧
      f.infeasibleEqualities = linear.equalities.infeasible ∧
      f.trivialEqualities = linear.equalities.trivial := by
  simp only [Facts.ofConstraints, bind_eq_ok, pure_eq_ok] at h
  obtain ⟨values, -, rfl⟩ := h
  exact ⟨rfl, rfl, rfl, rfl⟩

/-- There are facts about constraints that fit. -/
theorem Facts.exists_ofConstraints {bounds : Bounds α} {n : Nat} (hl : bounds.lower.length = n)
    (hu : bounds.upper.length = n) (linear : LinearConstraints α) :
    ∃ f, Facts.ofConstraints linear bounds = .ok f := by
  have hlen : bounds.fixed.length = n := by simp [Bounds.fixed, hl, hu]
  simp only [Facts.ofConstraints, bind_eq_ok, pure_eq_ok]
  exact ⟨_, _, Bounds.middles_eq hl hu hlen, rfl⟩

/-- Where all variables are fixed there is a value for each. -/
theorem Facts.length_fixedValues {linear : LinearConstraints α} {bounds : Bounds α} {f : Facts α}
    {n : Nat} (hl : bounds.lower.length = n) (hu : bounds.upper.length = n)
    (h : Facts.ofConstraints linear bounds = .ok f) (hall : f.allFixed = true) :
    f.fixedValues.length = n := by
  obtain ⟨hfixed, -, hvalues⟩ := Facts.ofConstraints_eq_ok h
  have hlen : bounds.fixed.length = n := by simp [Bounds.fixed, hl, hu]
  rw [Bounds.middles_eq hl hu hlen] at hvalues
  rw [← Except.ok.inj hvalues, (Bounds.elimination_fits hl hu hlen).2, Bounds.elimination,
    Elimination.fixed, Mask.others_others, Mask.count_of_all (hfixed ▸ hall), hlen]

namespace Checked.Of

variable [Interchange α] {source : String} {given : Problem α} {c : Checked α} {n : Nat}
  (h : Checked.Of source given c)

include h

theorem bounds_eq : c.problem.bounds = given.bounds := by
  rw [h.problem_eq]
  rfl

theorem problem_fits (hgiven : given.Fits n) : c.problem.Fits n := by
  rw [h.problem_eq]
  exact hgiven.guarded.withoutTrivialRows

theorem length_fixed (hgiven : given.Fits n) : c.facts.fixed.length = n := by
  rw [(Facts.ofConstraints_eq_ok h.facts_eq).1, Bounds.fixed, List.length_zipWith,
    hgiven.length_lower, hgiven.length_upper, Nat.min_self]

theorem length_infeasibleBounds (hgiven : given.Fits n) : c.facts.infeasibleBounds.length = n := by
  rw [(Facts.ofConstraints_eq_ok h.facts_eq).2.1, Bounds.infeasible, List.length_zipWith,
    hgiven.length_lower, hgiven.length_upper, Nat.min_self]

end Checked.Of

/-- Are variables eliminated from a problem about which these facts are known? -/
def Facts.eliminates (f : Facts α) : Bool := f.fixed.any id && !f.isDegenerate

omit [Scalar α] in
/-- Variables are eliminated if some but not all are fixed, and the problem is not known to be
infeasible. -/
theorem Facts.eliminates_iff {f : Facts α} :
    f.eliminates = true ↔ true ∈ f.fixed ∧ false ∈ f.fixed ∧ f.infeasible = false := by
  simp [Facts.eliminates, Facts.isDegenerate, Facts.allFixed]

theorem reduce_yields {c : Checked α} {q : Problem α} {e? : Option (Elimination α)} {n : Nat}
    (hp : c.problem.Fits n) (hn : 0 < n) (hf : c.facts.fixed.length = n)
    (h : (reduce c).Yields (q, e?)) :
    if c.facts.eliminates then
      e? = some (c.problem.bounds.elimination c.facts.fixed) ∧
        q = c.problem.reducedBy (c.problem.bounds.elimination c.facts.fixed)
    else e? = none ∧ q = c.problem := by
  unfold reduce at h
  split at h
  · next hsome =>
    rw [if_pos (show c.facts.eliminates = true from hsome)]
    obtain ⟨⟨q', e'⟩, heq, h⟩ := h.of_bind
    obtain ⟨_, -, h⟩ := h.of_bind
    rw [Prep.yields_lift, Problem.eliminate_eq hp hn hf] at heq
    rw [Prep.yields_pure] at h
    cases heq
    cases h
    exact ⟨rfl, rfl⟩
  · next hnone =>
    rw [if_neg (show ¬c.facts.eliminates = true from hnone)]
    rw [Prep.yields_pure] at h
    cases h
    exact ⟨rfl, rfl⟩

/-- A problem keeps at least one variable, and its parts still fit. -/
theorem reduce_fits {c : Checked α} {q : Problem α} {e? : Option (Elimination α)} {n : Nat}
    (hp : c.problem.Fits n) (hn : 0 < n) (hf : c.facts.fixed.length = n)
    (h : (reduce c).Yields (q, e?)) : ∃ m, q.Fits m ∧ 0 < m := by
  have h := reduce_yields hp hn hf h
  split at h
  · next heliminates =>
    -- variables are eliminated only where not all of them are fixed
    have hfree : c.facts.fixed.all id = false := by
      simp only [Facts.eliminates, Facts.isDegenerate, Facts.allFixed, Bool.and_eq_true,
        Bool.not_eq_true', Bool.or_eq_false_iff] at heliminates
      exact heliminates.2.1
    rw [h.2]
    exact ⟨_, Problem.reducedBy_fits hp (Bounds.elimination_fits hp.length_lower hp.length_upper hf),
      Mask.count_others_pos hfree⟩
  · rw [h.2]
    exact ⟨n, hp, hn⟩

variable [Interchange α]

/-! ## The start -/

/-- A start that is moved either stays after all, and nothing is reported, or ends up at a feasible start
that is far enough away, and this is all that is reported. -/
theorem moveStart_outcome {search : NearestSearch α} {source : String} {kind : ProblemKind}
    {p q : Problem α} {e : Option Category} {j k : Journal α}
    (h : (moveStart search source kind p).outcome e j = (.ok q, k)) :
    ∃ start failure, p.feasibleStart search kind = .ok (start, failure) ∧
      ((p.isRevised start = .ok false ∧ q = p ∧ k.log.entries = j.log.entries) ∨
        (p.isRevised start = .ok true ∧ q = { p with start } ∧
          k.log.entries = j.log.entries ++ [⟨source, .revisedStart⟩])) := by
  obtain ⟨⟨start, failure⟩, l, hstart, h⟩ := Prep.outcome_bind_eq_ok.1 h
  rw [Prep.outcome_lift, Prod.mk.injEq] at hstart
  obtain ⟨hstart, rfl⟩ := hstart
  refine ⟨start, failure, hstart, ?_⟩
  -- a search that did not converge leaves a trace, which is no entry of the log
  have h : ∃ l : Journal α, l.log = j.log ∧ (do
      if ← (liftM (p.isRevised start) : Prep α Bool) then do
        Prep.report source .revisedStart
        return { p with start }
      else return p : Prep α (Problem α)).outcome e l = (.ok q, k) := by
    cases failure with
    | none => exact ⟨j, rfl, h⟩
    | some reason =>
      obtain ⟨_, l, hleave, h⟩ := Prep.outcome_bind_eq_ok.1 h
      rw [Prep.outcome_leave, Prod.mk.injEq] at hleave
      exact ⟨l, by rw [← hleave.2], h⟩
  obtain ⟨l, hl, h⟩ := h
  obtain ⟨revised, l', hrevised, h⟩ := Prep.outcome_bind_eq_ok.1 h
  rw [Prep.outcome_lift, Prod.mk.injEq] at hrevised
  obtain ⟨hrevised, rfl⟩ := hrevised
  cases revised with
  | true =>
    rw [if_pos rfl] at h
    obtain ⟨_, l', hreport, h⟩ := Prep.outcome_bind_eq_ok.1 h
    have hentries := Prep.entries_report (e := e) (j := l) source .revisedStart
    rw [hreport, hl] at hentries
    rw [Prep.outcome_pure, Prod.mk.injEq] at h
    obtain ⟨hq, rfl⟩ := h
    exact .inr ⟨hrevised, (Except.ok.inj hq).symm, hentries⟩
  | false =>
    rw [if_neg Bool.false_ne_true, Prep.outcome_pure, Prod.mk.injEq] at h
    obtain ⟨hq, rfl⟩ := h
    exact .inl ⟨hrevised, (Except.ok.inj hq).symm, by rw [hl]⟩

/-- Settling the start leaves the rest of a problem as it is. -/
theorem settleStart_yields {search : NearestSearch α} {source : String} {kind : ProblemKind}
    {f : Facts α} {p q : Problem α} (h : (settleStart search source kind f p).Yields q) :
    q = p ∨ f.isDegenerate = false ∧ ∃ start failure,
      p.feasibleStart search kind = .ok (start, failure) ∧ q = { p with start } := by
  unfold settleStart at h
  split at h
  · exact .inl (Prep.yields_pure.1 h).symm
  · next hopen =>
    have hopen : f.isDegenerate = false := by simpa using hopen
    obtain ⟨e, j, k, h⟩ := h
    obtain ⟨start, failure, hstart, ⟨-, hq, -⟩ | ⟨-, hq, -⟩⟩ := moveStart_outcome h
    · exact .inl hq
    · exact .inr ⟨hopen, start, failure, hstart, hq⟩

/-- A problem still fits after its start was settled, and has the bounds it had. -/
theorem settleStart_fits {search : NearestSearch α} (hsearch : search.KeepsDimension) {source : String}
    {kind : ProblemKind} {f : Facts α} {p q : Problem α} {n : Nat} (hp : p.Fits n)
    (h : (settleStart search source kind f p).Yields q) : q.Fits n ∧ q.bounds = p.bounds := by
  rcases settleStart_yields h with rfl | ⟨-, start, failure, hstart, rfl⟩
  · exact ⟨hp, rfl⟩
  · exact ⟨{ hp with length_start := Problem.length_feasibleStart hsearch hp hstart }, rfl⟩

/-! ## Rescaling -/

/-- The settings after rescaling: the radii have changed if the factors are very different, and nothing
else. -/
theorem rescaleIfAsked_yields {source : String} {f : Facts α} {p q : Problem α}
    {r? : Option (Rescaling α)} {s t : Settings α} {n : Nat} (hp : p.Fits n) (hn : 0 < n)
    (h : (rescaleIfAsked source f p s).Yields (q, r?, t)) :
    if s.scale && !f.isDegenerate then
      r? = some (.fitted p.start p.bounds) ∧ q = p.rescaledBy (.fitted p.start p.bounds) ∧
        (∀ least, minimum? (Rescaling.fitted p.start p.bounds).factor = some least →
          ¬least < epsilon) ∧
        ∃ substantial, (Rescaling.fitted p.start p.bounds).isSubstantial = .ok substantial ∧
          t = if substantial then s.withUnitRadius else s
    else r? = none ∧ q = p ∧ t = s := by
  unfold rescaleIfAsked at h
  split at h
  · next hscaled =>
    rw [if_pos hscaled]
    obtain ⟨⟨q', r, t'⟩, hr, h⟩ := h.of_bind
    rw [Prep.yields_pure] at h
    cases h
    obtain ⟨⟨q'', r'⟩, hrescale, hr⟩ := hr.of_bind
    rw [Prep.yields_lift] at hrescale
    obtain ⟨ratio, hratio, hr⟩ := hr.of_step.of_bind
    rw [Prep.yields_lift] at hratio
    obtain ⟨rfl, rfl, hfine⟩ := (Problem.rescale_eq_ok_iff hp hn).1 hrescale
    have hsubstantial : (Rescaling.fitted p.start p.bounds).isSubstantial
        = .ok (rescaleVariables.substantial ratio) := by
      rw [Rescaling.isSubstantial, hratio]
      rfl
    -- only the proportion of the factors decides about the radii
    split at hr
    · next hyes =>
      obtain ⟨_, -, hr⟩ := hr.of_bind
      rw [Prep.yields_pure] at hr
      cases hr
      exact ⟨rfl, rfl, hfine, _, hsubstantial, (if_pos hyes).symm⟩
    · next hno =>
      rw [Prep.yields_pure] at hr
      cases hr
      exact ⟨rfl, rfl, hfine, _, hsubstantial, (if_neg hno).symm⟩
  · next hplain =>
    rw [if_neg hplain]
    rw [Prep.yields_pure] at h
    cases h
    exact ⟨rfl, rfl, rfl⟩

/-- Rescaling changes no setting but the radii. -/
theorem rescaleIfAsked_settings {source : String} {f : Facts α} {p q : Problem α}
    {r? : Option (Rescaling α)} {s t : Settings α}
    (h : (rescaleIfAsked source f p s).Yields (q, r?, t)) : t = s ∨ t = s.withUnitRadius := by
  unfold rescaleIfAsked at h
  split at h
  · obtain ⟨⟨q', r, t'⟩, hr, h⟩ := h.of_bind
    rw [Prep.yields_pure] at h
    cases h
    obtain ⟨⟨q'', r'⟩, -, hr⟩ := hr.of_bind
    obtain ⟨ratio, -, hr⟩ := hr.of_step.of_bind
    split at hr
    · obtain ⟨_, -, hr⟩ := hr.of_bind
      rw [Prep.yields_pure] at hr
      cases hr
      exact .inr rfl
    · rw [Prep.yields_pure] at hr
      cases hr
      exact .inl rfl
  · rw [Prep.yields_pure] at h
    cases h
    exact .inl rfl

theorem rescaleIfAsked_fits {source : String} {f : Facts α} {p q : Problem α}
    {r? : Option (Rescaling α)} {s t : Settings α} {n : Nat} (hp : p.Fits n) (hn : 0 < n)
    (h : (rescaleIfAsked source f p s).Yields (q, r?, t)) : q.Fits n := by
  have h := rescaleIfAsked_yields hp hn h
  split at h
  · rw [h.2.1]
    exact Problem.rescaledBy_fits hp
      (Rescaling.fitted_fits hp.length_start hp.length_lower hp.length_upper)
  · rw [h.2.1]
    exact hp

end Presolve
