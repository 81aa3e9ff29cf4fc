import Presolve.Proofs.Number.Comparison
import Presolve.Proofs.Number.Steady
import Presolve.Proofs.Preparation.Conduct
import Presolve.Proofs.Preparation.Safety
import Presolve.Proofs.Problem.Restatement
import Presolve.Proofs.Record.RoundTrip

/-!
# Starts that are moved

The canonical start stands for the start that the caller gave, unless a diagnostic says that it was moved;
and it is moved only where there is a reason, a bound or a row that the start does not satisfy
(`prepare_moves_start`).

The converse fails. A start outside its bounds stays there if the distance is small in proportion to the
length of the whole start, so one large entry excuses the others (`prepare_start_contained_iff`).
-/

namespace Presolve

open Scalar Extended

/-! ## Reports -/

section

variable {α : Type}

/-- No other anomaly has the tag of a start that was moved. -/
theorem Anomaly.tag_ne_of_ne_revisedStart {a : Anomaly α} (h : a ≠ .revisedStart) :
    a.tag ≠ "ReviseX0" := by
  cases a with
  | revisedStart => exact absurd rfl h
  | invalidFlag flag => cases flag <;> simp [tag, FlagName.tag]
  | _ => simp [tag]

/-- Does a diagnostic of the record say that the start was moved? -/
def Record.ReportsMove (r : Record α) : Prop := ∃ d ∈ r.diagnostics, d.anomaly.tag = "ReviseX0"

variable [Scalar α] [Interchange α] {search : NearestSearch α} {invoker : Invoker} {i : Input α}
  {e : Option Category} {k : Journal α} {r : Record α}

namespace Course

/-- Before the start is settled nothing is said about it. -/
theorem not_exists_afterResolve (c : Course search invoker i e {} r k) :
    ¬∃ d ∈ c.afterResolve.log.entries, d.anomaly.tag = "ReviseX0" := by
  -- the log is empty at first, and each stage adds only anomalies of its own
  have hcheck := (check_within (A := (· = .noObjective)) rfl _ i).exists_entries_iff c.check_eq
    (D := fun d => d.anomaly.tag = "ReviseX0") fun a ha =>
      Anomaly.tag_ne_of_ne_revisedStart (by rintro rfl; cases ha)
  have hreduce := (reduce_within (A := fun _ => False) invoker.name c.checked).exists_entries_iff
    c.reduce_eq (D := fun d => d.anomaly.tag = "ReviseX0") fun a ha => ha.elim
  have hresolve := (resolveOptions_discreet invoker i.options c.reduced.dimension
    c.reduced.bounds).exists_entries_iff c.resolve_eq (D := fun d => d.anomaly.tag = "ReviseX0")
    fun a ha => Anomaly.tag_ne_of_ne_revisedStart (by rintro rfl; exact ha)
  rw [c.beforeResolve_log] at hresolve
  rw [hresolve, hreduce, hcheck]
  simp

/-- After the start is settled nothing more is said about it. -/
theorem reportsMove_iff (c : Course search invoker i e {} r k) :
    r.ReportsMove ↔ ∃ d ∈ c.afterSettle.log.entries, d.anomaly.tag = "ReviseX0" := by
  have hrescale := (rescaleIfAsked_discreet invoker c.checked.facts c.settled
    c.resolved).exists_entries_iff c.rescale_eq (D := fun d => d.anomaly.tag = "ReviseX0")
    fun a ha => Anomaly.tag_ne_of_ne_revisedStart (by rintro rfl; cases ha)
  have hsolver := (settleSolver_within invoker c.adjusted c.reduced.kind
    r.problem).exists_entries_iff c.solver_eq (D := fun d => d.anomaly.tag = "ReviseX0")
    fun a ha => Anomaly.tag_ne_of_ne_revisedStart (by rintro rfl; obtain ⟨_, _, h⟩ := ha; cases h)
  rw [Record.ReportsMove, c.diagnostics_eq, hsolver, hrescale]

/-- Where something is left to solve, the start stays or moves, and only the second is reported. -/
theorem settled_cases (c : Course search invoker i e {} r k)
    (hopen : c.checked.facts.isDegenerate = false) : ∃ start failure,
      c.reduced.feasibleStart search c.reduced.kind = .ok (start, failure) ∧
      ((c.reduced.isRevised start = .ok false ∧ c.settled = c.reduced ∧ ¬r.ReportsMove) ∨
        (c.reduced.isRevised start = .ok true ∧ c.settled = { c.reduced with start } ∧
          r.ReportsMove)) := by
  have hmove := c.settle_eq
  rw [settleStart, hopen, if_neg Bool.false_ne_true] at hmove
  have hsilent := c.not_exists_afterResolve
  obtain ⟨start, failure, hstart, hcases⟩ := moveStart_outcome hmove
  refine ⟨start, failure, hstart, ?_⟩
  rw [c.reportsMove_iff]
  rcases hcases with ⟨hnear, hsettled, hlog⟩ | ⟨hfar, hsettled, hlog⟩
  · rw [hlog]
    exact .inl ⟨hnear, hsettled, hsilent⟩
  · rw [hlog]
    exact .inr ⟨hfar, hsettled, _, List.mem_append_right _ (List.mem_singleton_self _), rfl⟩

/-- Where nothing is left to solve, the start stays and nothing is reported. -/
theorem settled_of_degenerate (c : Course search invoker i e {} r k)
    (hdegenerate : c.checked.facts.isDegenerate = true) :
    c.settled = c.reduced ∧ ¬r.ReportsMove := by
  have hstay := c.settle_eq
  rw [settleStart, hdegenerate, if_pos rfl, Prep.outcome_pure, Prod.mk.injEq] at hstay
  obtain ⟨hsettled, hjournal⟩ := hstay
  rw [c.reportsMove_iff, ← hjournal]
  exact ⟨(Except.ok.inj hsettled).symm, c.not_exists_afterResolve⟩

end Course

end

/-! ## Problems that are left -/

section

variable {α : Type} [Scalar α]

/-- What a record leaves of a problem: without trivial rows, and in the free variables. -/
def Record.leftOf (r : Record α) (p : Problem α) : Problem α :=
  match r.elimination with
  | some el => p.withoutTrivialRows.reducedBy el
  | none => p.withoutTrivialRows

/-- The canonical start stands for a point that has the entries of `x` for the variables that are left and
the recorded values for those that were eliminated. -/
def Record.StartsFrom (r : Record α) (x : List α) : Prop :=
  ∃ y, r.restore r.problem.start = .ok y ∧ y.length = r.rawDimension ∧
    match r.elimination with
    | some el => el.fixed = r.facts.fixed ∧ Mask.select el.fixed y = r.facts.fixedValues ∧
        Mask.select el.free y = Mask.select el.free x
    | none => y = x

variable [Interchange α] {search : NearestSearch α} {invoker : Invoker} {i : Input α}
  {e : Option Category} {j k : Journal α} {r : Record α}

namespace Course

variable (c : Course search invoker i e j r k)

include c

/-- The reduced problem is what the record leaves of the stated one, apart from its functions. -/
theorem reduced_eq_leftOf : c.reduced.start = (r.leftOf c.given).start ∧
    c.reduced.bounds = (r.leftOf c.given).bounds ∧
    c.reduced.inequalities = (r.leftOf c.given).inequalities ∧
    c.reduced.equalities = (r.leftOf c.given).equalities := by
  have h := c.reduced_eq
  rw [Record.leftOf]
  split at h
  · rw [h.1, h.2, c.checked_of.problem_eq]
    exact ⟨rfl, rfl, rfl, rfl⟩
  · rw [h.1, h.2, c.checked_of.problem_eq]
    exact ⟨rfl, rfl, rfl, rfl⟩

theorem reduced_admits_iff (x : List α) : c.reduced.Admits x ↔ (r.leftOf c.given).Admits x := by
  obtain ⟨-, hbounds, hineq, heq⟩ := c.reduced_eq_leftOf
  apply Problem.admits_congr
  · rw [hbounds]
  · rw [hineq]
  · rw [heq]

/-- The reduced start is the given one on the variables that are left. -/
theorem reduced_start : c.reduced.start = r.restricted c.given.start := by
  have h := c.reduced_eq
  rw [Record.restricted]
  split at h
  · rw [h.1, h.2, c.checked_of.problem_eq]
    rfl
  · rw [h.1, h.2, c.checked_of.problem_eq]
    rfl

/-- Moving a start into its bounds commutes with leaving out variables. -/
theorem clip_reduced_start : ∃ x, x.length = r.rawDimension ∧
    c.given.bounds.clip c.given.start = .ok x ∧
    c.reduced.bounds.clip c.reduced.start = .ok (r.restricted x) := by
  have hgiven := c.given_fits
  have hreduced := c.reduced_fits
  refine ⟨_, ?_, Bounds.clip_eq hgiven.length_lower hgiven.length_upper hgiven.length_start, ?_⟩
  · simp [c.rawDimension_eq_dimension, hgiven.length_lower, hgiven.length_upper, hgiven.length_start]
  · rw [Bounds.clip_eq hreduced.length_lower hreduced.length_upper hreduced.length_start]
    have h := c.reduced_eq
    rw [Record.restricted]
    split at h
    · rw [h.1, h.2, c.checked_of.problem_eq]
      simp only [Mask.select_zipWith]
      rfl
    · rw [h.1, h.2, c.checked_of.problem_eq]
      rfl

/-- The canonical start is the settled one after rescaling. -/
theorem problem_start (hsettled : c.settled.Fits r.refinedDimension) :
    r.problem.start = r.scaled c.settled.start := by
  have h := c.problem_eq hsettled
  rw [Record.scaled]
  split at h
  · rw [h.1, h.2.1]
    rfl
  · rw [h.1, h.2.1]

end Course

end

variable {K : Type} [Field K] [LinearOrder K] [FloorRing K]

/-! ## Moving into bounds -/

/-- A point between its bounds stays. -/
theorem Bounds.clip_eq_self {b : Bounds (Extended K)} {x : List (Extended K)} (h : b.Contains x) :
    b.clip x = .ok x := by
  obtain ⟨hlower, hupper⟩ := h
  rw [Bounds.clip_eq hlower.length_eq hupper.length_eq.symm rfl]
  have hsame : List.zipWith atMost b.upper (List.zipWith atLeast b.lower x) = x := by
    apply List.ext_getElem
    · simp [hlower.length_eq, hupper.length_eq]
    · intro m hm hmx
      have hml : m < b.lower.length := hmx.trans_eq hlower.length_eq.symm
      have hmu : m < b.upper.length := hmx.trans_eq hupper.length_eq
      have hlo : b.lower[m] ≤ x[m] := (List.forall₂_iff_get.1 hlower).2 m hml hmx
      have hhi : x[m] ≤ b.upper[m] := (List.forall₂_iff_get.1 hupper).2 m hmx hmu
      rw [List.getElem_zipWith, List.getElem_zipWith, atLeast_eq_self hlo, atMost_eq_self hhi]
  rw [hsame]

namespace Problem

variable {p : Problem (Extended K)} {n : Nat}

/-- A finite point that was moved into bounds which do not exclude each other is between them. -/
theorem IsProper.contains_clip (hp : p.IsProper) (hfits : p.Fits n)
    (hfeasible : p.bounds.infeasible.any id = false) {x y : List (Extended K)} (hlen : x.length = n)
    (hx : ∀ a ∈ x, IsFinite a) (h : p.bounds.clip x = .ok y) : p.bounds.Contains y := by
  have hl := hfits.length_lower
  have hu := hfits.length_upper
  rw [Bounds.clip_eq hl hu hlen] at h
  obtain rfl := Except.ok.inj h
  -- at one place, where both bounds and the entry are defined and the bounds leave room
  have hat (m : Nat) (hm : m < n) : p.bounds.lower[m] ≤ atMost p.bounds.upper[m]
      (atLeast p.bounds.lower[m] x[m]) ∧
      atMost p.bounds.upper[m] (atLeast p.bounds.lower[m] x[m]) ≤ p.bounds.upper[m] := by
    have hlo : p.bounds.lower[m] ≤ p.bounds.lower[m] := by
      rcases hp.lower _ (List.getElem_mem (hm.trans_eq hl.symm)) with ⟨a, ha⟩ | ha <;> simp [ha]
    have hhi : p.bounds.upper[m] ≤ p.bounds.upper[m] := by
      rcases hp.upper _ (List.getElem_mem (hm.trans_eq hu.symm)) with ⟨a, ha⟩ | ha <;> simp [ha]
    have hentry : x[m] ≤ x[m] := by
      obtain ⟨a, ha⟩ := hx _ (List.getElem_mem (hm.trans_eq hlen.symm))
      simp [ha]
    have hroom : p.bounds.lower[m] ≤ p.bounds.upper[m] :=
      (Extended.not_lt hhi hlo).1 (Bounds.not_upper_lt_lower hfeasible _ _)
    exact OrderedScalar.clamp_between hlo hhi hentry hroom
  constructor
  · rw [List.forall₂_iff_get]
    refine ⟨by simp [hl, hu, hlen], ?_⟩
    intro m hml _
    simpa using (hat m (hml.trans_eq hl)).1
  · rw [List.forall₂_iff_get]
    refine ⟨by simp [hl, hu, hlen], ?_⟩
    intro m _ hmu
    simpa using (hat m (hmu.trans_eq hu)).2

end Problem

/-- The search stays at a start that satisfies bounds and rows. -/
def NearestSearch.KeepsAdmitted (search : NearestSearch (Extended K)) : Prop :=
  ∀ p n x, Problem.Fits p n → p.IsProper → p.Admits p.start → search p.nearestQuery = .ok (.point x) → x = p.start

theorem NearestSearch.stay_keepsAdmitted : (stay : NearestSearch (Extended K)).KeepsAdmitted := by
  intro p n x _ _ _ hx
  cases hx
  rfl

/-- A start that satisfies bounds and rows is a feasible start. -/
theorem Problem.Admits.feasibleStart_eq {search : NearestSearch (Extended K)}
    (hsearch : search.KeepsAdmitted) {kind : ProblemKind} {p : Problem (Extended K)} {n : Nat}
    (hp : p.IsProper) (hfits : p.Fits n) (hadmits : p.Admits p.start) {start : List (Extended K)}
    {failure : Option String} (h : p.feasibleStart search kind = .ok (start, failure)) :
    start = p.start := by
  have hclip := Bounds.clip_eq_self hadmits.bounds
  rcases feasibleStart_eq_ok h with h | h | ⟨x, hx, h⟩
  · exact h
  · exact Except.ok.inj (h.symm.trans hclip)
  · rw [hsearch p n x hfits hp hadmits hx] at h
    exact Except.ok.inj (h.symm.trans hclip)

/-- A start moves only if the problem has bounds or rows but no functions among its constraints, and does
not admit it. -/
theorem Problem.not_admits_of_isRevised [IsStrictOrderedRing K] {search : NearestSearch (Extended K)}
    (hsearch : search.KeepsAdmitted) {kind : ProblemKind} {p : Problem (Extended K)} {n : Nat}
    (hp : p.IsProper) (hfits : p.Fits n) {start : List (Extended K)} {failure : Option String}
    (h : p.feasibleStart search kind = .ok (start, failure)) (hrevised : p.isRevised start = .ok true) :
    (kind = .boundConstrained ∨ kind = .linearlyConstrained) ∧ ¬p.Admits p.start := by
  have hmoved : start ≠ p.start := by
    intro hstart
    rw [hstart, p.isRevised_start] at hrevised
    cases hrevised
  constructor
  · cases kind with
    | unconstrained | nonlinearlyConstrained =>
      cases h
      exact absurd rfl hmoved
    | boundConstrained => exact .inl rfl
    | linearlyConstrained => exact .inr rfl
  · intro hadmits
    exact hmoved (hadmits.feasibleStart_eq hsearch hp hfits h)

/-- The canonical point of a finite one is finite. -/
theorem Rescaling.IsProper.isFinite_toCanonical {r : Rescaling (Extended K)} (h : r.IsProper)
    {x : List (Extended K)} (hx : ∀ a ∈ x, IsFinite a) :
    ∀ a ∈ List.zipWith (· / ·) (List.zipWith (· - ·) x r.shift) r.factor, IsFinite a := by
  intro a ha
  obtain ⟨b, hb, f, hf, rfl⟩ := exists_of_mem_zipWith ha
  obtain ⟨c, hc, t, ht, rfl⟩ := exists_of_mem_zipWith hb
  obtain ⟨f, hpos, rfl⟩ := h.factor f hf
  obtain ⟨d, hd⟩ := isFinite_sub (hx c hc) (h.shift t ht)
  rw [hd, finite_div _ hpos.ne']
  exact isFinite_finite _

/-! ## Starts of records -/

section

variable [IsStrictOrderedRing K] [Interchange (Extended K)] {search : NearestSearch (Extended K)}
  {invoker : Invoker} {i : Input (Extended K)} {e : Option Category} {j k : Journal (Extended K)}
  {r : Record (Extended K)}

namespace Course

variable (c : Course search invoker i e j r k)

include c

/-- Rescaling loses nothing, so the canonical start stands for the settled one. -/
theorem startsFrom (hfits : c.settled.Fits r.refinedDimension) (hproper : c.settled.IsProper)
    (hfree : r.facts.allFixed = false) {x : List (Extended K)} (hx : x.length = r.rawDimension)
    (hstart : c.settled.start = r.restricted x) : r.StartsFrom x := by
  have hrecord := c.record_fits_of_settled hfits
  have hrestricted := hrecord.length_restricted hx
  have hrestore := hrecord.restore_eq hfree (hrecord.length_scaled hrestricted)
  have hscaling : ∀ s, r.rescaling = some s → s.IsProper := fun s hs =>
    c.rescaling_isProper_of_settled hfits hproper hs
  rw [hrecord.unscaled_scaled hscaling hrestricted, ← hstart, ← c.problem_start hfits, hstart]
    at hrestore
  refine ⟨_, hrestore, hrecord.length_expanded hrestricted, ?_⟩
  have hentries := hrecord.expanded_restricted hx
  cases hel : r.elimination with
  | none =>
    rw [hel] at hentries
    exact hentries
  | some el =>
    rw [hel] at hentries
    obtain ⟨hfixed, hvalues⟩ := c.elimination_facts hel
    exact ⟨hfixed, hentries.1.trans hvalues, hentries.2⟩

/-- The canonical start is between the canonical bounds exactly if the settled one is between its own. -/
theorem contains_start_iff (hfits : c.settled.Fits r.refinedDimension) (hproper : c.settled.IsProper) :
    r.problem.bounds.Contains r.problem.start ↔ c.settled.bounds.Contains c.settled.start := by
  have h := c.problem_eq hfits
  split at h
  · have hr := c.rescaling_fits hfits
    have hscaling := c.rescaling_isProper_of_settled hfits hproper h.1
    have hstart := hr.length_toCanonical hfits.length_start
    have hiff := Rescaling.contains_iff hr hscaling hfits.length_lower hfits.length_upper hstart
      (hscaling.isFinite_toCanonical hproper.start)
    rw [hscaling.toUnscaled_toCanonical hr hfits.length_start] at hiff
    rw [h.2.1]
    exact hiff
  · rw [h.2.1]

omit [IsStrictOrderedRing K] in
/-- The bounds of a reduced problem do not exclude each other if there is something left to solve. -/
theorem reduced_feasible (hopen : c.checked.facts.isDegenerate = false) :
    c.reduced.bounds.infeasible.any id = false := by
  obtain ⟨hfixed, hinfeasible, -⟩ := Facts.ofConstraints_eq_ok c.checked_of.facts_eq
  rw [← c.checked_of.bounds_eq] at hfixed hinfeasible
  exact (reduce_isOpen c.checked_fits c.dimension_pos hfixed hinfeasible
    (Prep.yields_of_outcome c.reduce_eq) hopen).feasible

omit [IsStrictOrderedRing K] in
/-- A start that was moved into the bounds is one of a problem that fits and is proper. -/
theorem settled_of_clip (h : c.given.IsProper) {start : List (Extended K)}
    (hclip : c.reduced.bounds.clip c.reduced.start = .ok start)
    (hsettled : c.settled = { c.reduced with start }) :
    c.settled.Fits r.refinedDimension ∧ c.settled.IsProper := by
  have hfits := c.reduced_fits
  have hproper := c.reduced_isProper h
  have hlen := hfits.length_clip hfits.length_start hclip
  have hfinite := hproper.clip hfits hfits.length_start hproper.start hclip
  rw [hsettled]
  exact ⟨{ hfits with length_start := hlen }, { hproper with start := hfinite }⟩

end Course

end

/-! ## Preparations -/

section

variable [IsStrictOrderedRing K] [Interchange (Extended K)] {search : NearestSearch (Extended K)}
  {invoker : Invoker} {i : Input (Extended K)} {e : Option Category} {r : Record (Extended K)}
  {given : Problem (Extended K)}

/-- The start is changed only where this is reported. Without a report the canonical start stands for the
given one; with one, there was something to solve, the start did not satisfy the bounds and rows that are
left, and where there are only bounds the canonical start stands for the given one moved into them. -/
theorem prepare_moves_start (hsearch : search.KeepsAdmitted)
    (h : (Prep.run e (prepare search invoker i)).1 = .ok r)
    (hgiven : i.stated invoker.name = .ok given) (hproper : given.IsProper)
    (hfree : r.facts.allFixed = false) :
    (¬r.ReportsMove → r.StartsFrom given.start) ∧
    (r.ReportsMove → r.facts.infeasible = false ∧
      (r.refinedKind = .boundConstrained ∨ r.refinedKind = .linearlyConstrained) ∧
      ¬(r.leftOf given).Admits (r.leftOf given).start) ∧
    (r.ReportsMove → r.refinedKind = .boundConstrained →
      ∃ x, given.bounds.clip given.start = .ok x ∧ r.StartsFrom x) := by
  obtain ⟨c⟩ := exists_course (Prod.ext h rfl)
  obtain rfl := Except.ok.inj (hgiven.symm.trans c.stated_eq)
  have hfits := c.reduced_fits
  have hreduced := c.reduced_isProper hproper
  have hlen : c.given.start.length = r.rawDimension :=
    c.given_fits.length_start.trans c.rawDimension_eq_dimension.symm
  have hstays : c.settled = c.reduced → r.StartsFrom c.given.start := fun hsettled =>
    c.startsFrom (hsettled ▸ hfits) (hsettled ▸ hreduced) hfree hlen (hsettled ▸ c.reduced_start)
  cases hopen : c.checked.facts.isDegenerate with
  | true =>
    obtain ⟨hsettled, hsilent⟩ := c.settled_of_degenerate hopen
    exact ⟨fun _ => hstays hsettled, fun hreport => absurd hreport hsilent,
      fun hreport => absurd hreport hsilent⟩
  | false =>
    obtain ⟨start, failure, hstart, hcases⟩ := c.settled_cases hopen
    rcases hcases with ⟨-, hsettled, hsilent⟩ | ⟨hfar, hsettled, hreport⟩
    · exact ⟨fun _ => hstays hsettled, fun hreport => absurd hreport hsilent,
        fun hreport => absurd hreport hsilent⟩
    · obtain ⟨hkind, hadmits⟩ := Problem.not_admits_of_isRevised hsearch hreduced hfits hstart hfar
      rw [← c.refinedKind_eq] at hkind
      refine ⟨fun hsilent => absurd hreport hsilent, fun _ => ⟨?_, hkind, ?_⟩, ?_⟩
      · rw [c.facts_eq]
        exact (Bool.or_eq_false_iff.1 hopen).2
      · rwa [← c.reduced_eq_leftOf.1, ← c.reduced_admits_iff]
      · intro _ hbound
        -- under bounds alone the feasible start is the old one moved into them
        rw [← c.refinedKind_eq, hbound] at hstart
        obtain ⟨clipped, hclipped, hpair⟩ := map_eq_ok.1 hstart
        obtain ⟨rfl, -⟩ := Prod.mk.inj hpair
        obtain ⟨x, hx, hclip, hrestricted⟩ := c.clip_reduced_start
        obtain ⟨hsettledFits, hsettledProper⟩ := c.settled_of_clip hproper hclipped hsettled
        refine ⟨x, hclip, c.startsFrom hsettledFits hsettledProper hfree hx ?_⟩
        rw [hsettled]
        exact Except.ok.inj (hclipped.symm.trans hrestricted)

end

/-- Three variables, one fixed, one without bounds and one whose start is outside its bounds, to be
rescaled. -/
def strayInput : Input (Extended ℚ) where
  objective := zeroObjective
  start := .list [.int 5, .int 1, .int 0]
  lower := .list [.int (-1), .int 1, .real .bottom]
  upper := .list [.int 3, .int 1, .real .top]
  options := .mapping [(.text "scale", .bool true)]

/-- The start of one variable is moved to its upper bound, and nothing else is. -/
theorem prepare_moves_start_strayInput : ∃ r,
    (Prep.run none (prepare NearestSearch.stay .frontEnd strayInput)).1 = .ok r ∧ r.ReportsMove ∧
      (r.isReduced, r.isScaled, r.facts.infeasible) = (true, true, false) ∧
      r.StartsFrom [finite 3, finite 1, finite 0] := by
  have hrun : (Prep.run none (prepare NearestSearch.stay .frontEnd strayInput)).1.toOption.map
      (fun r => (r.isReduced, r.isScaled, r.facts.allFixed, r.refinedKind,
        r.diagnostics.any fun d => d.anomaly.tag == "ReviseX0"))
      = some (true, true, false, .boundConstrained, true) := by decide +kernel
  have hstated : (strayInput.stated Invoker.frontEnd.name).toOption.map
      (fun p => (p.start, p.bounds.lower, p.bounds.upper))
        = some ([finite 5, finite 1, finite 0], [finite (-1), finite 1, bottom],
          [finite 3, finite 1, top]) := by decide +kernel
  have hclip : (⟨[finite (-1), finite 1, bottom], [finite 3, finite 1, top]⟩ :
      Bounds (Extended ℚ)).clip [finite 5, finite 1, finite 0]
        = .ok [finite 3, finite 1, finite 0] := by decide +kernel
  obtain ⟨r, hr, hrecord⟩ := exists_of_toOption_map hrun
  obtain ⟨given, hgiven, hparts⟩ := exists_of_toOption_map hstated
  simp only [Prod.mk.injEq] at hrecord hparts
  obtain ⟨hreduced, hscaled, hfree, hkind, hany⟩ := hrecord
  have hproper : given.IsProper := by
    constructor
    · simp [hparts.1]
    · simp [hparts.2.1, IsLowerBound]
    · simp [hparts.2.2, IsUpperBound]
  have hreport : r.ReportsMove := by
    obtain ⟨d, hd, htag⟩ := List.any_eq_true.1 hany
    exact ⟨d, hd, beq_iff_eq.1 htag⟩
  obtain ⟨-, hreason, hmoved⟩ := prepare_moves_start NearestSearch.stay_keepsAdmitted hr hgiven hproper
    hfree
  have hbounds : given.bounds = ⟨[finite (-1), finite 1, bottom], [finite 3, finite 1, top]⟩ := by
    rw [← hparts.2.1, ← hparts.2.2]
  obtain ⟨x, hx, hstarts⟩ := hmoved hreport hkind
  rw [hbounds, hparts.1, hclip] at hx
  obtain rfl := Except.ok.inj hx
  exact ⟨r, hr, hreport, by rw [hreduced, hscaled, (hreason hreport).1], hstarts⟩

section

variable [IsStrictOrderedRing K] [Interchange (Extended K)] {search : NearestSearch (Extended K)}
  {invoker : Invoker} {i : Input (Extended K)} {e : Option Category} {r : Record (Extended K)}
  {given : Problem (Extended K)}

/-- Where only bounds are left, the canonical start is between the canonical bounds exactly if the start
was between its bounds already or was moved, and it is moved exactly if it is farther from them than
`epsilon` times its length or one. -/
theorem prepare_start_contained_iff (h : (Prep.run e (prepare search invoker i)).1 = .ok r)
    (hgiven : i.stated invoker.name = .ok given) (hproper : given.IsProper)
    (hfeasible : r.facts.infeasible = false) (hfree : r.facts.allFixed = false)
    (hkind : r.refinedKind = .boundConstrained) :
    ∃ x, (r.leftOf given).bounds.clip (r.leftOf given).start = .ok x ∧
      (r.ReportsMove ↔ (r.leftOf given).isRevised x = .ok true) ∧
      (r.problem.bounds.Contains r.problem.start ↔
        (r.leftOf given).bounds.Contains (r.leftOf given).start ∨
          (r.leftOf given).isRevised x = .ok true) := by
  obtain ⟨c⟩ := exists_course (Prod.ext h rfl)
  obtain rfl := Except.ok.inj (hgiven.symm.trans c.stated_eq)
  have hfits := c.reduced_fits
  have hreduced := c.reduced_isProper hproper
  have hopen : c.checked.facts.isDegenerate = false := by
    rw [← c.facts_eq, Facts.isDegenerate, hfree, hfeasible]
    rfl
  obtain ⟨start, failure, hstart, hcases⟩ := c.settled_cases hopen
  rw [← c.refinedKind_eq, hkind] at hstart
  obtain ⟨clipped, hclipped, hpair⟩ := map_eq_ok.1 hstart
  obtain ⟨rfl, -⟩ := Prod.mk.inj hpair
  obtain ⟨hleft, hbounds, -, -⟩ := c.reduced_eq_leftOf
  have hrevised : (r.leftOf c.given).isRevised clipped = c.reduced.isRevised clipped := by
    rw [Problem.isRevised, Problem.isRevised, hleft]
  refine ⟨clipped, by rwa [← hleft, ← hbounds], ?_⟩
  rw [hrevised, ← hleft, ← hbounds]
  rcases hcases with ⟨hnear, hsettled, hsilent⟩ | ⟨hfar, hsettled, hreport⟩
  · have hiff := c.contains_start_iff (hsettled ▸ hfits) (hsettled ▸ hreduced)
    rw [hsettled] at hiff
    rw [hiff, hnear]
    exact ⟨by simp [hsilent], by simp⟩
  · obtain ⟨hsettledFits, hsettledProper⟩ := c.settled_of_clip hproper hclipped hsettled
    have hiff := c.contains_start_iff hsettledFits hsettledProper
    have hcontains := hreduced.contains_clip hfits (c.reduced_feasible hopen) hfits.length_start
      hreduced.start hclipped
    rw [hsettled] at hiff
    rw [hiff, hfar]
    exact ⟨by simp [hreport], by simp [hcontains]⟩

end

/-- The canonical start of three variables is between its bounds since it was moved there. -/
theorem prepare_start_contained_strayInput : ∃ r,
    (Prep.run none (prepare NearestSearch.stay .frontEnd strayInput)).1 = .ok r ∧
      r.problem.bounds.Contains r.problem.start := by
  have hrun : (Prep.run none (prepare NearestSearch.stay .frontEnd strayInput)).1.toOption.map
      (fun r => (r.facts.infeasible, r.facts.allFixed, r.refinedKind,
        r.diagnostics.any fun d => d.anomaly.tag == "ReviseX0"))
      = some (false, false, .boundConstrained, true) := by decide +kernel
  have hstated : (strayInput.stated Invoker.frontEnd.name).toOption.map
      (fun p => (p.start, p.bounds.lower, p.bounds.upper))
        = some ([finite 5, finite 1, finite 0], [finite (-1), finite 1, bottom],
          [finite 3, finite 1, top]) := by decide +kernel
  obtain ⟨r, hr, hrecord⟩ := exists_of_toOption_map hrun
  obtain ⟨given, hgiven, hparts⟩ := exists_of_toOption_map hstated
  simp only [Prod.mk.injEq] at hrecord hparts
  obtain ⟨hfeasible, hfree, hkind, hany⟩ := hrecord
  have hproper : given.IsProper := by
    constructor
    · simp [hparts.1]
    · simp [hparts.2.1, IsLowerBound]
    · simp [hparts.2.2, IsUpperBound]
  have hreport : r.ReportsMove := by
    obtain ⟨d, hd, htag⟩ := List.any_eq_true.1 hany
    exact ⟨d, hd, beq_iff_eq.1 htag⟩
  obtain ⟨x, -, hmove, hcontains⟩ := prepare_start_contained_iff hr hgiven hproper hfeasible hfree hkind
  exact ⟨r, hr, hcontains.2 (.inr (hmove.1 hreport))⟩

/-- Two variables, one with a very large start and one whose start is outside its bounds. -/
def lopsidedInput : Input (Extended ℚ) where
  objective := zeroObjective
  start := .list [.real (finite 100000000000000000000), .int 5]
  upper := .list [.real .top, .int 1]

/-- The start of one variable stays outside its bounds, since that of the other one is so large. -/
theorem exists_start_outside_bounds : ∃ r given,
    (Prep.run none (prepare NearestSearch.stay .frontEnd lopsidedInput)).1 = .ok r ∧
      lopsidedInput.stated Invoker.frontEnd.name = .ok given ∧ given.IsProper ∧
      r.facts.infeasible = false ∧ r.facts.allFixed = false ∧ r.refinedKind = .boundConstrained ∧
      ¬r.problem.bounds.Contains r.problem.start := by
  have hrun : (Prep.run none (prepare NearestSearch.stay .frontEnd lopsidedInput)).1.toOption.map
      (fun r => (r.facts.infeasible, r.facts.allFixed, r.refinedKind))
        = some (false, false, .boundConstrained) := by decide +kernel
  have hpoint : (Prep.run none (prepare NearestSearch.stay .frontEnd lopsidedInput)).1.toOption.map
      (fun r => (r.problem.start, r.problem.bounds.upper))
        = some ([finite 100000000000000000000, finite 5], [top, finite 1]) := by decide +kernel
  have hstated : (lopsidedInput.stated Invoker.frontEnd.name).toOption.map
      (fun p => (p.start, p.bounds.lower, p.bounds.upper))
        = some ([finite 100000000000000000000, finite 5], [bottom, bottom], [top, finite 1]) := by
    decide +kernel
  obtain ⟨r, hr, hrecord⟩ := exists_of_toOption_map hrun
  obtain ⟨given, hgiven, hparts⟩ := exists_of_toOption_map hstated
  rw [hr] at hpoint
  have hpoint := Option.some.inj hpoint
  simp only [Prod.mk.injEq] at hrecord hparts hpoint
  obtain ⟨hfeasible, hfree, hkind⟩ := hrecord
  have hproper : given.IsProper := by
    constructor
    · simp [hparts.1]
    · simp [hparts.2.1, IsLowerBound]
    · simp [hparts.2.2, IsUpperBound]
  refine ⟨r, given, hr, hgiven, hproper, hfeasible, hfree, hkind, ?_⟩
  intro hcontains
  have habove := hcontains.2
  rw [hpoint.1, hpoint.2] at habove
  simp only [List.forall₂_cons, finite_le] at habove
  exact absurd habove.2.1 (by norm_num)

end Presolve
