import Presolve.Proofs.Number.Doubles
import Presolve.Proofs.Preparation.Course
import Presolve.Proofs.Preparation.Reading
import Presolve.Proofs.Solver.Readable

/-!
# Safety of preparations

A preparation of sound values ends in a record or in a complaint about the input, in nothing else
(`prepare_returns_or_complains`). Checking the input only complains, and so does a solver that does not
handle the kind of the problem. No other stage fails on a problem whose parts fit. Rescaling needs more than
that: variables whose bounds are nearly equal have been eliminated, so half the width of the others is not
tiny (`Bounds.IsOpen`).

What a preparation calls but does not define, the functions of the caller and the search for the nearest
point, is assumed to return.

Options may hold integers too large for a double. Then a preparation ends in an overflow exactly if it would
end in a record without its options (`prepare_overflow_iff`).
-/

namespace Presolve

open Scalar

section

variable {α : Type}

/-! ## What is assumed -/

/-- No options, or a dictionary whose keys are texts and whose values are not too large. -/
def Value.ArePlain (options : Value α) : Prop :=
  options = .absent ∨ ∃ entries, options = .mapping entries ∧
    ∀ entry ∈ entries, entry.1.text?.isSome ∧ ¬entry.2.IsHuge

/-- Plain options are readable. -/
theorem Value.ArePlain.readable {options : Value α} {invoker : Invoker} {n : Nat} {bounds : Bounds α}
    {entries : Entries α} (h : options.ArePlain) (hread : readEntries invoker.name options = .ok entries) :
    (⟨invoker, n, bounds, entries⟩ : Resolution.Context α).Readable := by
  have hentries : ∀ entry ∈ entries, entry.1.text?.isSome ∧ ¬entry.2.IsHuge := by
    rcases h with rfl | ⟨given, rfl, hgiven⟩
    · cases hread
      simp
    · cases hread
      exact fun entry hentry => hgiven entry (List.mem_filter.1 hentry).1
  constructor
  · right
    intro key hkey
    obtain ⟨entry, hentry, rfl⟩ := List.mem_map.1 (List.mem_filter.1 hkey).1
    exact (hentries entry hentry).1
  · intro name _ _ v hv
    obtain ⟨entry, hentry, rfl⟩ := Option.map_eq_some_iff.1 hv
    exact (hentries entry (List.mem_of_find?_eq_some hentry)).2

variable [Scalar α]

/-- No pair of bounds excludes every point, and none fixes a variable. -/
structure Bounds.IsOpen (b : Bounds α) : Prop where
  feasible : b.infeasible.any id = false
  free : b.fixed.any id = false

/-- The search returns on a problem that fits and whose bounds do not exclude each other. -/
def NearestSearch.Returns (search : NearestSearch α) : Prop :=
  ∀ p n, Problem.Fits p n → p.bounds.infeasible.any id = false → ∃ found, search p.nearestQuery = .ok found

theorem NearestSearch.stay_returns : (stay : NearestSearch α).Returns :=
  fun _ _ _ _ => ⟨_, rfl⟩

variable [Interchange α]

/-! ## Stages -/

section

variable {F : Fault → Prop} {source : String} {c : Checked α} {p : Problem α} {n : Nat}

omit [Interchange α] in
theorem reduce_failsOnly (hp : c.problem.Fits n) (hn : 0 < n) (hf : c.facts.fixed.length = n) :
    Prep.FailsOnly F (reduce c) :=
  .ite (fun _ => (Prep.FailsOnly.of_ok ⟨_, Problem.eliminate_eq hp hn hf⟩).bind fun _ _ =>
    (Prep.FailsOnly.leave _).bind fun _ _ => .pure _) fun _ => .pure _

omit [Interchange α] in
/-- After elimination no variable is fixed, unless nothing is left to solve. -/
theorem reduce_isOpen {q : Problem α} {e? : Option (Elimination α)} (hp : c.problem.Fits n)
    (hn : 0 < n) (hfixed : c.facts.fixed = c.problem.bounds.fixed)
    (hinfeasible : c.facts.infeasibleBounds = c.problem.bounds.infeasible)
    (h : (reduce c).Yields (q, e?)) (hleft : c.facts.isDegenerate = false) : q.bounds.IsOpen := by
  have hlen : c.facts.fixed.length = n := by
    simp [hfixed, Bounds.fixed, hp.length_lower, hp.length_upper]
  have hfeasible : c.problem.bounds.infeasible.any id = false := by
    simp only [Facts.isDegenerate, Facts.infeasible, Bool.or_eq_false_iff] at hleft
    rw [← hinfeasible]
    exact hleft.2.2
  have h := reduce_yields hp hn hlen h
  split at h
  · -- what is left are the pairs that are not marked as fixed
    rw [h.2]
    constructor
    · rw [Problem.infeasible_reducedBy]
      exact Mask.any_select hfeasible
    · rw [Problem.fixed_reducedBy, ← hfixed]
      exact Mask.any_select_others_self _
  · next hkept =>
    rw [h.2]
    refine ⟨hfeasible, ?_⟩
    simpa [Facts.eliminates, hleft, hfixed] using hkept

omit [Interchange α] in
theorem Problem.feasibleStart_faultsOnly {search : NearestSearch α} (hkeeps : search.KeepsDimension)
    (hreturns : search.Returns) {kind : ProblemKind} (hp : p.Fits n)
    (hopen : p.bounds.infeasible.any id = false) : FaultsOnly F (p.feasibleStart search kind) := by
  have hclip {x : List α} (hx : x.length = n) : FaultsOnly F (p.bounds.clip x) :=
    .of_ok ⟨_, Bounds.clip_eq hp.length_lower hp.length_upper hx⟩
  cases kind with
  | unconstrained | nonlinearlyConstrained => exact .ok _
  | boundConstrained => exact (hclip hp.length_start).map _
  | linearlyConstrained =>
    refine (hclip hp.length_start).bind fun clipped _ => ?_
    rw [if_neg (by simp [hopen])]
    refine (FaultsOnly.of_ok (hreturns p n hp hopen)).bind fun found hfound => ?_
    cases found with
    | point x => exact (hclip (hkeeps p n x hp hfound)).bind fun _ _ => .ok _
    | failure reason => exact .ok _

theorem settleStart_failsOnly {search : NearestSearch α} (hkeeps : search.KeepsDimension)
    (hreturns : search.Returns) {kind : ProblemKind} {f : Facts α} (hp : p.Fits n)
    (hopen : f.isDegenerate = false → p.bounds.IsOpen) :
    Prep.FailsOnly F (settleStart search source kind f p) := by
  refine .ite (fun _ => .pure _) fun hleft => ?_
  have hopen := hopen (by simpa using hleft)
  refine (Prep.FailsOnly.lift (Problem.feasibleStart_faultsOnly hkeeps hreturns hp hopen.feasible)).bind
    fun found hfound => ?_
  have hlen := Problem.length_feasibleStart hkeeps hp (Prep.yields_lift.1 hfound)
  have hrevised : ∃ revised, p.isRevised found.1 = .ok revised := by
    rw [Problem.isRevised, entrywise_of_length_eq _ (hp.length_start.trans hlen.symm)]
    exact ⟨_, rfl⟩
  have hrest : Prep.FailsOnly F (do
      if ← (liftM (p.isRevised found.1) : Prep α Bool) then do
        Prep.report source .revisedStart
        return { p with start := found.1 }
      else return p : Prep α (Problem α)) :=
    (Prep.FailsOnly.of_ok hrevised).bind fun _ _ =>
      .ite (fun _ => (Prep.FailsOnly.report _ _).bind fun _ _ => .pure _) fun _ => .pure _
  -- a search that did not converge leaves a trace first
  obtain ⟨start, _ | reason⟩ := found
  · exact hrest
  · exact (Prep.FailsOnly.leave _).bind fun _ _ => hrest

omit [Interchange α] in
/-- Half the width between bounds that are open is not tiny, so no factor is. -/
theorem Rescaling.not_fitted_lt [LawfulScalar α] {start : List α} {b : Bounds α} (h : b.IsOpen)
    {least : α} (hleast : minimum? (fitted start b).factor = some least) : ¬least < epsilon := by
  intro hlt
  obtain ⟨factor, hmem, hsmall⟩ := exists_lt_of_minimum?_lt hleast hlt
  obtain ⟨⟨lo, hi⟩, hpair, rfl⟩ := mem_zipWith_iff.1 hmem
  have hopen : ¬hi < lo := by
    have := List.any_eq_false.1 h.feasible _ (mem_zipWith_iff.2 ⟨_, hpair, rfl⟩)
    simpa using this
  have hfree : Bounds.fixes lo hi = false := by
    have := List.any_eq_false.1 h.free _ (mem_zipWith_iff.2 ⟨_, hpair, rfl⟩)
    simpa using this
  simp only [factorAt] at hsmall
  split at hsmall
  · next hboxed =>
    obtain ⟨hlo, hhi⟩ : -infinity < lo ∧ hi < infinity := by simpa [isBoxed] using hboxed
    exact LawfulScalar.not_halfWidth_lt hlo hhi hopen hfree hsmall
  · exact LawfulScalar.not_one_lt_epsilon hsmall

omit [Interchange α] in
theorem Rescaling.Fits.exists_ratio {r : Rescaling α} (hr : r.Fits n) (hn : 0 < n) :
    ∃ ratio, r.ratio = .ok ratio := by
  cases hfactor : r.factor with
  | nil =>
    have hlen := hr.1
    rw [hfactor, List.length_nil] at hlen
    omega
  | cons first rest =>
    rw [Rescaling.ratio, hfactor]
    exact ⟨_, rfl⟩

theorem rescaleVariables_failsOnly [LawfulScalar α] {s : Settings α} (hp : p.Fits n) (hn : 0 < n)
    (hopen : p.bounds.IsOpen) : Prep.FailsOnly F (rescaleVariables source p s) := by
  have hrescale : p.rescale = .ok (p.rescaledBy (.fitted p.start p.bounds), .fitted p.start p.bounds) :=
    (Problem.rescale_eq_ok_iff hp hn).2 ⟨rfl, rfl, fun _ => Rescaling.not_fitted_lt hopen⟩
  have hratio : ∃ ratio, (Rescaling.fitted p.start p.bounds).ratio = .ok ratio :=
    (Rescaling.fitted_fits hp.length_start hp.length_lower hp.length_upper).exists_ratio hn
  refine (Prep.FailsOnly.of_ok ⟨_, hrescale⟩).bind fun rescaled heq => ?_
  rw [hrescale, Prep.yields_lift] at heq
  cases heq
  refine .step (fun _ => .report _ _) ?_
  exact (Prep.FailsOnly.of_ok hratio).bind fun ratio _ =>
    .ite (fun _ => (Prep.FailsOnly.leave _).bind fun _ _ => .pure _) fun _ => .pure _

theorem rescaleIfAsked_failsOnly [LawfulScalar α] {f : Facts α} {s : Settings α} (hp : p.Fits n)
    (hn : 0 < n) (hopen : f.isDegenerate = false → p.bounds.IsOpen) :
    Prep.FailsOnly F (rescaleIfAsked source f p s) := by
  refine .ite (fun hasked => ?_) fun _ => .pure _
  rw [Bool.and_eq_true, Bool.not_eq_true'] at hasked
  exact (rescaleVariables_failsOnly hp hn (hopen hasked.2)).bind fun _ _ => .pure _

omit [Scalar α] [Interchange α] in
/-- A solver that the table chooses handles the problems that it is chosen for. -/
theorem SelectionRule.handles_of_first? {kind : ProblemKind} {n : Nat} {budget : Int}
    {rule : SelectionRule} (h : first? table kind n budget = some rule) :
    rule.solver.handles kind = true := by
  have hall : ∀ rule ∈ table, rule.solver.handles rule.kind = true := by decide
  have hkind : rule.kind = kind := by
    have := List.find?_some h
    simp only [Bool.and_eq_true, beq_iff_eq] at this
    exact this.1
  rw [← hkind]
  exact hall rule (List.mem_of_find?_eq_some h)

omit [Interchange α] in
theorem Settings.exists_adapt {s : Settings α} {solver : Solver} {bounds : Bounds α}
    (hlen : bounds.upper.length = bounds.lower.length) : ∃ t, s.adapt solver n bounds = .ok t := by
  obtain ⟨halfWidth, hwidth⟩ := Bounds.exists_halfWidth hlen
  unfold adapt
  simp only [hwidth]
  split <;> exact ⟨_, rfl⟩

omit [Interchange α] in
/-- The table has a rule for every problem, and the settings can be adapted to its solver. -/
theorem choose_failsOnly {s : Settings α} {kind : ProblemKind} {bounds : Bounds α}
    (hlen : bounds.upper.length = bounds.lower.length) :
    Prep.FailsOnly F (selectSolver.choose SelectionRule.table s kind n bounds) := by
  obtain ⟨rule, hrule⟩ := Option.isSome_iff_exists.1
    (SelectionRule.first?_table_isSome kind n s.maxfun)
  have hmatch : matchRule SelectionRule.table kind n s.maxfun = .ok rule := by
    rw [matchRule, hrule]
  refine (Prep.FailsOnly.of_ok ⟨rule, hmatch⟩).bind fun found hfound => ?_
  rw [hmatch, Prep.yields_lift] at hfound
  cases hfound
  refine .ite (fun hnot => by simp [SelectionRule.handles_of_first? hrule] at hnot) fun _ => ?_
  exact (Prep.FailsOnly.leave _).bind fun _ _ => .of_ok (Settings.exists_adapt hlen)

theorem selectSolver_failsOnly {s : Settings α} {kind : ProblemKind} {bounds : Bounds α}
    (hlen : bounds.upper.length = bounds.lower.length) :
    Prep.FailsOnly F (selectSolver SelectionRule.table s kind n bounds .frontEnd) := by
  unfold selectSolver
  refine .ite (fun hnot => absurd rfl hnot) fun _ => ?_
  split
  · -- the solver that is named is kept, or the table chooses another one
    exact .ite (fun _ => (Prep.FailsOnly.leave _).bind fun _ _ => .pure _)
      fun _ => (Prep.FailsOnly.report _ _).bind fun _ _ => choose_failsOnly hlen
  · exact choose_failsOnly hlen

theorem settleSolver_failsOnly {invoker : Invoker} {s : Settings α} {kind : ProblemKind}
    (hlen : p.bounds.upper.length = p.bounds.lower.length) :
    Prep.FailsOnly F (settleSolver invoker s kind p) := by
  refine .ite (fun hfront => ?_) fun _ => .pure _
  subst hfront
  exact selectSolver_failsOnly hlen

end

/-! ## The whole preparation -/

variable {search : NearestSearch α} {invoker : Invoker} {i : Input α}

/-- Once the options are resolved, nothing can go wrong any more. -/
theorem prepare_finishes [LawfulScalar α] (hkeeps : search.KeepsDimension) (hsearch : search.Returns)
    {checked : Checked α} {reduced : Problem α} {elimination : Option (Elimination α)} {n : Nat}
    {resolved : Settings α} {j j₁ j₂ j₃ : Journal α}
    (hcheck : (check invoker.name i).outcome none j = (.ok checked, j₁))
    (hreduce : (reduce checked).outcome none j₁ = (.ok (reduced, elimination), j₂))
    (hhandles : invoker.handles reduced.kind = true)
    (hresolve : (resolveOptions invoker i.options reduced.dimension reduced.bounds).outcome none
      { j₂ with trace := j₂.trace ++ [.classified checked.problem.kind reduced.kind] }
        = (.ok resolved, j₃))
    (hfits : reduced.Fits n) (hpos : 0 < n)
    (hopen : checked.facts.isDegenerate = false → reduced.bounds.IsOpen) :
    ∃ r, ((prepare search invoker i).outcome none j).1 = .ok r := by
  obtain ⟨settled, j₄, hsettle⟩ : ∃ settled j₄,
      (settleStart search invoker.name reduced.kind checked.facts reduced).outcome none j₃
        = (.ok settled, j₄) :=
    (settleStart_failsOnly hkeeps hsearch hfits hopen).exists_outcome j₃
  obtain ⟨hsettled, hbounds⟩ := settleStart_fits hkeeps hfits (Prep.yields_of_outcome hsettle)
  rw [← hbounds] at hopen
  obtain ⟨⟨problem, rescaling, adjusted⟩, j₅, hrescale⟩ : ∃ rescaled j₅,
      (rescaleIfAsked invoker.name checked.facts settled resolved).outcome none j₄
        = (.ok rescaled, j₅) :=
    (rescaleIfAsked_failsOnly hsettled hpos hopen).exists_outcome j₄
  have hproblem := rescaleIfAsked_fits hsettled hpos (Prep.yields_of_outcome hrescale)
  obtain ⟨settings, j₆, hsolver⟩ : ∃ settings j₆,
      (settleSolver invoker adjusted reduced.kind problem).outcome none j₅ = (.ok settings, j₆) :=
    (settleSolver_failsOnly (hproblem.length_upper.trans hproblem.length_lower.symm)).exists_outcome j₅
  exact ⟨_, prepare_outcome hcheck hreduce hhandles hresolve hsettle hrescale hsolver⟩

/-- What is wrong with the other parts of an input is complained about whatever the options are. If nothing
is, the preparation fails exactly if the options cannot be resolved for the problem that is left, and in
the same fault. -/
theorem prepare_decided [LawfulScalar α] (hkeeps : search.KeepsDimension) (hsearch : search.Returns)
    (hsound : i.Sound) (hconstraints : i.constraints.Returns) (j : Journal α) :
    (∃ x, x.IsComplaint ∧ ∀ options,
      fault? ((prepare search invoker { i with options }).outcome none j).1 = some x) ∨
    ∃ n bounds l, bounds.upper.length = bounds.lower.length ∧ ∀ options,
      fault? ((prepare search invoker { i with options }).outcome none j).1
        = fault? ((resolveOptions invoker options n bounds).outcome none l).1 := by
  -- options are not among what is checked
  have hchecks (options : Value α) : (check invoker.name { i with options }).outcome none j
    = (check invoker.name i).outcome none j := rfl
  rcases hcheck : (check invoker.name i).outcome none j with ⟨x | checked, j₁⟩
  · refine .inl ⟨x, check_failsOnly hsound hconstraints j x (by rw [hcheck]), fun options => ?_⟩
    rw [prepare, Prep.outcome_bind_of_error ((hchecks options).trans hcheck)]
    rfl
  obtain ⟨given, hgiven, hof⟩ := check_yields (Prep.yields_of_outcome hcheck)
  obtain ⟨hgiven, hpos⟩ := Input.stated_fits hgiven
  have hfits := hof.problem_fits hgiven
  have hfixed := hof.length_fixed hgiven
  obtain ⟨⟨reduced, elimination⟩, j₂, hreduce⟩ :=
    (reduce_failsOnly hfits hpos hfixed).exists_outcome j₁
  obtain ⟨m, hm, hpos'⟩ := reduce_fits hfits hpos hfixed (Prep.yields_of_outcome hreduce)
  have hopen : checked.facts.isDegenerate = false → reduced.bounds.IsOpen := by
    obtain ⟨hmask, hinfeasible, -⟩ := Facts.ofConstraints_eq_ok hof.facts_eq
    rw [← hof.bounds_eq] at hmask hinfeasible
    exact reduce_isOpen hfits hpos hmask hinfeasible (Prep.yields_of_outcome hreduce)
  by_cases hhandles : invoker.handles reduced.kind = true
  · refine .inr ⟨reduced.dimension, reduced.bounds,
      { j₂ with trace := j₂.trace ++ [.classified checked.problem.kind reduced.kind] },
      hm.length_upper.trans hm.length_lower.symm, fun options => ?_⟩
    rcases hresolve : (resolveOptions invoker options reduced.dimension reduced.bounds).outcome none
      { j₂ with trace := j₂.trace ++ [.classified checked.problem.kind reduced.kind] }
      with ⟨x | resolved, j₃⟩
    · have hkind : checkKind invoker reduced.kind = .ok () := checkKind_eq_ok.2 hhandles
      rw [prepare, Prep.outcome_bind_of_ok ((hchecks options).trans hcheck),
        Prep.outcome_bind_of_ok hreduce]
      simp only [Prep.outcome_bind, Prep.outcome_leave, Prep.outcome_lift, hkind, hresolve]
      rfl
    · obtain ⟨r, hr⟩ := prepare_finishes (i := { i with options }) hkeeps hsearch
        ((hchecks options).trans hcheck) hreduce hhandles hresolve hm hpos' hopen
      rw [hr]
      rfl
  · refine .inl ⟨.invalid (.kindNotSolved reduced.kind) invoker.name, Fault.isComplaint_invalid _ _,
      fun options => ?_⟩
    have hkind : checkKind invoker reduced.kind
        = .error (.invalid (.kindNotSolved reduced.kind) invoker.name) := if_neg hhandles
    rw [prepare, Prep.outcome_bind_of_ok ((hchecks options).trans hcheck),
      Prep.outcome_bind_of_ok hreduce]
    simp only [Prep.outcome_bind, Prep.outcome_leave, Prep.outcome_lift, hkind]
    rfl

/-- A preparation complains or ends as the resolution of options does. -/
theorem prepare_failsOnly_of_resolveOptions [LawfulScalar α] {F : Fault → Prop}
    (hkeeps : search.KeepsDimension) (hsearch : search.Returns) (hsound : i.Sound)
    (hconstraints : i.constraints.Returns) (hF : ∀ x, x.IsComplaint → F x)
    (hresolve : ∀ n bounds, bounds.upper.length = bounds.lower.length →
      Prep.FailsOnly F (resolveOptions invoker i.options n bounds)) :
    Prep.FailsOnly F (prepare search invoker i) := by
  intro j x hx
  rcases prepare_decided hkeeps hsearch hsound hconstraints j with ⟨y, hy, h⟩ | ⟨n, bounds, l, hlen, h⟩
  · obtain rfl : y = x := Option.some.inj ((h i.options).symm.trans (fault?_eq_some.2 hx))
    exact hF y hy
  · exact hresolve n bounds hlen l x
      (fault?_eq_some.1 ((h i.options).symm.trans (fault?_eq_some.2 hx)))

theorem resolveOptions_failsOnly {n : Nat} {bounds : Bounds α} {options : Value α}
    (hsound : options.isSound = true) (hplain : options.ArePlain)
    (hlen : bounds.upper.length = bounds.lower.length) :
    Prep.FailsOnly Fault.IsComplaint (resolveOptions invoker options n bounds) := by
  have hread : FaultsOnly Fault.IsComplaint (readEntries invoker.name options) := by
    rcases hplain with rfl | ⟨given, rfl, -⟩ <;> exact .ok _
  refine (Prep.FailsOnly.lift hread).bind fun entries hentries => ?_
  rw [Prep.yields_lift] at hentries
  exact Resolution.settings_failsOnly (hplain.readable hentries) (isSound_readEntries hsound hentries)
    hlen

theorem prepare_failsOnly [LawfulScalar α] (hkeeps : search.KeepsDimension) (hsearch : search.Returns)
    (hsound : i.Sound) (hconstraints : i.constraints.Returns) (hoptions : i.options.ArePlain) :
    Prep.FailsOnly Fault.IsComplaint (prepare search invoker i) :=
  prepare_failsOnly_of_resolveOptions hkeeps hsearch hsound hconstraints (fun _ hx => hx)
    fun _ _ hlen => resolveOptions_failsOnly hsound.options hoptions hlen

/-- Where no warning is escalated, a preparation of sound values and plain options ends in a record or in
a complaint about the input. No defect is reachable, and no other fault escapes. -/
theorem prepare_returns_or_complains [LawfulScalar α] (search : NearestSearch α) (invoker : Invoker)
    (i : Input α) (hkeeps : search.KeepsDimension) (hsearch : search.Returns) (hsound : i.Sound)
    (hconstraints : i.constraints.Returns) (hoptions : i.options.ArePlain) :
    (∃ r, (Prep.run none (prepare search invoker i)).1 = .ok r) ∨
      ∃ x, (Prep.run none (prepare search invoker i)).1 = .error x ∧ x.IsComplaint := by
  rcases h : (Prep.run none (prepare search invoker i)).1 with x | r
  · exact .inr ⟨x, rfl, prepare_failsOnly hkeeps hsearch hsound hconstraints hoptions {} x h⟩
  · exact .inl ⟨r, rfl⟩

end

/-- A problem without an objective, with a variable to eliminate, two to rescale, constraints of which one
part is absent, and an option that no solver has. -/
def unevenInput : Input Float where
  start := .tuple [.int 0, .real 0.5, .bool true]
  lower := .list [.int 0, .int 1, .real 0.5]
  upper := .list [.int 4, .int 1, .int 2]
  constraints := .function ⟨"function", none⟩ none fun x => .ok (.tuple [.absent, .ofList x])
  options := .mapping [(.text "scale", .bool true), (.text "depth", .int 3)]

theorem prepare_returns_or_complains_unevenInput :
    (∃ r, (Prep.run none (prepare .stay .frontEnd unevenInput)).1 = .ok r) ∨
      ∃ x, (Prep.run none (prepare .stay .frontEnd unevenInput)).1 = .error x ∧ x.IsComplaint := by
  refine prepare_returns_or_complains .stay .frontEnd unevenInput NearestSearch.stay_keepsDimension
    NearestSearch.stay_returns ⟨rfl, rfl, rfl, rfl, rfl, rfl, rfl, rfl⟩ ?_ (.inr ⟨_, rfl, ?_⟩)
  · rintro view parts? f hf x
    cases hf
    exact ⟨_, rfl⟩
  · intro entry hentry
    -- neither value is an integer that is too large
    simp only [List.mem_cons, List.not_mem_nil, or_false] at hentry
    rcases hentry with rfl | rfl
    · refine ⟨rfl, ?_⟩
      rintro ⟨i, hi, -⟩
      cases hi
    · refine ⟨rfl, ?_⟩
      rintro ⟨i, hi, hfits⟩
      cases hi
      exact absurd hfits (by decide +kernel)

/-! ## Options that are too large -/

section

variable {α : Type} [Scalar α] [Interchange α]

/-- An option that the solver has, other than the solver itself, is an integer that is too large. -/
def Value.HoldsHuge (invoker : Invoker) (options : Value α) : Prop :=
  ∃ entries, readEntries invoker.name options = .ok entries ∧
    let c : Resolution.Context α := ⟨invoker, 0, .free 0, entries⟩
    ∃ name ∈ OptionName.known c.asked?, name ≠ .solver ∧ ∃ v, c.find? name = some v ∧ v.IsHuge

/-- The keys of the options that are set are texts. -/
def Value.HasTextKeys (options : Value α) : Prop :=
  ∀ source entries, readEntries source options = .ok entries → ∀ entry ∈ entries, entry.1.text?.isSome

variable {invoker : Invoker} {options : Value α} {n : Nat} {bounds : Bounds α}

omit [Scalar α] [Interchange α] in
theorem Value.HasTextKeys.unknownKeys {entries : Entries α} (h : options.HasTextKeys)
    (hread : readEntries invoker.name options = .ok entries) :
    ∀ key ∈ (⟨invoker, n, bounds, entries⟩ : Resolution.Context α).unknownKeys, key.text?.isSome := by
  intro key hkey
  obtain ⟨entry, hentry, rfl⟩ := List.mem_map.1 (List.mem_filter.1 hkey).1
  exact h _ _ hread entry hentry

theorem resolveOptions_failsOnly_overflow (hsound : options.isSound = true) (hkeys : options.HasTextKeys)
    (hlen : bounds.upper.length = bounds.lower.length) :
    Prep.FailsOnly (fun x => x.IsComplaint ∨ x = .overflow) (resolveOptions invoker options n bounds) := by
  have hread := readEntries_of_areOptions invoker.name options
  split at hread
  · refine (Prep.FailsOnly.of_ok hread).bind fun entries hentries => ?_
    rw [Prep.yields_lift] at hentries
    intro j x hx
    exact .inr (Resolution.settings_failsOnly_overflow (.inr (hkeys.unknownKeys hentries))
      (isSound_readEntries hsound hentries) hlen j x hx)
  · refine (Prep.FailsOnly.lift ?_).bind fun entries hentries => ?_
    · rw [hread]
      exact .error (.inl (Fault.isComplaint_invalid _ _))
    · rw [Prep.yields_lift, hread] at hentries
      cases hentries

/-- Options are too large to be resolved exactly if one that the solver has is. -/
theorem resolveOptions_overflow_iff (hsound : options.isSound = true) (hkeys : options.HasTextKeys)
    (hlen : bounds.upper.length = bounds.lower.length) (j : Journal α) :
    ((resolveOptions invoker options n bounds).outcome none j).1 = .error .overflow ↔
      options.HoldsHuge invoker := by
  cases hread : readEntries invoker.name options with
  | error x =>
    have hrun : (resolveOptions invoker options n bounds).outcome none j = (.error x, j) := by
      rw [resolveOptions, Prep.outcome_bind, hread, Prep.outcome_lift]
    have hother := readEntries_of_areOptions invoker.name options
    rw [hread] at hother
    refine iff_of_false (fun hfault => ?_) ?_
    · rw [hrun] at hfault
      cases hfault
      split at hother
      · obtain ⟨_, hok⟩ := hother
        cases hok
      · cases hother
    · rintro ⟨entries, hentries, -⟩
      cases hread.symm.trans hentries
  | ok entries =>
    have hrun : (resolveOptions invoker options n bounds).outcome none j
        = (Resolution.settings ⟨invoker, n, bounds, entries⟩).outcome none j := by
      rw [resolveOptions, Prep.outcome_bind, hread, Prep.outcome_lift]
    have hunknown : ∀ key ∈ (⟨invoker, n, bounds, entries⟩ : Resolution.Context α).unknownKeys,
        key.text?.isSome := hkeys.unknownKeys hread
    have hentries := isSound_readEntries hsound hread
    rw [hrun]
    constructor
    · intro hfault
      by_contra hhuge
      -- nothing is too large, so the options are readable and cannot fail
      refine Resolution.settings_failsOnly (F := fun _ => False) ⟨.inr hunknown, ?_⟩ hentries hlen j _ hfault
      exact fun name hname hsolver v hv hlarge =>
        hhuge ⟨entries, hread, name, hname, hsolver, v, hv, hlarge⟩
    · rintro ⟨entries', hread', name, hname, hsolver, v, hv, hhuge⟩
      obtain rfl := Except.ok.inj (hread.symm.trans hread')
      rcases hsettings : (Resolution.settings ⟨invoker, n, bounds, entries⟩).outcome none j
        with ⟨x | s, k⟩
      · exact congrArg _ (Resolution.settings_failsOnly_overflow (.inr hunknown) hentries hlen j x
          (by rw [hsettings]))
      · have hreadable := Resolution.readable_of_yields (Prep.yields_of_outcome hsettings)
        exact absurd hhuge (hreadable.values name hname hsolver v hv)

variable [LawfulScalar α] {search : NearestSearch α} {i : Input α}

/-- A preparation of sound values ends in a record, in a complaint, or in a number that is too large. -/
theorem prepare_failsOnly_overflow (hkeeps : search.KeepsDimension) (hsearch : search.Returns)
    (hsound : i.Sound) (hconstraints : i.constraints.Returns) (hkeys : i.options.HasTextKeys) :
    Prep.FailsOnly (fun x => x.IsComplaint ∨ x = .overflow) (prepare search invoker i) :=
  prepare_failsOnly_of_resolveOptions hkeeps hsearch hsound hconstraints (fun _ => .inl)
    fun _ _ hlen => resolveOptions_failsOnly_overflow hsound.options hkeys hlen

/-- A number is too large for a preparation exactly if an option of the solver is, and nothing else is
complained about. -/
theorem prepare_overflow_iff (hkeeps : search.KeepsDimension) (hsearch : search.Returns)
    (hsound : i.Sound) (hconstraints : i.constraints.Returns) (hkeys : i.options.HasTextKeys)
    (j : Journal α) :
    ((prepare search invoker i).outcome none j).1 = .error .overflow ↔
      i.options.HoldsHuge invoker ∧
        ∃ r, ((prepare search invoker { i with options := .absent }).outcome none j).1 = .ok r := by
  rcases prepare_decided hkeeps hsearch hsound hconstraints j with ⟨y, hy, h⟩ | ⟨n, bounds, l, hlen, h⟩
  · -- what is complained about are other parts of the input
    refine iff_of_false (fun hx => ?_) (fun ⟨_, r, hr⟩ => ?_)
    · obtain rfl : y = .overflow := Option.some.inj ((h i.options).symm.trans (fault?_eq_some.2 hx))
      obtain ⟨_, _, hcomplaint⟩ := Fault.isComplaint_iff.1 hy
      cases hcomplaint
    · have hfault := h .absent
      rw [hr] at hfault
      cases hfault
  · have hiff : ((resolveOptions invoker i.options n bounds).outcome none l).1 = .error .overflow ↔
        i.options.HoldsHuge invoker := resolveOptions_overflow_iff hsound.options hkeys hlen l
    rw [← hiff, ← fault?_eq_some, h i.options, fault?_eq_some]
    refine (and_iff_left ?_).symm
    -- without options there is nothing to resolve
    have habsent : Prep.FailsOnly (fun _ => False) (resolveOptions invoker .absent n bounds) := by
      refine (Prep.FailsOnly.of_ok ⟨[], rfl⟩).bind fun entries hentries => ?_
      cases Prep.yields_lift.1 hentries
      exact Resolution.settings_failsOnly (Value.ArePlain.readable (.inl rfl) rfl) (List.forall_mem_nil _)
        hlen
    obtain ⟨s, hs⟩ := habsent.exists_ok l
    have hfault := h .absent
    rw [hs] at hfault
    cases hprepared : ((prepare search invoker { i with options := .absent }).outcome none j).1 with
    | ok r => exact ⟨r, rfl⟩
    | error x =>
      rw [hprepared] at hfault
      cases hfault

end

end Presolve
