import Presolve.Proofs.Number.Extended
import Presolve.Proofs.Preparation.Conduct
import Presolve.Proofs.Solver.Selected

/-!
# The decision for a solver

Who decides which solver a problem is prepared for. A solver that is the invoker is the one, or the
problem is refused. The front end keeps the solver that was asked for as long as it handles what is left of
the problem; otherwise the table decides, and only where a solver was asked for in vain is that reported.
-/

namespace Presolve

open Scalar

variable {α : Type}

/-! ## What is asked for -/

/-- The solver of a name is the one whose name it is in lower case. -/
theorem Solver.parse?_eq_some {name : String} {s : Solver} :
    parse? name = some s ↔ name.toLower = s.name := by
  unfold parse?
  constructor
  · intro h
    have hname := List.find?_some h
    exact (beq_iff_eq.1 hname).symm
  · intro h
    rw [h]
    exact ofName?_name s

/-- Do options name a solver, in upper or lower case? -/
def NamesSolver (options : Value α) (s : Solver) : Prop :=
  ∃ entries value, readEntries Invoker.frontEnd.name options = .ok entries ∧
    Value.lookup? OptionName.solver.key entries = some value ∧
    (Resolution.requestedName value).toLower = s.name

/-- The front end asks for the solver that the options name. -/
theorem Resolution.Context.asked?_eq_some {c : Context α} {options : Value α} {s : Solver}
    (hinvoker : c.invoker = .frontEnd)
    (hentries : readEntries Invoker.frontEnd.name options = .ok c.entries) :
    c.asked? = some s ↔ NamesSolver options s := by
  simp only [asked?, hinvoker, find?, Option.bind_eq_some_iff, Solver.parse?_eq_some, NamesSolver,
    hentries, Except.ok.injEq]
  constructor
  · rintro ⟨value, hvalue, hname⟩
    exact ⟨_, value, rfl, hvalue, hname⟩
  · rintro ⟨_, value, rfl, hvalue, hname⟩
    exact ⟨value, hvalue, hname⟩

/-! ## What a record says -/

/-- The identifier of the diagnostics about a solver that was asked for from the front end. -/
def unsuitableSolverId : String := "pdfo:InvalidSolver"

theorem id_unsuitableSolver (s : Solver) (kind : ProblemKind) :
    (⟨Invoker.frontEnd.name, .unsuitableSolver s kind⟩ : Diagnostic α).id = unsuitableSolverId := rfl

theorem id_ne_unsuitableSolverId {a : Anomaly α} (h : a.blamesSolver = false) :
    (⟨Invoker.frontEnd.name, a⟩ : Diagnostic α).id ≠ unsuitableSolverId := by
  intro hid
  have htag : a.tag = "InvalidSolver" := by
    have hsplit : unsuitableSolverId = "pdfo" ++ ":" ++ "InvalidSolver" := rfl
    rw [hsplit] at hid
    exact (String.append_right_inj _).1 hid
  rw [Anomaly.tag_eq_iff, h] at htag
  cases htag

namespace Record

/-- The number of diagnostics about a solver that was asked for from the front end. -/
def unsuitableSolverCount (r : Record α) : Nat :=
  r.diagnostics.countP fun d => d.id == unsuitableSolverId

/-- The first row of the table for the refined problem and the resolved budget names the solver. -/
def FollowsTable (r : Record α) (s : Solver) : Prop :=
  ∃ rule, SelectionRule.first? SelectionRule.table r.refinedKind r.refinedDimension r.settings.maxfun
    = some rule ∧ rule.solver = s

/-- The solver that a record of the front end names was decided on as it should be. -/
structure IsDecided (r : Record α) (options : Value α) (s : Solver) : Prop where
  kept : ∀ named, NamesSolver options named → named.handles r.refinedKind = true →
    s = named ∧ r.unsuitableSolverCount = 0
  replaced : ∀ named, NamesSolver options named → named.handles r.refinedKind = false →
    r.unsuitableSolverCount = 1 ∧ r.FollowsTable s
  chosen : (∀ named, ¬NamesSolver options named) → r.FollowsTable s

namespace IsDecided

variable {r : Record α} {options : Value α} {asked s : Solver}

/-- The solver that is asked for handles the problem, and is kept without a word. -/
theorem of_kept (hasked : ∀ named, NamesSolver options named ↔ named = asked)
    (hhandles : asked.handles r.refinedKind = true) (hcount : r.unsuitableSolverCount = 0) :
    r.IsDecided options asked where
  kept named h _ := ⟨((hasked named).1 h).symm, hcount⟩
  replaced named h hnot := by
    rw [(hasked named).1 h, hhandles] at hnot
    cases hnot
  chosen h := absurd ((hasked asked).2 rfl) (h asked)

/-- The solver that is asked for does not handle the problem, and the table puts another in its place. -/
theorem of_replaced (hasked : ∀ named, NamesSolver options named ↔ named = asked)
    (hnot : ¬asked.handles r.refinedKind = true) (hcount : r.unsuitableSolverCount = 1)
    (htable : r.FollowsTable s) : r.IsDecided options s where
  kept named h hhandles := by
    rw [(hasked named).1 h] at hhandles
    exact absurd hhandles hnot
  replaced _ _ _ := ⟨hcount, htable⟩
  chosen h := absurd ((hasked asked).2 rfl) (h asked)

/-- No solver is asked for, and the table decides. -/
theorem of_none (hnone : ∀ named, ¬NamesSolver options named) (htable : r.FollowsTable s) :
    r.IsDecided options s where
  kept named h := absurd h (hnone named)
  replaced named h := absurd h (hnone named)
  chosen _ := htable

end IsDecided

/-- The data of a record hold the name of its solver. -/
theorem field?_solver_toJson [Scalar α] [Interchange α] {r : Record α} {data : Json α} {s : Solver}
    (h : r.toJson = .ok data) (hs : r.solver = some s) : data.field? "solver" = some (.text s.name) := by
  unfold toJson at h
  split at h
  · obtain ⟨_, -, h⟩ := bind_eq_ok.1 h
    cases h
    simp [Json.field?, hs, Json.ofOption]
  · obtain ⟨_, -, h⟩ := bind_eq_ok.1 h
    cases h
    simp [Json.field?, hs, Json.ofOption]

end Record

/-! ## Preparations -/

section

variable [Scalar α] [Interchange α] {search : NearestSearch α} {i : Input α} {e : Option Category}
  {j k : Journal α} {r : Record α}

namespace Course

/-- Before selection the front end has said nothing about the solver. -/
theorem forall_afterRescale (c : Course search .frontEnd i e {} r k) (hsearch : search.NeverRefuses) :
    ∀ d ∈ c.afterRescale.log.entries, d.id ≠ unsuitableSolverId := by
  -- the log is empty at first, and each stage adds only anomalies of other tags
  have hA (a : Anomaly α) (h : a.blamesSolver = false) :
      (⟨Invoker.frontEnd.name, a⟩ : Diagnostic α).id ≠ unsuitableSolverId := id_ne_unsuitableSolverId h
  have hcheck : ∀ d ∈ c.afterCheck.log.entries, d.id ≠ unsuitableSolverId :=
    (check_within (A := fun a => a.blamesSolver = false) rfl _ i).forall_entries c.check_eq hA (by simp)
  have hreduce : ∀ d ∈ c.afterReduce.log.entries, d.id ≠ unsuitableSolverId :=
    (reduce_within _ c.checked).forall_entries c.reduce_eq hA hcheck
  rw [← c.beforeResolve_log] at hreduce
  have hresolve : ∀ d ∈ c.afterResolve.log.entries, d.id ≠ unsuitableSolverId :=
    (resolveOptions_discreet _ _ _ _).forall_entries c.resolve_eq
      (fun a ha => hA a ha.blamesSolver) hreduce
  have hsettle : ∀ d ∈ c.afterSettle.log.entries, d.id ≠ unsuitableSolverId :=
    (settleStart_discreet hsearch _ _ _ _).forall_entries c.settle_eq
      (fun a ha => hA a (ha ▸ rfl)) hresolve
  exact (rescaleIfAsked_discreet _ _ _ _).forall_entries c.rescale_eq
    (fun a ha => hA a (ha ▸ rfl)) hsettle

/-- Where selection adds nothing to the log, no diagnostic is about the solver. -/
theorem count_eq_zero (c : Course search .frontEnd i e {} r k) (hsearch : search.NeverRefuses)
    (h : c.afterSolver.log.entries = c.afterRescale.log.entries) : r.unsuitableSolverCount = 0 := by
  have hbefore := c.forall_afterRescale hsearch
  rw [Record.unsuitableSolverCount, c.diagnostics_eq, h, List.countP_eq_zero]
  intro d hd
  simpa using hbefore d hd

/-- Where selection adds that the solver does not handle the problem, this is the only diagnostic about
the solver. -/
theorem count_eq_one (c : Course search .frontEnd i e {} r k) (hsearch : search.NeverRefuses)
    {s : Solver} {kind : ProblemKind} (h : c.afterSolver.log.entries = c.afterRescale.log.entries ++
      [⟨Invoker.frontEnd.name, .unsuitableSolver s kind⟩]) : r.unsuitableSolverCount = 1 := by
  have hbefore := c.forall_afterRescale hsearch
  have hzero : c.afterRescale.log.entries.countP (fun d => d.id == unsuitableSolverId) = 0 := by
    rw [List.countP_eq_zero]
    intro d hd
    simpa using hbefore d hd
  rw [Record.unsuitableSolverCount, c.diagnostics_eq, h, List.countP_append, hzero,
    List.countP_singleton, id_unsuitableSolver]
  rfl

/-- Settings that were adapted name the solver of the table. -/
theorem followsTable (c : Course search .frontEnd i e {} r k)
    (h : c.adjusted.AdaptsTo SelectionRule.table r.refinedKind r.refinedDimension r.problem.bounds
      r.settings) : ∃ s, r.solver = some s ∧ s.handles r.refinedKind = true ∧ r.FollowsTable s := by
  obtain ⟨rule, hrule, hhandles, hadapt⟩ := h
  obtain ⟨hs, hmaxfun, -⟩ := Settings.adapt_eq_ok hadapt
  refine ⟨rule.solver, hs, hhandles, rule, ?_, rfl⟩
  -- the budget that the rules were tried with is the one that is left
  rwa [hmaxfun]

/-- The decision of the front end. -/
theorem isDecided (c : Course search .frontEnd i e {} r k) (hdim : search.KeepsDimension)
    (hsearch : search.NeverRefuses) : ∃ s, r.solver = some s ∧ s.handles r.refinedKind = true ∧
      r.IsDecided i.options s := by
  obtain ⟨entries, hentries, hasked⟩ := c.adjusted_solver hdim
  have hnames (s : Solver) : NamesSolver i.options s ↔ c.adjusted.solver = some s := by
    rw [hasked]
    exact (Resolution.Context.asked?_eq_some rfl hentries).symm
  have hsolver := c.solver_eq
  rw [settleSolver, if_pos rfl, c.problem_dimension hdim, ← c.refinedKind_eq] at hsolver
  have hselected := selectSolver_outcome hsolver
  cases hadjusted : c.adjusted.solver with
  | none =>
    simp only [hadjusted] at hselected
    obtain ⟨s, hs, hhandles, htable⟩ := c.followsTable hselected.1
    refine ⟨s, hs, hhandles, .of_none ?_ htable⟩
    intro named h
    rw [hnames, hadjusted] at h
    cases h
  | some asked =>
    have honly (named : Solver) : NamesSolver i.options named ↔ named = asked := by
      rw [hnames, hadjusted, Option.some.injEq, eq_comm]
    simp only [hadjusted] at hselected
    by_cases hhandles : asked.handles r.refinedKind = true
    · rw [if_pos hhandles] at hselected
      obtain ⟨hsettings, hlog⟩ := hselected
      refine ⟨asked, ?_, hhandles, .of_kept honly hhandles (c.count_eq_zero hsearch hlog)⟩
      rw [Record.solver, hsettings, hadjusted]
    · rw [if_neg hhandles] at hselected
      obtain ⟨s, hs, hsuits, htable⟩ := c.followsTable hselected.1
      exact ⟨s, hs, hsuits, .of_replaced honly hhandles (c.count_eq_one hsearch hselected.2) htable⟩

/-- A solver that is the invoker is the one. -/
theorem solver_eq_invoker {own : Solver} (c : Course search (.solver own) i e j r k)
    (hdim : search.KeepsDimension) : r.solver = some own ∧ own.handles r.refinedKind = true := by
  obtain ⟨entries, -, hasked⟩ := c.adjusted_solver hdim
  have hsolver := c.solver_eq
  rw [settleSolver, if_neg (by simp), Prep.outcome_pure, Prod.mk.injEq, Except.ok.injEq] at hsolver
  refine ⟨?_, ?_⟩
  · rw [Record.solver, ← hsolver.1]
    exact hasked
  · rw [c.refinedKind_eq]
    exact c.handles

end Course

/-- A run whose checks succeed refuses the problem exactly if the solver does not handle what is left of
it. -/
theorem prepare_isRefusal_iff {own : Solver} {p : Problem α} {el : Option (Elimination α)}
    (hsearch : search.NeverRefuses) (hvalid : (Prep.run e (check own.name i >>= reduce)).1 = .ok (p, el)) :
    (∃ x, (Prep.run e (prepare search (.solver own) i)).1 = .error x ∧ x.IsRefusal) ↔
      own.handles p.kind = false := by
  obtain ⟨checked, l, hcheck, hreduce⟩ := Prep.outcome_bind_eq_ok.1 (Prod.ext hvalid rfl)
  -- after the checks, what is left of the run begins with the comparison of solver and kind
  have hrun : Prep.run e (prepare search (.solver own) i) = _ :=
    (Prep.outcome_bind_of_ok hcheck).trans (Prep.outcome_bind_of_ok hreduce)
  rw [hrun]
  cases hhandles : own.handles p.kind with
  | false =>
    have hrefused : checkKind (.solver own) p.kind
        = .error (.invalid (.kindNotSolved p.kind) own.name) := by
      rw [checkKind, if_neg (by simp [Invoker.handles, hhandles])]
      rfl
    refine iff_of_true ?_ rfl
    simp only [hrefused]
    exact ⟨_, rfl, Fault.isRefusal_kindNotSolved _ _⟩
  | true =>
    have haccepted : checkKind (.solver own) p.kind = .ok () := checkKind_eq_ok.2 hhandles
    refine iff_of_false ?_ (by simp)
    simp only [haccepted]
    rintro ⟨x, hx, hrefusal⟩
    -- the stages after the comparison are discreet, whatever they report
    refine absurd hrefusal (Discreet.not_isRefusal (A := fun _ => True) (.solver own) ?_ hx)
    refine (Discreet.leave _).bind fun _ => (Discreet.lift (.ok ())).bind fun _ => ?_
    refine ((resolveOptions_discreet _ _ _ _).mono fun _ _ => trivial).bind fun resolved => ?_
    refine ((settleStart_discreet hsearch _ _ _ _).mono fun _ _ => trivial).bind fun settled => ?_
    refine ((rescaleIfAsked_discreet _ _ _ _).mono fun _ _ => trivial).bind fun rescaled => ?_
    refine Discreet.bind ?_ fun settings => ?_
    · rw [settleSolver, if_neg (by simp)]
      exact .pure _
    · exact .bind Prep.Within.diagnostics fun _ => (Discreet.leave _).bind fun _ => .pure _

/-- Whoever prepares a problem, the solver that it ends up with handles what is left of it, and is the
one that it should be: the invoker, if that is a solver, and otherwise the one that was asked for or that
the table names. A solver that is the invoker refuses the problem exactly if it does not handle what is
left. -/
theorem prepare_decides_solver (invoker : Invoker) (hdim : search.KeepsDimension)
    (hsearch : search.NeverRefuses) :
    (∀ r, (Prep.run e (prepare search invoker i)).1 = .ok r → ∃ s, r.settings.solver = some s ∧
      s.handles r.refinedKind = true ∧
      (∀ data, r.toJson = .ok data → data.field? "solver" = some (.text s.name)) ∧
      match invoker with
      | .solver own => s = own
      | .frontEnd => r.IsDecided i.options s) ∧
    (∀ own p el, invoker = .solver own →
      (Prep.run e (check invoker.name i >>= reduce)).1 = .ok (p, el) →
      ((∃ x, (Prep.run e (prepare search invoker i)).1 = .error x ∧ x.IsRefusal) ↔
        own.handles p.kind = false)) := by
  constructor
  · intro r h
    obtain ⟨c⟩ := exists_course (Prod.ext h rfl)
    cases invoker with
    | frontEnd =>
      obtain ⟨s, hs, hhandles, hdecided⟩ := c.isDecided hdim hsearch
      exact ⟨s, hs, hhandles, fun data hdata => Record.field?_solver_toJson hdata hs, hdecided⟩
    | solver own =>
      obtain ⟨hs, hhandles⟩ := c.solver_eq_invoker hdim
      exact ⟨own, hs, hhandles, fun data hdata => Record.field?_solver_toJson hdata hs, rfl⟩
  · rintro own p el rfl hvalid
    exact prepare_isRefusal_iff hsearch hvalid

/-- Two variables, of which only one has bounds, and these fix it. -/
def pinnedInput : Input (Extended ℚ) where
  objective := zeroObjective
  start := .list [.int 0, .int 0]
  lower := .list [.real .bottom, .int 1]
  upper := .list [.real .top, .int 1]
  options := .mapping [(.text "solver", .text "UoByQa")]

/-- A solver for problems without bounds is kept where the bounds go with the variables that they fix. -/
theorem prepare_decides_solver_pinnedInput : ∃ r,
    (Prep.run none (prepare NearestSearch.stay .frontEnd pinnedInput)).1 = .ok r ∧
      (r.rawKind, r.refinedKind, r.settings.solver)
        = (.boundConstrained, .unconstrained, some .uobyqa) ∧
      NamesSolver pinnedInput.options .uobyqa ∧ r.unsuitableSolverCount = 0 := by
  have hrun : (Prep.run none (prepare NearestSearch.stay .frontEnd pinnedInput)).1.toOption.map
      (fun r => (r.rawKind, r.refinedKind, r.settings.solver))
        = some (.boundConstrained, .unconstrained, some .uobyqa) := by decide +kernel
  obtain ⟨r, hr, hkinds⟩ := exists_of_toOption_map hrun
  obtain ⟨s, hs, -, -, hdecided⟩ := (prepare_decides_solver .frontEnd
    NearestSearch.stay_keepsDimension NearestSearch.stay_neverRefuses).1 r hr
  have hsolver : r.settings.solver = some .uobyqa := congrArg (·.2.2) hkinds
  obtain rfl := Option.some.inj (hs.symm.trans hsolver)
  have hnames : NamesSolver pinnedInput.options .uobyqa :=
    ⟨[(.text "solver", .text "UoByQa")], .text "UoByQa", rfl, rfl, by decide +kernel⟩
  have hhandles : Solver.uobyqa.handles r.refinedKind = true := by
    rw [show r.refinedKind = .unconstrained from congrArg (·.2.1) hkinds]
    rfl
  exact ⟨r, hr, hkinds, hnames, (hdecided.kept .uobyqa hnames hhandles).2⟩

end

end Presolve
