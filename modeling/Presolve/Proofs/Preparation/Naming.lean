import Presolve.Proofs.Preparation.Agreement
import Presolve.Proofs.Solver.Agreement
import Presolve.Proofs.Solver.Decision
import Presolve.Proofs.Value.Lookup

/-!
# Naming a solver and invoking it

A caller can invoke a solver, or name it among the options of the front end. A preparation that succeeds
in the first way succeeds in the second one with the same result: the solver handles the problem, so the
front end keeps it, and everything in between is done alike. Diagnostics differ in the name they are
reported under.
-/

namespace Presolve

open Scalar

variable {α : Type}

/-! ## Diagnostics under another name -/

/-- Two diagnostics whose identifiers and messages differ in the name they begin with alone. -/
def Diagnostic.DiffersInName [Interchange α] (source source' : String) (d d' : Diagnostic α) : Prop :=
  ∃ tag text, d.id = source ++ ":" ++ tag ∧ d'.id = source' ++ ":" ++ tag ∧
    d.message = source ++ ": " ++ text ∧ d'.message = source' ++ ": " ++ text ∧
    Notice.category d' = Notice.category d

/-- One anomaly, which names nobody, reported by two invokers. -/
structure Diagnostic.Shared (source source' : String) (d d' : Diagnostic α) : Prop where
  source_eq : d.source = source
  source_eq' : d'.source = source'
  anomaly_eq : d'.anomaly = d.anomaly
  namesInvoker : d.anomaly.namesInvoker = false

theorem Diagnostic.Shared.differsInName [Interchange α] {source source' : String}
    {d d' : Diagnostic α} (h : d.Shared source source' d') : d.DiffersInName source source' d' := by
  refine ⟨d.anomaly.tag, d.anomaly.text source, ?_, ?_, ?_, ?_, ?_⟩
  · rw [id, h.source_eq]
  · rw [id, h.source_eq', h.anomaly_eq]
  · rw [message, h.source_eq]
  · rw [message, h.source_eq', h.anomaly_eq, Anomaly.text_eq h.namesInvoker source source']
  · exact congrArg Anomaly.category h.anomaly_eq

theorem Diagnostic.shared_accord [Interchange α] (source source' : String) :
    Accord (Diagnostic.Shared (α := α) source source') (fun _ _ => True) source source' where
  report _ ha := ⟨rfl, rfl, rfl, ha⟩
  category _ _ h := congrArg Anomaly.category h.anomaly_eq
  escalated _ _ _ := trivial
  refl _ := trivial
  invalid _ := trivial

/-! ## Options that name a solver -/

variable [Scalar α] {s : Solver} {entries : Entries α} {value : Value α}

/-- A value that names a solver, in upper or lower case, or is one. -/
def Value.Names (value : Value α) (s : Solver) : Prop :=
  value = .solver s ∨ ∃ name, value.name? = some name ∧ name.toLower = s.name

omit [Scalar α] in
theorem Value.Names.parse?_requestedName (h : value.Names s) :
    Solver.parse? (Resolution.requestedName value) = some s := by
  rw [Solver.parse?_eq_some]
  rcases h with rfl | ⟨name, hvalue, hname⟩
  · show s.name.toLower = s.name
    cases s <;> decide +kernel
  · have hrequested : Resolution.requestedName value = name := by
      cases value with
      | solver _ => cases hvalue
      | _ => exact congrArg (Option.getD · "UNKNOWN_SOLVER") hvalue
    rw [hrequested]
    exact hname

omit [Scalar α] in
/-- A name is not empty. -/
theorem Value.Names.isEmpty (h : value.Names s) : value.isEmpty = false := by
  rcases h with rfl | ⟨name, hvalue, hname⟩
  · rfl
  · obtain ⟨t, htext, ht⟩ := Option.bind_eq_some_iff.1 hvalue
    have hne : t.isEmpty = false := by
      rw [Bool.eq_false_iff]
      intro hempty
      obtain ⟨_ | _⟩ := t
      · obtain rfl := Option.some.inj ht
        cases s <;> exact absurd hname (by decide +kernel)
      · cases hempty
    cases value with
    | text t =>
      obtain rfl := Option.some.inj htext
      exact hne
    | entry type cell => simp only [isEmpty, htext, hne]
    | _ => cases htext

/-- The entries that are set, after a solver was named. -/
theorem readEntries_setEntry (source : String) (hfree : Value.lookup? "solver" entries = none)
    (hvalue : value.isEmpty = false) :
    readEntries source (.mapping (Value.setEntry (.text "solver") value entries)) =
      .ok ((entries.filter fun entry => !entry.2.isEmpty) ++ [(.text "solver", value)]) := by
  rw [Value.setEntry_of_lookup?_eq_none hfree, readEntries, List.filter_append]
  simp [hvalue]

namespace Resolution

omit [Scalar α] in
theorem isKnown_solver (s? : Option Solver) : isKnown s? (.text "solver" : Value α) = true := by
  show OptionName.isKeyOf s? OptionName.solver.key = true
  exact OptionName.isKeyOf_key.2 (mem_known_of_common (by decide))

variable [Interchange α] {n : Nat} {bounds : Bounds α}

/-- A solver resolves options as the front end does when it is named. -/
theorem settings_mirrors_named {D : Diagnostic α → Diagnostic α → Prop} {F : Fault → Fault → Prop}
    (h : Accord D F s.name Invoker.frontEnd.name) (hfree : Value.lookup? "solver" entries = none)
    (hvalue : value.Names s) :
    Prep.Mirrors D F Eq (settings ⟨.solver s, n, bounds, entries⟩)
      (settings ⟨.frontEnd, n, bounds, entries ++ [(.text "solver", value)]⟩) := by
  have hsolver : solver (⟨.solver s, n, bounds, entries⟩ : Context α) = pure (some s) := by
    have hnone : Context.find? (⟨.solver s, n, bounds, entries⟩ : Context α) .solver = none := hfree
    simp only [solver, hnone]
  have hnamed : solver (⟨.frontEnd, n, bounds, entries ++ [(.text "solver", value)]⟩ : Context α)
      = pure (some s) := by
    have hsome : Context.find?
        (⟨.frontEnd, n, bounds, entries ++ [(.text "solver", value)]⟩ : Context α) .solver
          = some value := Value.lookup?_append_self hfree
    simp [solver, hsome, hvalue.parse?_requestedName]
  refine settings_mirrors h ⟨rfl, rfl, ?_⟩ ?_ ?_
  · intro name hname
    refine Value.lookup?_append_of_ne ?_
    cases name <;> first | decide | exact absurd rfl hname
  · rw [hsolver, hnamed]
    exact .pure rfl
  · intro s?
    -- the name of the solver is a known key, so it does not count
    simp only [checkUnknown, List.map_append, List.filter_append, List.map_cons, List.map_nil]
    rw [show List.filter (fun key => !isKnown s? key) [(.text "solver" : Value α)] = [] by
      simp [isKnown_solver], List.append_nil]
    refine .ite ?_ (.pure rfl)
    refine (Prep.Mirrors.same h.refl _).bind_same fun texts => ?_
    exact .reports h rfl

end Resolution

variable [Interchange α]

/-- The options of a solver, and the same options with the solver named, are resolved alike. -/
theorem resolveOptions_mirrors_named {D : Diagnostic α → Diagnostic α → Prop}
    {F : Fault → Fault → Prop} (h : Accord D F s.name Invoker.frontEnd.name)
    (hfree : Value.lookup? "solver" entries = none) (hvalue : value.Names s) (n : Nat)
    (bounds : Bounds α) :
    Prep.Mirrors D F Eq (resolveOptions (.solver s) (.mapping entries) n bounds)
      (resolveOptions .frontEnd (.mapping (Value.setEntry (.text "solver") value entries)) n bounds) := by
  unfold resolveOptions
  rw [readEntries_setEntry _ hfree hvalue.isEmpty]
  exact Resolution.settings_mirrors_named h (Value.lookup?_filter_eq_none _ hfree) hvalue

/-! ## Records -/

/-- A record of the same preparation for another invoker: functions have the same values, everything that
is no function is equal, and diagnostics differ in the name they begin with. -/
structure Record.Renamed (source source' : String) (r r' : Record α) : Prop where
  problem : r.problem.Agrees (Evaluator.SameValues fun _ _ => True)
    (Evaluator.SameValues fun _ _ => True) r'.problem
  settings_eq : r'.settings = r.settings
  facts_eq : r'.facts = r.facts
  fixedViolation_eq : r'.fixedViolation = r.fixedViolation
  rawDimension_eq : r'.rawDimension = r.rawDimension
  rawKind_eq : r'.rawKind = r.rawKind
  refinedDimension_eq : r'.refinedDimension = r.refinedDimension
  refinedKind_eq : r'.refinedKind = r.refinedKind
  elimination_eq : r'.elimination = r.elimination
  rescaling_eq : r'.rescaling = r.rescaling
  diagnostics : List.Forall₂ (Diagnostic.DiffersInName source source') r.diagnostics r'.diagnostics

/-- The same input with a solver named among its options. -/
def Input.naming (i : Input α) (value : Value α) (entries : Entries α) : Input α :=
  { i with options := .mapping (Value.setEntry (.text "solver") value entries) }

/-- A solver that prepares a problem asks for itself. -/
theorem Course.adjusted_solver_eq {search : NearestSearch α} {i : Input α} {e : Option Category}
    {j k : Journal α} {r : Record α} (c : Course search (.solver s) i e j r k) :
    c.adjusted.solver = some s := by
  obtain ⟨_, -, hresolved⟩ := c.resolved_yields
  have hsolver : c.resolved.solver = some s :=
    Resolution.solver_yields (Resolution.settings_yields hresolved).solver
  rcases rescaleIfAsked_settings (Prep.yields_of_outcome c.rescale_eq) with h | h
  · rw [h, hsolver]
  · rw [h]
    exact hsolver

/-- The front end keeps the solver of settings that handles the problem. -/
theorem settleSolver_kept {t : Settings α} {kind : ProblemKind} {p : Problem α} {e : Option Category}
    {j : Journal α} (hsolver : t.solver = some s) (hhandles : s.handles kind = true) :
    (settleSolver .frontEnd t kind p).outcome e j
      = (.ok t, { j with trace := j.trace ++ [.kept s] }) := by
  simp only [settleSolver, selectSolver, hsolver, hhandles, if_true, ne_eq, not_true, if_false]
  rfl

/-- A solver that succeeds on options that name no solver, named to the front end, succeeds with the same
result. -/
theorem prepare_named (search : NearestSearch α) {i : Input α} {e : Option Category} {r : Record α} (hoptions : i.options = .mapping entries)
    (hfree : Value.lookup? "solver" entries = none) (hvalue : value.Names s)
    (h : (Prep.run e (prepare search (.solver s) i)).1 = .ok r) :
    ∃ r', (Prep.run e (prepare search .frontEnd (i.naming value entries))).1 = .ok r' ∧
      r.Renamed s.name Invoker.frontEnd.name r' := by
  have haccord := Diagnostic.shared_accord (α := α) s.name Invoker.frontEnd.name
  have hcongruence := Evaluator.sameValues_isCongruence (α := α) (F := fun _ _ => True) fun _ => trivial
  obtain ⟨c⟩ := exists_course (Prod.ext h rfl)
  have hhandles : s.handles c.reduced.kind = true := c.handles
  -- stage by stage, the front end goes along with the solver
  obtain ⟨checked, k₁, hcheck, hchecked, hlog⟩ := (check_mirrors haccord i).exists_outcome
    (k := {}) c.check_eq (DiagnosticLog.mirrors_empty _)
  obtain ⟨⟨reduced, elimination⟩, k₂, hreduce, ⟨hreduced, helimination⟩, hlog⟩ :=
    (reduce_mirrors haccord.refl hchecked).exists_outcome c.reduce_eq hlog
  dsimp only at hreduced helimination
  have hresolve := c.resolve_eq
  have hsettle := c.settle_eq
  have hrescale := c.rescale_eq
  rw [hoptions, ← hreduced.dimension_eq, ← hreduced.bounds_eq] at hresolve
  rw [← hreduced.kind_eq, ← hchecked.facts_eq] at hsettle
  rw [← hchecked.facts_eq] at hrescale
  rw [← hreduced.kind_eq] at hhandles
  obtain ⟨resolved, k₃, hresolve, rfl, hlog⟩ :=
    (resolveOptions_mirrors_named haccord hfree hvalue _ _).exists_outcome
      (k := { k₂ with trace := k₂.trace ++ [.classified checked.problem.kind reduced.kind] })
      hresolve (c.beforeResolve_log ▸ hlog)
  obtain ⟨settled, k₄, hsettle, hsettled, hlog⟩ :=
    (settleStart_mirrors haccord search _ _ hreduced).exists_outcome hsettle hlog
  obtain ⟨⟨problem, rescaling, adjusted⟩, k₅, hrescale, ⟨hproblem, hrescaling⟩, hlog⟩ :=
    (rescaleIfAsked_mirrors haccord hcongruence hcongruence _ hsettled _).exists_outcome hrescale hlog
  obtain ⟨rfl, rfl⟩ := Prod.mk.inj hrescaling
  have hsolver := settleSolver_kept (p := problem) (e := e) (j := k₅) c.adjusted_solver_eq hhandles
  -- for the solver itself, there is nothing left to settle
  have hown := c.solver_eq
  rw [settleSolver, if_neg (by simp), Prep.outcome_pure, Prod.mk.injEq, Except.ok.injEq] at hown
  obtain ⟨hadjusted, hafter⟩ := hown
  refine ⟨_, prepare_outcome hcheck hreduce rfl hresolve hsettle hrescale hsolver, ?_⟩
  exact {
    problem := hproblem
    settings_eq := hadjusted
    facts_eq := hchecked.facts_eq.trans c.facts_eq.symm
    fixedViolation_eq := hchecked.fixedViolation_eq.trans c.fixedViolation_eq.symm
    rawDimension_eq := hchecked.problem.dimension_eq.trans c.rawDimension_eq.symm
    rawKind_eq := hchecked.problem.kind_eq.trans c.rawKind_eq.symm
    refinedDimension_eq := hreduced.dimension_eq.trans c.refinedDimension_eq.symm
    refinedKind_eq := hreduced.kind_eq.trans c.refinedKind_eq.symm
    elimination_eq := helimination
    rescaling_eq := rfl
    diagnostics := by
      rw [c.diagnostics_eq, ← hafter]
      exact hlog.entries.imp fun _ _ => Diagnostic.Shared.differsInName }

/-- Options with a radius that does not fit between the bounds below, and with a key that is none. -/
def wideOptions : Entries (Extended ℚ) := [(.text "rhobeg", .int 7), (.text "Scale", .int 1)]

/-- Two bounded variables without an objective, started outside the bounds. -/
def outsideInput : Input (Extended ℚ) where
  start := .list [.int 5, .int 0]
  lower := .list [.int (-1), .int (-1)]
  upper := .list [.int 1, .int 3]
  options := .mapping wideOptions

/-- The four diagnostics of a solver come back under the name of the front end. -/
theorem prepare_named_outsideInput : ∃ r r',
    (Prep.run none (prepare NearestSearch.stay (.solver .bobyqa) outsideInput)).1 = .ok r ∧
      r.diagnostics.map Diagnostic.id = ["bobyqa:NoObjective", "bobyqa:UnknownOption",
        "bobyqa:InvalidRhobeg", "bobyqa:ReviseX0"] ∧
      (Prep.run none (prepare NearestSearch.stay .frontEnd
        (outsideInput.naming (.text "BOBYQA") wideOptions))).1 = .ok r' ∧
      r.Renamed "bobyqa" "pdfo" r' := by
  have hrun : (Prep.run none (prepare NearestSearch.stay (.solver .bobyqa) outsideInput)).1.toOption.map
      (fun r => r.diagnostics.map Diagnostic.id) = some ["bobyqa:NoObjective", "bobyqa:UnknownOption",
        "bobyqa:InvalidRhobeg", "bobyqa:ReviseX0"] := by decide +kernel
  obtain ⟨r, hr, hids⟩ := exists_of_toOption_map hrun
  have hnames : (Value.text "BOBYQA" : Value (Extended ℚ)).Names .bobyqa :=
    .inr ⟨"BOBYQA", rfl, by decide +kernel⟩
  obtain ⟨r', hr', hrenamed⟩ := prepare_named NearestSearch.stay
    (show outsideInput.options = .mapping wideOptions from rfl) rfl hnames hr
  exact ⟨r, r', hr, hids, hr', hrenamed⟩

end Presolve
