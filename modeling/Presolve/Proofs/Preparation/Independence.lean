import Presolve.Proofs.Number.Extended
import Presolve.Proofs.Preparation.Agreement
import Presolve.Proofs.Preparation.Escalation
import Presolve.Proofs.Preparation.Naming

/-!
# What the functions of a problem decide

A preparation calls a function of the caller only where every variable is fixed: then it finds out how far
the one point between the bounds violates the constraints. Otherwise it passes functions on without looking
at them. So two inputs that differ in the objective are prepared alike, and so are two that differ in the
constraint function as long as a variable is free: they end in the same fault, or in records that differ in
the functions of the problem alone and have the same fingerprint outside debug mode.
-/

namespace Presolve

open Scalar

variable {α : Type}

/-! ## Inputs that differ in their functions -/

/-- A value that can be called. -/
def Value.IsFunction (v : Value α) : Prop := ∃ view parts? call, v = .function view parts? call

/-- Equal values, or two functions. -/
inductive Value.SameButFunction : Value α → Value α → Prop where
  | same (v : Value α) : SameButFunction v v
  | functions {v w : Value α} (hv : v.IsFunction) (hw : w.IsFunction) : SameButFunction v w

/-- Two inputs that differ in their functions alone. -/
structure Input.SameButFunctions (i i' : Input α) : Prop where
  objective : i.objective.SameButFunction i'.objective
  constraints : i.constraints.SameButFunction i'.constraints
  others : i' = { i with objective := i'.objective, constraints := i'.constraints }

/-- Functions that are both present or both absent. -/
abbrev Evaluator.Any : Evaluator α → Evaluator α → Prop := fun _ _ => True

theorem Evaluator.any_isCongruence : IsCongruence (Any : Evaluator α → Evaluator α → Prop) where
  refl _ := trivial
  comp _ _ _ _ := trivial

/-! ## Stages -/

/-- From logs with equal entries, a preparation that is built from steps ends in the same way. -/
theorem Prep.Built.mirrors [Interchange α] {β : Type} {p : Prep α β} (hp : p.Built) :
    Prep.Mirrors Eq Eq Eq p p := by
  induction hp with
  | lift x => exact .same (fun _ => rfl) x
  | leave v => exact .leave v v
  | report source a => exact .report (.same source) rfl
  | diagnostics =>
    have h := Prep.Mirrors.diagnostics (α := α) (D := Eq) (F := Eq)
    rwa [List.forall₂_eq_eq_eq] at h
  | bind _ _ ihp ihf => exact ihp.bind_same ihf

variable [Scalar α] [Interchange α]

/-- Every variable of the input is fixed. -/
def Input.FixesAll (i : Input α) (source : String) : Prop :=
  ∃ start bounds, readStart source i.start = .ok start ∧
    Bounds.read source start.length i.lower i.upper = .ok bounds ∧ bounds.fixed.all id = true

/-- Whatever the functions are, both objectives are read or none is. -/
theorem readObjective_mirrors_any {v w : Value α} (h : v.SameButFunction w) (source : String) :
    Prep.Mirrors Eq Eq (fun _ _ => True) (readObjective source v) (readObjective source w) := by
  cases h with
  | same => exact (readObjective_stepwise source v).built.mirrors.mono fun _ _ _ => trivial
  | functions hv hw =>
    obtain ⟨view, parts?, f, rfl⟩ := hv
    obtain ⟨view', parts?', g, rfl⟩ := hw
    exact .pure trivial

omit [Scalar α] [Interchange α] in
theorem readConstraints_alike_any {v w : Value α} (h : v.SameButFunction w) (source : String) :
    EndsAlike Eq (fun f? g? => Option.Rel Evaluator.Any f? g? ∧ (v = w → f? = g?))
      (readConstraints source v) (readConstraints source w) := by
  cases h with
  | same =>
    cases readConstraints source v with
    | error x => exact .error rfl
    | ok f? =>
      refine .ok ⟨?_, fun _ => rfl⟩
      cases f? with
      | none => exact .none
      | some f => exact .some trivial
  | functions hv hw =>
    obtain ⟨view, parts?, f, rfl⟩ := hv
    obtain ⟨view', parts?', g, rfl⟩ := hw
    refine .ok ⟨.some trivial, fun heq => ?_⟩
    cases heq
    rfl

/-- Inputs that differ in their functions are checked alike, unless constraints that differ are called at
the only point between the bounds. -/
theorem check_mirrors_any {i i' : Input α} (h : i.SameButFunctions i') {source : String}
    (hcalled : i.constraints = i'.constraints ∨ ¬i.FixesAll source) :
    Prep.Mirrors Eq Eq (fun c d => c.problem.Agrees Evaluator.Any Evaluator.Any d.problem ∧
      d.facts = c.facts ∧ d.fixedViolation = c.fixedViolation) (check source i) (check source i') := by
  have hconstraints := readConstraints_alike_any h.constraints source
  have hobjective := readObjective_mirrors_any h.objective source
  generalize hv : i'.objective = v at hobjective
  generalize hw : i'.constraints = w at hconstraints hcalled
  have hi' : i' = { i with objective := v, constraints := w } := by rw [← hv, ← hw]; exact h.others
  subst hi'
  refine hobjective.bind fun objective objective' _ => ?_
  refine (Prep.Mirrors.lift (.self (fun _ => rfl) _)).bind ?_
  rintro start _ ⟨hstart, rfl⟩
  refine (readLinear_stepwise source _ i).built.mirrors.bind_same fun linear => ?_
  refine (Prep.Mirrors.lift (.self (fun _ => rfl) _)).bind ?_
  rintro bounds _ ⟨hbounds, rfl⟩
  refine (Prep.Mirrors.lift (.self (fun _ => rfl) _)).bind ?_
  rintro facts _ ⟨hfacts, rfl⟩
  refine (Prep.Mirrors.lift hconstraints).bind ?_
  rintro constraints constraints' ⟨hrel, hsame⟩
  have hproblem : Problem.Agrees Evaluator.Any Evaluator.Any
      { objective := some (Barrier.objective source objective.2), start, bounds
        inequalities := linear.inequalities.system
        equalities := linear.equalities.system
        constraints := constraints.map (Barrier.constraints source) : Problem α }
      { objective := some (Barrier.objective source objective'.2), start, bounds
        inequalities := linear.inequalities.system
        equalities := linear.equalities.system
        constraints := constraints'.map (Barrier.constraints source) } :=
    ⟨rfl, rfl, rfl, rfl, .some trivial, rel_map hrel fun _ _ _ => trivial⟩
  by_cases hall : facts.allFixed = true
  · -- the constraints are called, so they are the same
    have hfixes : i.FixesAll source := ⟨start, bounds, hstart, hbounds, by
      rw [← (Facts.ofConstraints_eq_ok hfacts).1]
      exact hall⟩
    obtain rfl := hsame (hcalled.resolve_right fun hnot => hnot hfixes)
    simp only [hall, if_true]
    refine Prep.Mirrors.bind_same ?_ fun violation => ?_
    · exact (Prep.Mirrors.same (fun _ => rfl) _).map fun _ _ => congrArg some
    · exact .step (.leave _ _) (.pure ⟨hproblem, rfl, rfl⟩)
  · simp only [hall]
    refine (Prep.Mirrors.pure rfl).bind_same fun violation => ?_
    exact .step (.leave _ _) (.pure ⟨hproblem, rfl, rfl⟩)

/-! ## Records -/

/-- Two records of the same preparation of problems that differ in their functions alone. -/
structure Record.SameFindings (r r' : Record α) : Prop where
  invoker_eq : r'.invoker = r.invoker
  facts_eq : r'.facts = r.facts
  fixedViolation_eq : r'.fixedViolation = r.fixedViolation
  rawDimension_eq : r'.rawDimension = r.rawDimension
  rawKind_eq : r'.rawKind = r.rawKind
  refinedDimension_eq : r'.refinedDimension = r.refinedDimension
  refinedKind_eq : r'.refinedKind = r.refinedKind
  elimination_eq : r'.elimination = r.elimination
  rescaling_eq : r'.rescaling = r.rescaling
  diagnostics_eq : r'.diagnostics = r.diagnostics
  settings_eq : r'.settings = r.settings
  problem : r.problem.Agrees Evaluator.Any Evaluator.Any r'.problem
  /-- Outside debug mode no part of the input is kept. -/
  input_eq : r.settings.debug = false → r.input = none ∧ r'.input = none

omit [Interchange α] in
/-- The data of a problem say of its functions only whether there are any. -/
theorem Problem.Agrees.toJson_eq {O C : Evaluator α → Evaluator α → Prop} {p q : Problem α}
    (h : p.Agrees O C q) : q.toJson = p.toJson := by
  have hobjective : q.objective.isSome = p.objective.isSome := isSome_of_rel h.objective
  simp only [toJson, h.start_eq, h.inequalities_eq, h.equalities_eq, h.bounds_eq, hobjective,
    h.isSome_constraints]

/-- Outside debug mode, records with the same findings are the same data. -/
theorem Record.SameFindings.toJson_eq {r r' : Record α} (h : r.SameFindings r')
    (hdebug : r.settings.debug = false) : r'.toJson = r.toJson := by
  obtain ⟨hinput, hinput'⟩ := h.input_eq hdebug
  simp only [toJson, isReduced, isScaled, solver, hinput, hinput', h.invoker_eq, h.facts_eq,
    h.fixedViolation_eq, h.rawDimension_eq, h.rawKind_eq, h.refinedDimension_eq, h.refinedKind_eq,
    h.elimination_eq, h.rescaling_eq, h.diagnostics_eq, h.settings_eq, h.problem.toJson_eq]

/-- Two runs with the same outcome: the same fault, or the same findings and outside debug mode the same
fingerprint. Both issue the same warnings. -/
structure SameOutcome (x y : Except Fault (Record α) × Journal α) : Prop where
  ends : EndsAlike Eq (fun r r' => r.SameFindings r' ∧ (r.settings.debug = false →
    r'.toJson.map fingerprint = r.toJson.map fingerprint)) x.1 y.1
  log_eq : y.2.log = x.2.log

/-! ## Whole preparations -/

/-- Inputs that differ in their functions are prepared alike, unless constraints that differ are called
at the only point between the bounds. -/
theorem prepare_mirrors_any (search : NearestSearch α) {invoker : Invoker} {i i' : Input α}
    (h : i.SameButFunctions i') (hcalled : i.constraints = i'.constraints ∨ ¬i.FixesAll invoker.name) :
    Prep.Mirrors Eq Eq Record.SameFindings (prepare search invoker i) (prepare search invoker i') := by
  have haccord := Accord.same (α := α) invoker.name
  have hany := Evaluator.any_isCongruence (α := α)
  have hoptions : i'.options = i.options := by rw [h.others]
  refine (check_mirrors_any h hcalled).bind ?_
  rintro c d ⟨hproblem, hfacts, hviolation⟩
  refine (reduce_mirrors_of haccord.refl hany hany hproblem hfacts).bind ?_
  rintro ⟨p, elimination⟩ ⟨q, _⟩ ⟨hpq, rfl⟩
  dsimp only at hpq ⊢
  rw [hpq.kind_eq, hpq.dimension_eq, hpq.bounds_eq, hproblem.kind_eq, hproblem.dimension_eq, hfacts,
    hviolation, hoptions]
  refine (Prep.Mirrors.leave _ _).bind_same fun _ => ?_
  refine (Prep.Mirrors.same haccord.refl _).bind_same fun _ => ?_
  refine (resolveOptions_stepwise invoker _ _ _).built.mirrors.bind_same fun resolved => ?_
  refine (settleStart_mirrors haccord search _ _ hpq).bind fun p q hpq => ?_
  refine (rescaleIfAsked_mirrors haccord hany hany _ hpq _).bind ?_
  rintro ⟨p, _, _⟩ ⟨q, rescaling, adjusted⟩ ⟨hpq, heq⟩
  obtain ⟨rfl, rfl⟩ := Prod.mk.inj heq
  dsimp only at hpq ⊢
  have hsettle (kind : ProblemKind) :
      settleSolver invoker adjusted kind q = settleSolver invoker adjusted kind p := by
    rw [settleSolver, settleSolver, hpq.dimension_eq, hpq.bounds_eq]
  rw [hsettle]
  refine (settleSolver_stepwise invoker _ _ _).built.mirrors.bind_same fun settings => ?_
  refine Prep.Mirrors.diagnostics.bind fun diagnostics diagnostics' hdiagnostics => ?_
  rw [List.forall₂_eq_eq_eq] at hdiagnostics
  refine (Prep.Mirrors.leave _ _).bind_same fun _ => ?_
  exact .pure {
    invoker_eq := rfl, facts_eq := rfl, fixedViolation_eq := rfl, rawDimension_eq := rfl
    rawKind_eq := rfl, refinedDimension_eq := rfl, refinedKind_eq := rfl, elimination_eq := rfl
    rescaling_eq := rfl, diagnostics_eq := hdiagnostics.symm, settings_eq := rfl, problem := hpq
    input_eq := fun (hdebug : settings.debug = false) => by simp [hdebug] }

/-- Inputs that differ in their functions have the same outcome, unless constraints that differ are called
at the only point between the bounds. -/
theorem prepare_sameOutcome (search : NearestSearch α) {invoker : Invoker} {i i' : Input α}
    (h : i.SameButFunctions i') (hcalled : i.constraints = i'.constraints ∨ ¬i.FixesAll invoker.name)
    (e : Option Category) :
    SameOutcome (Prep.run e (prepare search invoker i)) (Prep.run e (prepare search invoker i')) := by
  obtain ⟨hends, hlog⟩ := prepare_mirrors_any search h hcalled e {} {} (DiagnosticLog.mirrors_empty _)
  refine ⟨hends.mono fun r r' hr => ⟨hr, fun hdebug => ?_⟩, hlog.eq.symm⟩
  rw [hr.toJson_eq hdebug]

/-- The objective never influences a preparation, and where a variable is free neither does the constraint
function. -/
theorem prepare_ignores_functions (search : NearestSearch α) (invoker : Invoker) (i : Input α)
    {f g : Value α} (hf : f.IsFunction) (hg : g.IsFunction) (e : Option Category) :
    SameOutcome (Prep.run e (prepare search invoker { i with objective := f }))
        (Prep.run e (prepare search invoker { i with objective := g })) ∧
      (¬i.FixesAll invoker.name →
        SameOutcome (Prep.run e (prepare search invoker { i with constraints := f }))
          (Prep.run e (prepare search invoker { i with constraints := g }))) := by
  constructor
  · have h : Input.SameButFunctions { i with objective := f } { i with objective := g } :=
      ⟨.functions hf hg, .same _, rfl⟩
    exact prepare_sameOutcome search h (.inl rfl) e
  · intro hfree
    have h : Input.SameButFunctions { i with constraints := f } { i with constraints := g } :=
      ⟨.same _, .functions hf hg, rfl⟩
    exact prepare_sameOutcome search h (.inr hfree) e

/-- A function that returns one number, and no pair. -/
def oneFunction : Value (Extended ℚ) := .function ⟨"function", some "one"⟩ none fun _ => .ok (.int 1)

/-- A function that fails wherever it is called. -/
def failingFunction : Value (Extended ℚ) :=
  .function ⟨"Failure", none⟩ (some []) fun _ => .error .overflow

/-- Two variables the first of which is fixed, started outside the bounds. -/
def halfFixedInput : Input (Extended ℚ) where
  objective := oneFunction
  start := .list [.int 5, .int 7]
  lower := .list [.int 1, .int (-1)]
  upper := .list [.int 1, .int 3]
  options := .mapping [(.text "scale", .bool true)]

theorem not_fixesAll_halfFixedInput : ¬halfFixedInput.FixesAll "pdfo" := by
  rintro ⟨start, bounds, hstart, hbounds, hall⟩
  have hread : ((readStart "pdfo" halfFixedInput.start).bind fun start =>
      (Bounds.read "pdfo" start.length halfFixedInput.lower halfFixedInput.upper).map fun bounds =>
        bounds.fixed.all id).toOption = some false := by decide +kernel
  rw [hstart] at hread
  simp [Except.bind, Except.map, Except.toOption, hbounds, hall] at hread

/-- Neither an objective nor constraints that fail everywhere are noticed. -/
theorem prepare_ignores_functions_halfFixedInput :
    (∃ r r', (Prep.run none (prepare NearestSearch.stay .frontEnd
        { halfFixedInput with objective := oneFunction })).1 = .ok r ∧
      (Prep.run none (prepare NearestSearch.stay .frontEnd
        { halfFixedInput with objective := failingFunction })).1 = .ok r' ∧
      r.SameFindings r' ∧ r.isReduced = true ∧ r.isScaled = true ∧
      r.diagnostics.map Diagnostic.id = ["pdfo:ReviseX0", "pdfo:ProblemScaled"]) ∧
    ∃ r r', (Prep.run none (prepare NearestSearch.stay .frontEnd
        { halfFixedInput with constraints := oneFunction })).1 = .ok r ∧
      (Prep.run none (prepare NearestSearch.stay .frontEnd
        { halfFixedInput with constraints := failingFunction })).1 = .ok r' ∧
      r.SameFindings r' ∧ r.refinedKind = .nonlinearlyConstrained := by
  obtain ⟨hobjective, hconstraints⟩ := prepare_ignores_functions NearestSearch.stay .frontEnd halfFixedInput ⟨_, _, _, rfl⟩ ⟨_, _, _, rfl⟩ none (f := oneFunction) (g := failingFunction)
  constructor
  · have hrun : (Prep.run none (prepare NearestSearch.stay .frontEnd
        { halfFixedInput with objective := oneFunction })).1.toOption.map
        (fun r => (r.isReduced, r.isScaled, r.diagnostics.map Diagnostic.id))
          = some (true, true, ["pdfo:ReviseX0", "pdfo:ProblemScaled"]) := by decide +kernel
    obtain ⟨r, hr, hresult⟩ := exists_of_toOption_map hrun
    obtain ⟨r', hr', hsame, -⟩ := hobjective.ends.exists_ok hr
    simp only [Prod.mk.injEq] at hresult
    exact ⟨r, r', hr, hr', hsame, hresult⟩
  · have hrun : (Prep.run none (prepare NearestSearch.stay .frontEnd
        { halfFixedInput with constraints := oneFunction })).1.toOption.map Record.refinedKind
          = some .nonlinearlyConstrained := by decide +kernel
    obtain ⟨r, hr, hkind⟩ := exists_of_toOption_map hrun
    obtain ⟨r', hr', hsame, -⟩ := (hconstraints not_fixesAll_halfFixedInput).ends.exists_ok hr
    exact ⟨r, r', hr, hr', hsame, hkind⟩

end Presolve
