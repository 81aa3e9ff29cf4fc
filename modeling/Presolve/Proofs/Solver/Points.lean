import Presolve.Proofs.Solver.Budget
import Presolve.Proofs.Solver.Decision

/-!
# Points of solvers without an option for them

Two solvers have no option for their number of interpolation points: it follows from the number of
variables. The settings hold the number of the solver that was asked for, and selection derives it anew
only for a solver that has the option. So the number outlives its solver in one case: the front end gives
up the solver that was asked for because of nonlinear constraints. Everywhere else a solver without the
option finds its own number or none.
-/

namespace Presolve

open Scalar

variable {α : Type}

/-! ## Numbers of points -/

namespace Solver

/-- Is this no number of points at all, or the one that the solver has by itself? -/
def HasOwn (s : Solver) (n : Nat) (npt : Option Int) : Prop :=
  npt = none ∨ npt = some (s.defaultNpt n)

/-- A solver without the option samples no number of points but its own. -/
theorem Samples.hasOwn {s : Solver} {n : Nat} {m : Int} (h : s.Samples n m)
    (htakes : s.takesNpt = false) : s.HasOwn n (some m) := by
  rw [Samples, htakes, if_neg Bool.false_ne_true] at h
  exact .inr (congrArg some h)

/-- All solvers but one sample more points than a linear model needs. -/
theorem Samples.linear_lt {s : Solver} {n : Nat} {m : Int} (h : s.Samples n m) (hn : 0 < n)
    (hs : s ≠ .cobyla) : (n : Int) + 1 < m := by
  have hfull := two_mul_add_one_le_fullQuadratic n
  cases s with
  | newuoa | bobyqa | lincoa =>
    have hlow : (n : Int) + 2 ≤ m := h.1
    omega
  | uobyqa =>
    have hm : m = fullQuadratic n := h
    omega
  | cobyla => exact absurd rfl hs

/-- The points of another solver are not those of the one that works with linear models. -/
theorem Samples.not_hasOwn_cobyla {s : Solver} {n : Nat} {m : Int} (h : s.Samples n m) (hn : 0 < n)
    (hs : s ≠ .cobyla) : ¬cobyla.HasOwn n (some m) := by
  have hlt := h.linear_lt hn hs
  rintro (hm | hm)
  · cases hm
  · have hm : m = (n + 1 : Nat) := Option.some.inj hm
    omega

/-- A budget that a solver other than the one for linear models can work with is not tight. -/
theorem WorksWith.not_tight {s : Solver} {n : Nat} {npt : Option Int} {budget : Int}
    (h : s.WorksWith n npt budget) (hn : 0 < n) (hs : s ≠ .cobyla) : (n : Int) + 2 < budget := by
  have hfull := two_mul_add_one_le_fullQuadratic n
  cases s with
  | newuoa | bobyqa | lincoa =>
    obtain ⟨m, -, hlow, -, hbudget⟩ := h
    omega
  | uobyqa =>
    have h : (fullQuadratic n : Int) + 1 ≤ budget := h
    omega
  | cobyla => exact absurd rfl hs

theorem handles_unconstrained (s : Solver) : s.handles .unconstrained = true := by
  cases s <;> rfl

theorem handles_nonlinearlyConstrained {s : Solver} :
    s.handles .nonlinearlyConstrained = true ↔ s = .cobyla := by
  cases s <;> decide

theorem cobyla_handles (kind : ProblemKind) : cobyla.handles kind = true := by
  cases kind <;> rfl

end Solver

/-! ## Selection -/

namespace SelectionRule

/-- With room in the budget the table names a solver without the option only for problems without
constraints and, as there is no other, for nonlinear constraints. -/
theorem first?_table_of_room {kind : ProblemKind} {n : Nat} {budget : Int} {rule : SelectionRule}
    (h : first? table kind n budget = some rule) (hroom : (n : Int) + 2 < budget)
    (htakes : rule.solver.takesNpt = false) :
    kind = .unconstrained ∨ kind = .nonlinearlyConstrained ∧ rule.solver = .cobyla := by
  have htight : ¬budget ≤ n + 2 := not_le.2 hroom
  cases kind with
  | unconstrained => exact .inl rfl
  | boundConstrained | linearlyConstrained =>
    simp [first?, table, Condition.holds, htight] at h
    subst h
    cases htakes
  | nonlinearlyConstrained =>
    simp [first?, table, Condition.holds] at h
    subst h
    exact .inr ⟨rfl, rfl⟩

end SelectionRule

variable [Scalar α]

namespace Settings

/-- The settings hold points of the solver that they name, and none for no solver. -/
def SamplesIfNamed (s : Settings α) (n : Nat) : Prop :=
  match s.solver with
  | some solver => ∃ m, s.npt = some m ∧ solver.Samples n m
  | none => s.npt = none

/-- A solver that is put in the place of another and has no option for its points inherits those of the
other. That happens only for nonlinear constraints. -/
theorem AdaptsTo.inherits {s t : Settings α} {kind : ProblemKind} {n : Nat} {bounds : Bounds α}
    {asked solver : Solver} (h : s.AdaptsTo SelectionRule.table kind n bounds t) (hn : 0 < n)
    (hworks : s.WorksIfNamed n) (hasked : s.solver = some asked) (hnot : asked.handles kind = false)
    (hsolver : t.solver = some solver) (htakes : solver.takesNpt = false) :
    kind = .nonlinearlyConstrained ∧ solver = .cobyla ∧ t.npt = s.npt := by
  obtain ⟨rule, hrule, -, hadapt⟩ := h
  obtain ⟨hrest, -, hnpt⟩ := adapt_eq_ok hadapt
  obtain rfl : rule.solver = solver := Option.some.inj (hrest.symm.trans hsolver)
  have hne : asked ≠ .cobyla := by
    rintro rfl
    rw [Solver.cobyla_handles] at hnot
    cases hnot
  have hroom : (n : Int) + 2 < s.maxfun := by
    rw [WorksIfNamed, hasked] at hworks
    exact hworks.not_tight hn hne
  rw [htakes, if_neg Bool.false_ne_true] at hnpt
  rcases SelectionRule.first?_table_of_room hrule hroom htakes with rfl | ⟨hkind, hcobyla⟩
  · rw [asked.handles_unconstrained] at hnot
    cases hnot
  · exact ⟨hkind, hcobyla, hnpt⟩

end Settings

/-! ## Preparations -/

variable [Interchange α] {search : NearestSearch α} {invoker : Invoker} {i : Input α}
  {e : Option Category} {j k : Journal α} {r : Record α}

/-- Resolved settings hold points of the solver that was asked for. -/
theorem Resolution.settings_sample {c : Resolution.Context α} {s : Settings α} (hn : 0 < c.n)
    (h : (Resolution.settings c).Yields s) : s.SamplesIfNamed c.n := by
  have hnpt := (Resolution.settings_yields h).npt
  unfold Settings.SamplesIfNamed
  cases hsolver : s.solver with
  | none =>
    rw [hsolver] at hnpt
    exact Resolution.npt_yields_none hnpt
  | some solver =>
    rw [hsolver] at hnpt
    exact Resolution.npt_yields hn hnpt

namespace Record

/-- The front end was asked for a solver and gave it up because of nonlinear constraints. -/
def GaveUp (r : Record α) (invoker : Invoker) (options : Value α) (asked : Solver) : Prop :=
  invoker = .frontEnd ∧ NamesSolver options asked ∧ asked ≠ .cobyla ∧
    r.refinedKind = .nonlinearlyConstrained

/-- A solver without the option has its own points or none unless another was given up for it, and has the
points of the other if so. -/
structure SettlesPoints (r : Record α) (invoker : Invoker) (options : Value α) (solver : Solver) :
    Prop where
  own_iff : solver.takesNpt = false → (solver.HasOwn r.refinedDimension r.settings.npt ↔
    ∀ asked, ¬r.GaveUp invoker options asked)
  inherited : ∀ asked, r.GaveUp invoker options asked → solver = .cobyla ∧
    ∃ m, r.settings.npt = some m ∧ asked.Samples r.refinedDimension m

omit [Scalar α] [Interchange α] in
/-- Where no solver was given up, it is enough that one without the option has its own points or none. -/
theorem SettlesPoints.of_own {options : Value α} {solver : Solver}
    (hnone : ∀ asked, ¬r.GaveUp invoker options asked)
    (hown : solver.takesNpt = false → solver.HasOwn r.refinedDimension r.settings.npt) :
    r.SettlesPoints invoker options solver where
  own_iff htakes := iff_of_true (hown htakes) hnone
  inherited asked h := absurd h (hnone asked)

end Record

/-- Settings before selection hold points of the solver that was asked for, and a budget beyond them. -/
theorem Course.adjusted_samples (c : Course search invoker i e j r k) (hsearch : search.KeepsDimension) :
    c.adjusted.SamplesIfNamed r.refinedDimension ∧ c.adjusted.WorksIfNamed r.refinedDimension := by
  have hpos := c.refinedDimension_pos
  obtain ⟨entries, -, hresolved⟩ := c.resolved_yields
  have hsamples : c.resolved.SamplesIfNamed r.refinedDimension :=
    Resolution.settings_sample (c := c.context entries) hpos hresolved
  have hworks : c.resolved.WorksIfNamed r.refinedDimension :=
    Resolution.settings_work (c := c.context entries) hpos hresolved
  -- rescaling changes the radii alone
  rcases c.adjusted_eq hsearch with h | h <;> rw [h]
  · exact ⟨hsamples, hworks⟩
  · exact ⟨hsamples, hworks.withUnitRadius⟩

namespace Course

variable (c : Course search invoker i e j r k) (hsearch : search.KeepsDimension)

include c hsearch

/-- The front end adapts the settings unless they name a solver that handles the problem; a solver that is
the invoker keeps them. -/
theorem settings_eq_or_adaptsTo :
    (r.settings = c.adjusted ∧ (invoker = .frontEnd →
      ∃ asked, c.adjusted.solver = some asked ∧ asked.handles r.refinedKind = true)) ∨
    (invoker = .frontEnd ∧ c.adjusted.AdaptsTo SelectionRule.table r.refinedKind r.refinedDimension
      r.problem.bounds r.settings ∧
      ∀ asked, c.adjusted.solver = some asked → asked.handles r.refinedKind = false) := by
  have hsolver := c.solver_eq
  rw [settleSolver, c.problem_dimension hsearch, ← c.refinedKind_eq] at hsolver
  by_cases hinvoker : invoker = .frontEnd
  · rw [if_pos hinvoker] at hsolver
    have hselected := selectSolver_outcome hsolver
    cases hadjusted : c.adjusted.solver with
    | none =>
      simp only [hadjusted] at hselected
      refine .inr ⟨hinvoker, hselected.1, ?_⟩
      intro _ hasked
      cases hasked
    | some asked =>
      simp only [hadjusted] at hselected
      split at hselected
      · next hhandles => exact .inl ⟨hselected.1, fun _ => ⟨asked, rfl, hhandles⟩⟩
      · next hhandles =>
        refine .inr ⟨hinvoker, hselected.1, ?_⟩
        intro _ hsame
        cases hsame
        exact eq_false_of_ne_true hhandles
  · rw [if_neg hinvoker] at hsolver
    have hkept := Prep.yields_pure.1 (Prep.yields_of_outcome hsolver)
    exact .inl ⟨hkept.symm, fun h => absurd h hinvoker⟩

/-- Of the solvers that the front end is asked for, those are given up that do not handle nonlinear
constraints. -/
theorem gaveUp_iff {asked : Solver} : r.GaveUp invoker i.options asked ↔
    invoker = .frontEnd ∧ c.adjusted.solver = some asked ∧
      r.refinedKind = .nonlinearlyConstrained ∧ asked.handles r.refinedKind = false := by
  obtain ⟨entries, hentries, hasked⟩ := c.adjusted_solver hsearch
  have hnames (hinvoker : invoker = .frontEnd) :
      c.adjusted.solver = some asked ↔ NamesSolver i.options asked := by
    subst hinvoker
    rw [hasked]
    exact Resolution.Context.asked?_eq_some rfl hentries
  constructor
  · rintro ⟨hinvoker, hnamed, hne, hkind⟩
    refine ⟨hinvoker, (hnames hinvoker).2 hnamed, hkind, ?_⟩
    rw [hkind, Bool.eq_false_iff, ne_eq, Solver.handles_nonlinearlyConstrained]
    exact hne
  · rintro ⟨hinvoker, hsolver, hkind, hnot⟩
    refine ⟨hinvoker, (hnames hinvoker).1 hsolver, ?_, hkind⟩
    rw [hkind, Bool.eq_false_iff, ne_eq, Solver.handles_nonlinearlyConstrained] at hnot
    exact hnot

/-- A solver that is kept has its points. -/
theorem settlesPoints_of_kept {solver : Solver} (hkept : r.settings = c.adjusted)
    (hhandles : invoker = .frontEnd →
      ∃ asked, c.adjusted.solver = some asked ∧ asked.handles r.refinedKind = true)
    (hsolver : r.settings.solver = some solver) : r.SettlesPoints invoker i.options solver := by
  obtain ⟨hsamples, -⟩ := c.adjusted_samples hsearch
  refine .of_own ?_ ?_
  · intro asked hgave
    obtain ⟨hinvoker, hasked, -, hnot⟩ := (c.gaveUp_iff hsearch).1 hgave
    obtain ⟨_, hsame, hsuits⟩ := hhandles hinvoker
    obtain rfl := Option.some.inj (hasked.symm.trans hsame)
    rw [hnot] at hsuits
    cases hsuits
  · intro htakes
    rw [hkept] at hsolver ⊢
    rw [Settings.SamplesIfNamed, hsolver] at hsamples
    obtain ⟨m, hm, hrange⟩ := hsamples
    rw [hm]
    exact hrange.hasOwn htakes

/-- A solver that was chosen where none was asked for finds no points. -/
theorem settlesPoints_of_chosen {solver : Solver} (hnone : c.adjusted.solver = none)
    (hadapts : c.adjusted.AdaptsTo SelectionRule.table r.refinedKind r.refinedDimension
      r.problem.bounds r.settings)
    (hsolver : r.settings.solver = some solver) : r.SettlesPoints invoker i.options solver := by
  obtain ⟨hsamples, -⟩ := c.adjusted_samples hsearch
  refine .of_own ?_ ?_
  · intro asked hgave
    obtain ⟨-, hasked, -⟩ := (c.gaveUp_iff hsearch).1 hgave
    rw [hnone] at hasked
    cases hasked
  · intro htakes
    obtain ⟨rule, -, -, hadapt⟩ := hadapts
    obtain ⟨hrest, -, hnpt⟩ := Settings.adapt_eq_ok hadapt
    obtain rfl : rule.solver = solver := Option.some.inj (hrest.symm.trans hsolver)
    rw [Settings.SamplesIfNamed, hnone] at hsamples
    rw [htakes, if_neg Bool.false_ne_true, hsamples] at hnpt
    exact .inl hnpt

/-- A solver without the option that replaces another inherits its points, which are not its own. -/
theorem settlesPoints_of_replaced {asked solver : Solver} (hinvoker : invoker = .frontEnd)
    (hasked : c.adjusted.solver = some asked) (hnot : asked.handles r.refinedKind = false)
    (hadapts : c.adjusted.AdaptsTo SelectionRule.table r.refinedKind r.refinedDimension
      r.problem.bounds r.settings)
    (hsolver : r.settings.solver = some solver) : r.SettlesPoints invoker i.options solver := by
  have hpos := c.refinedDimension_pos
  obtain ⟨hsamples, hworks⟩ := c.adjusted_samples hsearch
  rw [Settings.SamplesIfNamed, hasked] at hsamples
  obtain ⟨m, hm, hrange⟩ := hsamples
  have hinherits (htakes : solver.takesNpt = false) :=
    hadapts.inherits hpos hworks hasked hnot hsolver htakes
  constructor
  · intro htakes
    obtain ⟨hkind, rfl, hnpt⟩ := hinherits htakes
    have hgave : r.GaveUp invoker i.options asked :=
      (c.gaveUp_iff hsearch).2 ⟨hinvoker, hasked, hkind, hnot⟩
    rw [hnpt, hm]
    exact iff_of_false (hrange.not_hasOwn_cobyla hpos hgave.2.2.1) fun hnone => hnone asked hgave
  · intro named hgave
    obtain ⟨-, hsame, hkind, -⟩ := (c.gaveUp_iff hsearch).1 hgave
    obtain rfl := Option.some.inj (hasked.symm.trans hsame)
    -- only one solver handles nonlinear constraints
    obtain ⟨rule, -, hhandles, hadapt⟩ := id hadapts
    obtain rfl := Option.some.inj ((Settings.adapt_eq_ok hadapt).1.symm.trans hsolver)
    rw [hkind, Solver.handles_nonlinearlyConstrained] at hhandles
    obtain ⟨-, -, hnpt⟩ := hinherits (by rw [hhandles]; rfl)
    exact ⟨hhandles, m, hnpt.trans hm, hrange⟩

end Course

/-- A solver without an option for its points ends up with its own number or none, unless the front end
put it in the place of a solver that was given up: then it ends up with the points of that one. -/
theorem prepare_settles_points (hsearch : search.KeepsDimension)
    (h : (Prep.run e (prepare search invoker i)).1 = .ok r) :
    ∃ solver, r.settings.solver = some solver ∧ r.SettlesPoints invoker i.options solver := by
  obtain ⟨c⟩ := exists_course (Prod.ext h rfl)
  obtain ⟨-, solver, hsolver, -⟩ := prepare_settings_work hsearch h
  refine ⟨solver, hsolver, ?_⟩
  rcases c.settings_eq_or_adaptsTo hsearch with ⟨hkept, hhandles⟩ | ⟨hinvoker, hadapts, hnot⟩
  · exact c.settlesPoints_of_kept hsearch hkept hhandles hsolver
  · cases hasked : c.adjusted.solver with
    | none => exact c.settlesPoints_of_chosen hsearch hasked hadapts hsolver
    | some asked =>
      exact c.settlesPoints_of_replaced hsearch hinvoker hasked (hnot asked hasked) hadapts hsolver

/-- Two variables under nonlinear constraints, with a solver for problems without any. -/
def curvedInput : Input (Extended ℚ) where
  objective := zeroObjective
  start := .list [.int 0, .int 0]
  constraints := .function ⟨"function", none⟩ none fun x => .ok (.tuple [.ofList x, .list []])
  options := .mapping [(.text "solver", .text "newuoa")]

theorem prepare_settles_points_curvedInput : ∃ r,
    (Prep.run none (prepare NearestSearch.stay .frontEnd curvedInput)).1 = .ok r ∧
      r.settings.solver = some .cobyla ∧ r.SettlesPoints .frontEnd curvedInput.options .cobyla := by
  have hrun : (Prep.run none (prepare NearestSearch.stay .frontEnd curvedInput)).1.toOption.map
      (fun r => r.settings.solver) = some (some .cobyla) := by decide +kernel
  obtain ⟨r, hr, hcobyla⟩ := exists_of_toOption_map hrun
  obtain ⟨solver, hsolver, hpoints⟩ := prepare_settles_points NearestSearch.stay_keepsDimension hr
  obtain rfl := Option.some.inj (hcobyla.symm.trans hsolver)
  exact ⟨r, hr, hcobyla, hpoints⟩

/-- The solver that replaces the one that was asked for has neither its own points nor none. -/
theorem exists_inherited_points : ∃ r,
    (Prep.run none (prepare NearestSearch.stay .frontEnd curvedInput)).1 = .ok r ∧
      (r.settings.solver, r.settings.npt, r.refinedDimension) = (some .cobyla, some 5, 2) ∧
      Solver.cobyla.takesNpt = false ∧
      ¬Solver.cobyla.HasOwn r.refinedDimension r.settings.npt := by
  have hrun : (Prep.run none (prepare NearestSearch.stay .frontEnd curvedInput)).1.toOption.map
      (fun r => (r.settings.solver, r.settings.npt, r.refinedDimension))
        = some (some .cobyla, some 5, 2) := by decide +kernel
  obtain ⟨r, hr, hdata⟩ := exists_of_toOption_map hrun
  have hnpt : r.settings.npt = some 5 := congrArg (·.2.1) hdata
  have hdimension : r.refinedDimension = 2 := congrArg (·.2.2) hdata
  refine ⟨r, hr, hdata, rfl, ?_⟩
  rw [hnpt, hdimension, Solver.HasOwn]
  decide

end Presolve
