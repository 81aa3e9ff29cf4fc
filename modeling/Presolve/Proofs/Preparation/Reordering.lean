import Presolve.Proofs.Preparation.Course
import Presolve.Proofs.Problem.Reordered
import Presolve.Proofs.Record.Points
import Presolve.Proofs.Solver.Agreement

/-!
# Preparing a problem in another order of the variables

The order in which a caller lists the variables does not matter. A preparation of the problem in another
order makes the same findings and decisions and issues the same diagnostics, and everything that it makes
for each variable comes in the order that the variables are left in.

The stages are compared one by one. What holds them together is that each of them uses a vector as a whole
only through sums, maxima and minima, and is about one variable at a time otherwise.
-/

namespace Presolve

open Scalar

/-- The order that variables come in after an elimination. -/
def Order.reducedBy {α : Type} (o : Order) (e? : Option (Elimination α)) : Order :=
  match e? with
  | some e => o.onMarked e.free
  | none => o

variable {K : Type} [Field K] [LinearOrder K] [FloorRing K] [Interchange (Extended K)] {o : Order}
  {source : String} {p q : Problem (Extended K)} {f g : Facts (Extended K)}

/-! ## Checking -/

/-- The same is known of a problem and of the problem in an order. -/
structure Checked.Reorders (o : Order) (c d : Checked (Extended K)) : Prop where
  problem : c.problem.Reorders o d.problem
  facts_eq : d.facts = c.facts.inOrder o
  fixedViolation_eq : d.fixedViolation = c.fixedViolation

/-- The problems that two inputs state are checked alike if one is the other one in an order. -/
theorem check_reorders {i i' : Input (Extended K)} (hi : i.stated source = .ok p)
    (hi' : i'.stated source = .ok q) (hpq : p.Reorders o q) (hsize : p.dimension = o.size)
    (habsent : i'.objective.isAbsent = i.objective.isAbsent) :
    Prep.Mirrors Eq (fun _ _ => True) (Checked.Reorders o) (check source i) (check source i') := by
  have haccord := Accord.eq (α := Extended K) source
  have hp : p.Fits o.size := hsize ▸ (Input.stated_fits hi).1
  have hproblem := (hpq.guarded source).withoutTrivialRows hp.guarded
  obtain ⟨facts, hfacts⟩ := Facts.exists_ofConstraints hp.length_lower hp.length_upper
    ⟨.ofSystem .inequalities p.inequalities, .ofSystem .equalities p.equalities⟩
  have hfacts' := Facts.ofConstraints_inOrder hp.inequalities hp.equalities hp.length_lower
    hp.length_upper hfacts
  rw [← hpq.inequalities_eq, ← hpq.equalities_eq, ← hpq.bounds_eq] at hfacts'
  obtain ⟨hfixed, hinfeasible, hvalues⟩ := Facts.ofConstraints_eq_ok hfacts
  have hfixed : facts.fixed.length = o.size := by
    simp [hfixed, Bounds.fixed, hp.length_lower, hp.length_upper]
  have hinfeasible : facts.infeasibleBounds.length = o.size := by
    simp [hinfeasible, Bounds.infeasible, hp.length_lower, hp.length_upper]
  rw [check_eq hi hfacts, check_eq hi' hfacts', Facts.allFixed_inOrder hfixed,
    Facts.infeasible_inOrder hinfeasible, habsent]
  refine .step (.reports haccord rfl) (.step (.leave _ _) ?_)
  dsimp only
  by_cases hall : facts.allFixed = true
  · -- the only point that there is comes in the order of all variables
    have hpoint : facts.fixedValues.length = o.size :=
      Facts.length_fixedValues hp.length_lower hp.length_upper hfacts hall
    have hvalues : (facts.inOrder o).fixedValues = o.apply facts.fixedValues := by
      rw [Facts.inOrder, Order.onMarked_of_all hfixed hall]
    rw [if_pos hall, if_pos hall, hvalues, hproblem.violationAt_eq hp.guarded.withoutTrivialRows hpoint]
    refine ((Prep.Mirrors.same haccord.refl _).map fun _ _ => congrArg some).bind_same fun violation => ?_
    exact .step (.leave _ _) (.pure ⟨hproblem, rfl, rfl⟩)
  · rw [if_neg hall, if_neg hall]
    refine (Prep.Mirrors.pure rfl).bind_same fun violation => ?_
    exact .step (.leave _ _) (.pure ⟨hproblem, rfl, rfl⟩)

/-! ## Elimination -/

omit [Interchange (Extended K)] in
/-- Two problems of which one is the other one in an order are reduced alike. -/
theorem reduce_reorders {c d : Checked (Extended K)} (h : c.Reorders o d) (hp : c.problem.Fits o.size)
    (hpos : 0 < o.size) (hfixed : c.facts.fixed.length = o.size)
    (hdegenerate : d.facts.isDegenerate = c.facts.isDegenerate) :
    Prep.Mirrors Eq (fun _ _ => True) (fun a b => a.1.Reorders (o.reducedBy a.2) b.1 ∧
      b.2 = a.2.map (Elimination.inOrder o)) (reduce c) (reduce d) := by
  have hq := h.problem.fits hp
  have helimination := Bounds.elimination_inOrder hp.length_lower hp.length_upper hfixed
  have hfits := Bounds.elimination_fits hp.length_lower hp.length_upper hfixed
  have hfixed' : d.facts.fixed = o.apply c.facts.fixed := by rw [h.facts_eq, Facts.inOrder]
  rw [← h.problem.bounds_eq] at helimination
  unfold reduce
  rw [hdegenerate, hfixed', Order.any_apply hfixed]
  refine .ite ?_ (.pure ⟨h.problem, rfl⟩)
  refine (Prep.Mirrors.known (Problem.eliminate_eq hp hpos hfixed)
    (Problem.eliminate_eq hq hpos (Order.length_apply hfixed))).bind ?_
  rintro _ _ ⟨rfl, rfl⟩
  rw [helimination]
  refine (Prep.Mirrors.leave _ _).bind_same fun _ => ?_
  exact .pure ⟨h.problem.reducedBy hp hfits, rfl⟩

/-! ## Options -/

/-- Options are resolved alike for problems with as many variables and the same least width. -/
theorem resolveOptions_reorders (invoker : Invoker) (options : Value (Extended K)) {n : Nat}
    {b b' : Bounds (Extended K)} (hwidth : b'.halfWidth = b.halfWidth) :
    Prep.Mirrors Eq (fun _ _ => True) Eq (resolveOptions invoker options n b)
      (resolveOptions invoker options n b') := by
  have haccord := Accord.eq (α := Extended K) invoker.name
  have hreport (a : Anomaly (Extended K)) : Prep.Mirrors Eq (fun _ _ => True) Eq
      (Prep.report invoker.name a) (Prep.report invoker.name a) := .report haccord rfl
  refine (Prep.Mirrors.same haccord.refl _).bind_same fun entries => ?_
  refine Resolution.settings_mirrors haccord ⟨rfl, hwidth, fun _ _ => rfl⟩ ?_ fun s? => ?_
  · show Prep.Mirrors _ _ _ (Resolution.solver ⟨invoker, n, b, entries⟩)
      (Resolution.solver ⟨invoker, n, b, entries⟩)
    unfold Resolution.solver
    split
    · exact .pure rfl
    · exact .step (hreport _) (.pure rfl)
    · exact .pure rfl
    · exact .step (hreport _) (.pure rfl)
  · refine .ite ?_ (.pure rfl)
    refine (Prep.Mirrors.same haccord.refl _).bind_same fun texts => ?_
    exact hreport _

/-! ## The start -/

/-- The start is settled alike, unless it has to be searched for. -/
theorem settleStart_reorders {search : NearestSearch (Extended K)} {kind : ProblemKind}
    (hkind : kind ≠ .linearlyConstrained) (hpq : p.Reorders o q) (hp : p.Fits o.size)
    (hdegenerate : g.isDegenerate = f.isDegenerate) :
    Prep.Mirrors Eq (fun _ _ => True) (Problem.Reorders o) (settleStart search source kind f p)
      (settleStart search source kind g q) := by
  have haccord := Accord.eq (α := Extended K) source
  unfold settleStart
  rw [hdegenerate]
  refine .ite (.pure hpq) ?_
  unfold moveStart
  rw [hpq.feasibleStart_eq hp hkind]
  refine (Prep.Mirrors.lift (EndsAlike.map_self haccord.refl _ _)).bind ?_
  rintro ⟨start, failure⟩ _ ⟨hstart, rfl⟩
  have hlen : start.length = o.size := Problem.length_feasibleStart_of_ne hkind hp hstart
  have hrevise : Prep.Mirrors Eq (fun _ _ => True) (Problem.Reorders o)
      (do
        if ← (liftM (p.isRevised start) : Prep (Extended K) Bool) then do
          Prep.report source .revisedStart
          return { p with start }
        else return p : Prep (Extended K) (Problem (Extended K)))
      (do
        if ← (liftM (q.isRevised (o.apply start)) : Prep (Extended K) Bool) then do
          Prep.report source .revisedStart
          return { q with start := o.apply start }
        else return q) := by
    rw [hpq.isRevised_eq hp hlen]
    refine (Prep.Mirrors.same haccord.refl _).bind_same fun revised => ?_
    exact .ite ((Prep.Mirrors.reports haccord rfl).bind_same fun _ => .pure hpq.with_start) (.pure hpq)
  cases failure with
  | none => exact hrevise
  | some reason => exact (Prep.Mirrors.leave _ _).bind_same fun _ => hrevise

/-! ## Rescaling -/

omit [Interchange (Extended K)] in
/-- Rescaling ends alike: a factor that is too small is so in any order. -/
theorem Problem.Reorders.rescale (hpq : p.Reorders o q) (hp : p.Fits o.size) (hpos : 0 < o.size) :
    EndsAlike (fun _ _ => True) (fun a b => a.1.Reorders o b.1 ∧ a.2.Fits o.size ∧ b.2 = a.2.inOrder o)
      p.rescale q.rescale := by
  have hfits := Rescaling.fitted_fits hp.length_start hp.length_lower hp.length_upper
  have hfitted : Rescaling.fitted q.start q.bounds = (Rescaling.fitted p.start p.bounds).inOrder o := by
    rw [hpq.start_eq, hpq.bounds_eq]
    exact Rescaling.fitted_inOrder hp.length_start hp.length_lower hp.length_upper
  have hleast := Extended.minimum?_perm (Order.apply_perm hfits.1)
  by_cases hfine : ∀ least,
      minimum? (Rescaling.fitted p.start p.bounds).factor = some least → ¬least < Scalar.epsilon
  · have hok := (Problem.rescale_eq_ok_iff hp hpos).2 ⟨rfl, rfl, hfine⟩
    rw [← hleast] at hfine
    have hok' := (Problem.rescale_eq_ok_iff (hpq.fits hp) hpos).2 ⟨hfitted.symm, rfl, hfine⟩
    rw [hok, hok']
    exact .ok ⟨hpq.rescaledBy hp hfits, hfits, rfl⟩
  · -- a factor is too small in any order
    have hfine' : ¬∀ least,
        minimum? (Rescaling.fitted q.start q.bounds).factor = some least → ¬least < Scalar.epsilon := by
      rwa [hfitted, Rescaling.inOrder, hleast]
    apply EndsAlike.of_forall_ne
    · rintro ⟨p', r⟩ h
      obtain ⟨rfl, -, h⟩ := (Problem.rescale_eq_ok_iff hp hpos).1 h
      exact hfine h
    · rintro ⟨q', r⟩ h
      obtain ⟨rfl, -, h⟩ := (Problem.rescale_eq_ok_iff (hpq.fits hp) hpos).1 h
      exact hfine' h

/-- Problems are rescaled alike, and the radii change in both cases or in none. -/
theorem rescaleIfAsked_reorders (hpq : p.Reorders o q) (hp : p.Fits o.size) (hpos : 0 < o.size)
    (hdegenerate : g.isDegenerate = f.isDegenerate) (s : Settings (Extended K)) :
    Prep.Mirrors Eq (fun _ _ => True) (fun a b => a.1.Reorders o b.1 ∧
      b.2 = (a.2.1.map (Rescaling.inOrder o), a.2.2)) (rescaleIfAsked source f p s)
      (rescaleIfAsked source g q s) := by
  have haccord := Accord.eq (α := Extended K) source
  unfold rescaleIfAsked
  rw [hdegenerate]
  refine .ite ?_ (.pure ⟨hpq, rfl⟩)
  refine .bind (R := fun a b => a.1.Reorders o b.1 ∧ b.2 = (a.2.1.inOrder o, a.2.2)) ?_ ?_
  · refine (Prep.Mirrors.lift (hpq.rescale hp hpos)).bind ?_
    rintro ⟨p', r⟩ ⟨q', _⟩ ⟨hpq', hr, rfl⟩
    dsimp only at hpq' hr ⊢
    rw [hr.isShift_inOrder, hr.ratio_inOrder]
    refine .step (.reports haccord rfl) ?_
    refine (Prep.Mirrors.same haccord.refl _).bind_same fun ratio => ?_
    exact .ite ((Prep.Mirrors.leave _ _).bind_same fun _ => .pure ⟨hpq', rfl⟩) (.pure ⟨hpq', rfl⟩)
  · rintro ⟨p', r, t⟩ ⟨q', r', t'⟩ ⟨hpq', heq⟩
    cases heq
    exact .pure ⟨hpq', rfl⟩

/-! ## Selection -/

/-- The same solver is selected, and settings are adapted to it alike. -/
theorem settleSolver_reorders (invoker : Invoker) (s : Settings (Extended K)) (kind : ProblemKind)
    (hdimension : q.dimension = p.dimension) (hwidth : q.bounds.halfWidth = p.bounds.halfWidth) :
    Prep.Mirrors Eq (fun _ _ => True) Eq (settleSolver invoker s kind p)
      (settleSolver invoker s kind q) := by
  have haccord := Accord.eq (α := Extended K) invoker.name
  have hadapt (solver : Solver) :
      s.adapt solver p.dimension q.bounds = s.adapt solver p.dimension p.bounds := by
    rw [Settings.adapt, hwidth, Settings.adapt]
  have hchoose : Prep.Mirrors Eq (fun _ _ => True) Eq
      (selectSolver.choose SelectionRule.table s kind p.dimension p.bounds)
      (selectSolver.choose SelectionRule.table s kind q.dimension q.bounds) := by
    unfold selectSolver.choose
    rw [hdimension]
    refine (Prep.Mirrors.same haccord.refl _).bind_same fun rule => ?_
    refine .step (.throw trivial) ((Prep.Mirrors.leave _ _).bind_same fun _ => ?_)
    rw [hadapt]
    exact .same haccord.refl _
  unfold settleSolver
  refine .ite ?_ (.pure rfl)
  refine .step (.throw trivial) ?_
  split
  · refine .ite ((Prep.Mirrors.leave _ _).bind_same fun _ => .pure rfl) ?_
    exact (Prep.Mirrors.report haccord rfl).bind_same fun _ => hchoose
  · exact hchoose

/-! ## Records -/

/-- A record of the same preparation in another order: what is about the whole problem is equal, and what has
an entry for each variable comes in the order that the variables are left in. -/
structure Record.Reorders (o : Order) (r r' : Record (Extended K)) : Prop where
  facts_eq : r'.facts = r.facts.inOrder o
  infeasible_eq : r'.facts.infeasible = r.facts.infeasible
  allFixed_eq : r'.facts.allFixed = r.facts.allFixed
  fixedViolation_eq : r'.fixedViolation = r.fixedViolation
  rawDimension_eq : r'.rawDimension = r.rawDimension
  rawKind_eq : r'.rawKind = r.rawKind
  refinedDimension_eq : r'.refinedDimension = r.refinedDimension
  refinedKind_eq : r'.refinedKind = r.refinedKind
  elimination_eq : r'.elimination = r.elimination.map (Elimination.inOrder o)
  problem : r.problem.Reorders (o.reducedBy r.elimination) r'.problem
  rescaling_eq : r'.rescaling = r.rescaling.map (Rescaling.inOrder (o.reducedBy r.elimination))
  settings_eq : r'.settings = r.settings
  diagnostics_eq : r'.diagnostics = r.diagnostics
  restore_eq : ∀ y, y.length = r.refinedDimension →
    r'.restore ((o.reducedBy r.elimination).apply y) = (r.restore y).map o.apply

namespace Record.Fits

variable {r r' : Record (Extended K)} (h : r.Fits) (hsize : r.rawDimension = o.size)

include h hsize

omit [Field K] [LinearOrder K] [FloorRing K] [Interchange (Extended K)] in
theorem size_reducedBy : (o.reducedBy r.elimination).size = r.refinedDimension := by
  unfold Order.reducedBy
  split
  · next e he =>
    obtain ⟨hfits, hdimension⟩ := h.elimination e he
    exact (Order.size_onMarked (hfits.1.trans hsize)).trans hdimension
  · next hnone => exact hsize.symm.trans (h.dimension hnone).symm

section

variable (helimination : r'.elimination = r.elimination.map (Elimination.inOrder o))
  (hrescaling : r'.rescaling = r.rescaling.map (Rescaling.inOrder (o.reducedBy r.elimination)))

include helimination hrescaling

omit [Field K] [LinearOrder K] [FloorRing K] [Interchange (Extended K)] in
/-- The maps of a record fit if they are those of a record that fits, in an order. -/
theorem inOrder (hraw : r'.rawDimension = r.rawDimension)
    (hrefined : r'.refinedDimension = r.refinedDimension) : r'.Fits := by
  have hsized := h.size_reducedBy hsize
  constructor
  · intro s' hs'
    rw [hrescaling] at hs'
    obtain ⟨s, hs, rfl⟩ := Option.map_eq_some_iff.1 hs'
    have hfits : s.Fits (o.reducedBy r.elimination).size := hsized.symm ▸ h.rescaling s hs
    rw [hrefined, ← hsized]
    exact hfits.inOrder
  · intro e' he'
    rw [helimination] at he'
    obtain ⟨e, he, rfl⟩ := Option.map_eq_some_iff.1 he'
    obtain ⟨hfits, hdimension⟩ := h.elimination e he
    rw [hsize] at hfits
    rw [hraw, hsize, hrefined, ← hdimension]
    exact ⟨hfits.inOrder, hfits.dimension_inOrder⟩
  · intro hnone
    rw [helimination, Option.map_eq_none_iff] at hnone
    rw [hrefined, hraw]
    exact h.dimension hnone

omit helimination [Interchange (Extended K)] in
theorem unscaled_inOrder {y : List (Extended K)} (hy : y.length = r.refinedDimension) :
    r'.unscaled ((o.reducedBy r.elimination).apply y)
      = (o.reducedBy r.elimination).apply (r.unscaled y) := by
  have hsized := h.size_reducedBy hsize
  rw [unscaled, hrescaling, unscaled]
  cases hs : r.rescaling with
  | none => rfl
  | some s =>
    have hfits : s.Fits (o.reducedBy r.elimination).size := hsized.symm ▸ h.rescaling s hs
    exact hfits.toUnscaled_inOrder (hy.trans hsized.symm)

omit hrescaling [Field K] [LinearOrder K] [FloorRing K] [Interchange (Extended K)] in
theorem expanded_inOrder {x : List (Extended K)} (hx : x.length = r.refinedDimension) :
    r'.expanded ((o.reducedBy r.elimination).apply x) = o.apply (r.expanded x) := by
  rw [expanded, helimination, expanded]
  cases he : r.elimination with
  | none => rfl
  | some e =>
    obtain ⟨hfits, hdimension⟩ := h.elimination e he
    rw [hsize] at hfits
    exact Order.merge_apply hfits.1 (hx.trans hdimension.symm) hfits.2

omit [Interchange (Extended K)] in
/-- Points are restored in the order of all variables. -/
theorem restore_inOrder (hfacts : r'.facts = r.facts.inOrder o) (hfixed : r.facts.fixed.length = o.size)
    (hraw : r'.rawDimension = r.rawDimension) (hrefined : r'.refinedDimension = r.refinedDimension)
    {y : List (Extended K)} (hy : y.length = r.refinedDimension) :
    r'.restore ((o.reducedBy r.elimination).apply y) = (r.restore y).map o.apply := by
  have hfits := h.inOrder hsize helimination hrescaling hraw hrefined
  have hallFixed : r'.facts.allFixed = r.facts.allFixed := by
    rw [hfacts, Facts.allFixed_inOrder hfixed]
  by_cases hall : r.facts.allFixed = true
  · -- the only point that there is comes in the order
    have hvalues : r'.facts.fixedValues = o.apply r.facts.fixedValues := by
      rw [hfacts, Facts.inOrder, Order.onMarked_of_all hfixed hall]
    rw [restore, restore, hallFixed, if_pos hall, if_pos hall, hvalues]
    rfl
  · have hfree : r.facts.allFixed = false := Bool.eq_false_iff.2 hall
    have hlen : ((o.reducedBy r.elimination).apply y).length = r'.refinedDimension := by
      rw [Order.length_apply (hy.trans (h.size_reducedBy hsize).symm), h.size_reducedBy hsize, hrefined]
    rw [hfits.restore_eq (hallFixed.trans hfree) hlen, h.restore_eq hfree hy,
      h.unscaled_inOrder hsize hrescaling hy,
      h.expanded_inOrder hsize helimination (h.length_unscaled hy)]
    rfl

end

end Record.Fits

/-! ## Whole preparations -/

/-- A problem in an order is checked and reduced along with the problem of a course. -/
theorem Course.exists_reduced_inOrder {search : NearestSearch (Extended K)} {invoker : Invoker}
    {i i' : Input (Extended K)} {e : Option Category} {k : Journal (Extended K)} {r : Record (Extended K)}
    (c : Course search invoker i e {} r k) (hi' : i'.stated invoker.name = .ok q)
    (hpq : c.given.Reorders o q) (hsize : c.given.dimension = o.size)
    (habsent : i'.objective.isAbsent = i.objective.isAbsent) :
    ∃ checked k₁ reduced elimination k₂,
      (check invoker.name i').outcome e {} = (.ok checked, k₁)
        ∧ (reduce checked).outcome e k₁ = (.ok (reduced, elimination), k₂)
        ∧ c.checked.Reorders o checked ∧ checked.facts.isDegenerate = c.checked.facts.isDegenerate
        ∧ c.reduced.Reorders (o.reducedBy r.elimination) reduced
        ∧ elimination = r.elimination.map (Elimination.inOrder o)
        ∧ c.afterReduce.log.Mirrors Eq k₂.log := by
  have hfixed : c.checked.facts.fixed.length = o.size := c.length_fixed.trans hsize
  have hinfeasible : c.checked.facts.infeasibleBounds.length = o.size :=
    (c.checked_of.length_infeasibleBounds c.given_fits).trans hsize
  obtain ⟨checked, k₁, hcheck, hchecked, hlog⟩ :=
    (check_reorders c.stated_eq hi' hpq hsize habsent).exists_outcome (k := {}) c.check_eq
      (DiagnosticLog.mirrors_empty _)
  have hdegenerate : checked.facts.isDegenerate = c.checked.facts.isDegenerate := by
    rw [hchecked.facts_eq, Facts.isDegenerate, Facts.isDegenerate, Facts.allFixed_inOrder hfixed,
      Facts.infeasible_inOrder hinfeasible]
  have hfits : c.checked.problem.Fits o.size := hsize ▸ c.checked_fits
  have hpos : 0 < o.size := hsize ▸ c.dimension_pos
  obtain ⟨⟨reduced, elimination⟩, k₂, hreduce, ⟨hreduced, helimination⟩, hlog⟩ :=
    (reduce_reorders hchecked hfits hpos hfixed hdegenerate).exists_outcome c.reduce_eq hlog
  exact ⟨checked, k₁, reduced, elimination, k₂, hcheck, hreduce, hchecked, hdegenerate, hreduced,
    helimination, hlog⟩

/-- Preparing a problem in another order of the variables: if the problem can be prepared and no start has to
be searched for, so can the problem in any order, and the two records differ in that order alone. -/
theorem prepare_reordered {search : NearestSearch (Extended K)} {invoker : Invoker}
    {i i' : Input (Extended K)} {e : Option Category} {r : Record (Extended K)}
    (h : (Prep.run e (prepare search invoker i)).1 = .ok r) (hi : i.stated invoker.name = .ok p)
    (hi' : i'.stated invoker.name = .ok q) (hpq : p.Reorders o q) (hsize : p.dimension = o.size)
    (habsent : i'.objective.isAbsent = i.objective.isAbsent) (hoptions : i'.options = i.options)
    (hkind : r.refinedKind ≠ .linearlyConstrained) :
    ∃ r', (Prep.run e (prepare search invoker i')).1 = .ok r' ∧ r.Reorders o r' := by
  obtain ⟨c⟩ := exists_course (Prod.ext h rfl)
  obtain rfl : c.given = p := Except.ok.inj (c.stated_eq.symm.trans hi)
  have hsettledFits := c.settled_fits_of_ne hkind
  have hfits := c.record_fits_of_settled hsettledFits
  have hraw : r.rawDimension = o.size := c.rawDimension_eq_dimension.trans hsize
  have hrefined := hfits.size_reducedBy hraw
  have hfixed : c.checked.facts.fixed.length = o.size := c.length_fixed.trans hsize
  have hinfeasible : c.checked.facts.infeasibleBounds.length = o.size :=
    (c.checked_of.length_infeasibleBounds c.given_fits).trans hsize
  have hcheckedFits : c.checked.problem.Fits o.size := hsize ▸ c.checked_fits
  -- stage by stage, the preparation in the order goes along
  obtain ⟨checked, k₁, reduced, elimination, k₂, hcheck, hreduce, hchecked, hdegenerate, hreduced,
    helimination, hlog⟩ := c.exists_reduced_inOrder hi' hpq hsize habsent
  have hreducedFits : c.reduced.Fits (o.reducedBy r.elimination).size := hrefined.symm ▸ c.reduced_fits
  have hdimension := hreduced.dimension_eq hreducedFits
  have hreducedKind := hreduced.kind_eq hreducedFits
  have hhandles : invoker.handles reduced.kind = true := hreducedKind ▸ c.handles
  have hresolve := c.resolve_eq
  rw [← hoptions, ← hdimension] at hresolve
  obtain ⟨resolved, k₃, hresolve, rfl, hlog⟩ :=
    (resolveOptions_reorders invoker i'.options (hreduced.halfWidth_eq hreducedFits)).exists_outcome
      (k := { k₂ with trace := k₂.trace ++ [.classified checked.problem.kind reduced.kind] })
      hresolve (c.beforeResolve_log ▸ hlog)
  have hsettle := c.settle_eq
  rw [← hreducedKind] at hsettle
  have hsearched : reduced.kind ≠ .linearlyConstrained := by
    rwa [hreducedKind, ← c.refinedKind_eq]
  obtain ⟨settled, k₄, hsettle, hsettled, hlog⟩ :=
    (settleStart_reorders hsearched hreduced hreducedFits hdegenerate).exists_outcome hsettle hlog
  have hsettledFits' : c.settled.Fits (o.reducedBy r.elimination).size := hrefined.symm ▸ hsettledFits
  have hpos' : 0 < (o.reducedBy r.elimination).size := hrefined.symm ▸ c.refinedDimension_pos
  obtain ⟨⟨problem, rescaling, adjusted⟩, k₅, hrescale, ⟨hproblem, hrescaling⟩, hlog⟩ :=
    (rescaleIfAsked_reorders hsettled hsettledFits' hpos' hdegenerate _).exists_outcome c.rescale_eq hlog
  obtain ⟨hrescaling, hadjusted⟩ := Prod.mk.inj hrescaling
  dsimp only at hproblem hrescaling hadjusted
  have hproblemFits : r.problem.Fits (o.reducedBy r.elimination).size := hrefined.symm ▸
    rescaleIfAsked_fits hsettledFits c.refinedDimension_pos (Prep.yields_of_outcome c.rescale_eq)
  have hsolver := c.solver_eq
  rw [← hadjusted, ← hreducedKind] at hsolver
  obtain ⟨settings, k₆, hsolver, hsettings, hlog⟩ :=
    (settleSolver_reorders invoker adjusted reduced.kind (hproblem.dimension_eq hproblemFits)
      (hproblem.halfWidth_eq hproblemFits)).exists_outcome hsolver hlog
  refine ⟨_, prepare_outcome hcheck hreduce hhandles hresolve hsettle hrescale hsolver, ?_⟩
  have hfacts : checked.facts = r.facts.inOrder o := by rw [hchecked.facts_eq, c.facts_eq]
  have hrawDimension : checked.problem.dimension = r.rawDimension := by
    rw [hchecked.problem.dimension_eq hcheckedFits, c.rawDimension_eq]
  have hrefinedDimension : reduced.dimension = r.refinedDimension := by
    rw [hdimension, c.refinedDimension_eq]
  exact {
    facts_eq := hfacts
    infeasible_eq := by rw [hchecked.facts_eq, Facts.infeasible_inOrder hinfeasible, c.facts_eq]
    allFixed_eq := by rw [hchecked.facts_eq, Facts.allFixed_inOrder hfixed, c.facts_eq]
    fixedViolation_eq := hchecked.fixedViolation_eq.trans c.fixedViolation_eq.symm
    rawDimension_eq := hrawDimension
    rawKind_eq := (hchecked.problem.kind_eq hcheckedFits).trans c.rawKind_eq.symm
    refinedDimension_eq := hrefinedDimension
    refinedKind_eq := hreducedKind.trans c.refinedKind_eq.symm
    elimination_eq := helimination
    problem := hproblem
    rescaling_eq := hrescaling
    settings_eq := hsettings.symm
    diagnostics_eq := by
      rw [c.diagnostics_eq]
      exact (List.forall₂_eq_eq_eq ▸ hlog.entries : _ = _).symm
    restore_eq := by
      intro y hy
      exact hfits.restore_inOrder hraw helimination hrescaling hfacts (c.facts_eq ▸ hfixed)
        hrawDimension hrefinedDimension hy }

section

open Extended

/-- The order in which three variables are listed anyway. -/
def firstToLast : Order := ⟨[0, 1, 2], by decide⟩

/-- The last one of three variables moved to the front. -/
def lastFirst : Order := ⟨[2, 0, 1], by decide⟩

/-- Three variables in an order, with a row beside the constraints. The second variable is fixed, and the
others are asked to be rescaled. -/
def weightedInput (o : Order) : Input (Extended ℚ) where
  objective := .function ⟨"weighted", none⟩ none fun x => .ok (.real (dot (o.apply [1, 2, 3]) x))
  start := reals (o.apply [finite 1, finite 1, finite 5])
  inequalityRows := .list [reals (o.apply [finite 1, finite 2, finite 3])]
  inequalityRhs := reals [finite 6]
  lower := reals (o.apply [finite 0, finite 1, finite (-1)])
  upper := reals (o.apply [finite 4, finite 1, finite 1])
  constraints := .function ⟨"difference", none⟩ none fun x =>
    .ok (.tuple [reals [dot (o.apply [1, 0, -1]) x], .list []])
  options := .mapping [(.text "scale", .bool true)]
where
  reals (xs : List (Extended ℚ)) : Value (Extended ℚ) := .list (xs.map .real)

/-- The problem that it states. -/
def weightedProblem (o : Order) : Problem (Extended ℚ) where
  objective := some fun x => .ok (.real (dot (o.apply [1, 2, 3]) x))
  start := o.apply [finite 1, finite 1, finite 5]
  inequalities := ⟨[o.apply [finite 1, finite 2, finite 3]], [finite 6]⟩
  equalities := ⟨[], []⟩
  bounds := ⟨o.apply [finite 0, finite 1, finite (-1)], o.apply [finite 4, finite 1, finite 1]⟩
  constraints := some fun x => .ok (.tuple [weightedInput.reals [dot (o.apply [1, 0, -1]) x], .list []])

theorem weightedProblem_reorders : (weightedProblem firstToLast).Reorders lastFirst
    (weightedProblem lastFirst) where
  start_eq := rfl
  inequalities_eq := rfl
  equalities_eq := rfl
  bounds_eq := rfl
  objective := by
    refine .some fun x hx => ?_
    have hvalue : dot (lastFirst.apply [1, 2, 3]) (lastFirst.apply x) = dot [1, 2, 3] x :=
      dot_apply rfl hx
    exact congrArg (fun y => Except.ok (Value.real y)) hvalue
  constraints := by
    refine .some fun x hx => ?_
    have hvalue : dot (lastFirst.apply [1, 0, -1]) (lastFirst.apply x) = dot [1, 0, -1] x :=
      dot_apply rfl hx
    exact congrArg (fun y => Except.ok (Value.tuple [weightedInput.reals [y], .list []])) hvalue

/-- The free variables change places, and with them their canonical starts, factors and shifts. -/
theorem prepare_reordered_weightedInput : ∃ r r',
    (Prep.run none (prepare NearestSearch.stay .frontEnd (weightedInput firstToLast))).1 = .ok r ∧
      (Prep.run none (prepare NearestSearch.stay .frontEnd (weightedInput lastFirst))).1 = .ok r' ∧
      r.Reorders lastFirst r' ∧ r.problem.start = [finite (-1 / 2), finite 5] ∧
      r'.problem.start = [finite 5, finite (-1 / 2)] := by
  have hrun : (Prep.run none (prepare NearestSearch.stay .frontEnd
      (weightedInput firstToLast))).1.toOption.map (fun r => (r.refinedKind, r.problem.start))
        = some (.nonlinearlyConstrained, [finite (-1 / 2), finite 5]) := by decide +kernel
  have hrun' : (Prep.run none (prepare NearestSearch.stay .frontEnd
      (weightedInput lastFirst))).1.toOption.map (fun r => r.problem.start)
        = some [finite 5, finite (-1 / 2)] := by decide +kernel
  have hstated (o : Order) (ho : o = firstToLast ∨ o = lastFirst) :
      (weightedInput o).stated Invoker.frontEnd.name = .ok (weightedProblem o) := by
    rcases ho with rfl | rfl <;> rfl
  obtain ⟨r, hr, hdata⟩ := exists_of_toOption_map hrun
  obtain ⟨hkind, hstart⟩ := Prod.mk.inj hdata
  have hnonlinear : r.refinedKind ≠ .linearlyConstrained := by
    rw [hkind]
    decide
  obtain ⟨r', hr', hreorders⟩ := prepare_reordered hr (hstated _ (.inl rfl)) (hstated _ (.inr rfl))
    weightedProblem_reorders rfl rfl rfl hnonlinear
  rw [hr'] at hrun'
  exact ⟨r, r', hr, hr', hreorders, hstart, Option.some.inj hrun'⟩

end

end Presolve
