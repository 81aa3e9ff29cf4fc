import Presolve.Preparation
import Presolve.Proofs.Problem.Agreement

/-!
# Stages in the name of two invokers

A stage of a preparation uses the name of the invoker only in what it reports and in what it complains
of. So a stage in the name of one invoker mirrors the same stage in the name of another one, from problems
that agree to problems that agree. Only the comparison with the kind of the problem, the solver that
options are resolved for, and selection are different for different invokers; they are not treated here.
-/

namespace Presolve

open Scalar

variable {α : Type} [Scalar α] [Interchange α] {D : Diagnostic α → Diagnostic α → Prop}
  {F : Fault → Fault → Prop} {source source' : String}

/-! ## Reading -/

theorem readObjective_mirrors (h : Accord D F source source') (v : Value α) :
    Prep.Mirrors D F Eq (readObjective source v) (readObjective source' v) := by
  refine .ite ((Prep.Mirrors.reports h rfl).bind_same fun _ =>
    (Prep.Mirrors.pure rfl).bind_same fun v => ?_) ((Prep.Mirrors.pure rfl).bind_same fun v => ?_)
  -- an objective that was passed and the zero that takes its place are read alike
  all_goals
    beta_reduce
    split
    · exact .pure rfl
    · exact .throw (h.invalid _)

theorem readStart_alike (h : Accord D F source source') (v : Value α) :
    EndsAlike F Eq (readStart source v) (readStart source' v) := by
  unfold readStart
  split
  · exact .refl h.refl _
  · exact .error (h.invalid _)

omit [Scalar α] in
theorem readConstraints_alike (h : Accord D F source source') (v : Value α) :
    EndsAlike F Eq (readConstraints source v) (readConstraints source' v) := by
  unfold readConstraints
  split
  · exact .ok rfl
  · exact .ok rfl
  · exact .error (h.invalid _)

theorem CheckedSystem.read_alike (h : Accord D F source source') (name : SystemName) (n : Nat)
    (a b : Value α) :
    EndsAlike F Eq (CheckedSystem.read name source n a b) (CheckedSystem.read name source' n a b) := by
  have hread : EndsAlike F Eq (LinearSystem.read name source n a b)
      (LinearSystem.read name source' n a b) := by
    unfold LinearSystem.read
    split
    · split
      · exact .refl h.refl _
      · exact .error (h.invalid _)
    · exact .error (h.invalid _)
  exact hread.map fun s t hst => congrArg _ hst

theorem readLinear_mirrors (h : Accord D F source source') (n : Nat) (i : Input α) :
    Prep.Mirrors D F Eq (readLinear source n i) (readLinear source' n i) := by
  refine .bind_same (.lift ?_) fun linear => .step (.leave _ _) (.pure rfl)
  refine (CheckedSystem.read_alike h .inequalities n _ _).bind_same fun ineq => ?_
  exact (CheckedSystem.read_alike h .equalities n _ _).bind_same fun eq => .ok rfl

theorem Bounds.read_alike (h : Accord D F source source') (n : Nat) (lower upper : Value α) :
    EndsAlike F Eq (Bounds.read source n lower upper) (Bounds.read source' n lower upper) := by
  have hside (side : BoundName) (v : Value α) :
      EndsAlike F Eq (readSide side source n v) (readSide side source' n v) := by
    unfold readSide
    split
    · split
      · exact .ok rfl
      · split
        · exact .refl h.refl _
        · exact .error (h.invalid _)
    · exact .error (h.invalid _)
  refine (hside .lower lower).bind_same fun lo => ?_
  refine (hside .upper upper).bind_same fun hi => ?_
  exact .ok rfl

/-! ## Barriers -/

/-- Behind a barrier, only the faults of an objective depend on the invoker. -/
theorem Barrier.objective_sameValues (h : Accord D F source source') (f : Evaluator α) :
    Evaluator.SameValues F (Barrier.objective source f) (Barrier.objective source' f) := by
  intro x
  refine (EndsAlike.refl h.refl (f x)).bind_same fun output => ?_
  refine .bind_same ?_ fun value => .ok rfl
  unfold Barrier.readObjective
  split
  · exact .ok rfl
  · exact .error (h.invalid _)

/-- Behind a barrier, only the faults of constraints depend on the invoker. -/
theorem Barrier.constraints_sameValues (h : Accord D F source source') (f : Evaluator α) :
    Evaluator.SameValues F (Barrier.constraints source f) (Barrier.constraints source' f) := by
  have hpart (part : Value α) : EndsAlike F Eq (readPart source part) (readPart source' part) := by
    unfold readPart
    split
    · exact .ok rfl
    · split
      · exact .ok rfl
      · exact .error (h.invalid _)
  have hpair (ineq eq : Value α) : EndsAlike F Eq
      (do return (← readPart source ineq, ← readPart source eq))
      (do return (← readPart source' ineq, ← readPart source' eq)) := by
    refine (hpart ineq).bind_same fun part => ?_
    refine (hpart eq).bind_same fun part' => ?_
    exact .ok rfl
  intro x
  refine (EndsAlike.refl h.refl (f x)).bind_same fun output => ?_
  refine .bind_same ?_ fun value => .ok rfl
  unfold Barrier.readConstraints
  split
  · exact hpair _ _
  · exact hpair _ _
  · exact .error (h.invalid _)

/-! ## Checking and elimination -/

/-- The same is known of two problems that agree. -/
structure Checked.Agrees (F : Fault → Fault → Prop) (c d : Checked α) : Prop where
  problem : c.problem.Agrees (Evaluator.SameValues F) (Evaluator.SameValues F) d.problem
  facts_eq : d.facts = c.facts
  fixedViolation_eq : d.fixedViolation = c.fixedViolation

/-- An input is checked alike by all invokers. -/
theorem check_mirrors (h : Accord D F source source') (i : Input α) :
    Prep.Mirrors D F (Checked.Agrees F) (check source i) (check source' i) := by
  refine (readObjective_mirrors h _).bind ?_
  rintro ⟨view, objective⟩ _ rfl
  refine (Prep.Mirrors.lift (readStart_alike h _)).bind_same fun start => ?_
  refine (readLinear_mirrors h _ i).bind_same fun linear => ?_
  refine (Prep.Mirrors.lift (Bounds.read_alike h _ _ _)).bind_same fun bounds => ?_
  refine (Prep.Mirrors.same h.refl _).bind_same fun facts => ?_
  refine (Prep.Mirrors.lift (readConstraints_alike h _)).bind_same fun constraints => ?_
  -- the two problems differ in the barriers around their functions
  have hproblem : Problem.Agrees (Evaluator.SameValues F) (Evaluator.SameValues F)
      { objective := some (Barrier.objective source objective), start, bounds
        inequalities := linear.inequalities.system
        equalities := linear.equalities.system
        constraints := constraints.map (Barrier.constraints source) : Problem α }
      { objective := some (Barrier.objective source' objective), start, bounds
        inequalities := linear.inequalities.system
        equalities := linear.equalities.system
        constraints := constraints.map (Barrier.constraints source') } := by
    refine ⟨rfl, rfl, rfl, rfl, .some (Barrier.objective_sameValues h objective), ?_⟩
    cases constraints with
    | none => exact .none
    | some f => exact .some (Barrier.constraints_sameValues h f)
  refine .ite (.bind_same ?_ fun violation => ?_) ((Prep.Mirrors.pure rfl).bind_same fun violation => ?_)
  · exact (Prep.Mirrors.lift (hproblem.violationAt h.refl _)).map fun _ _ => congrArg some
  · exact .step (.leave _ _) (.pure ⟨hproblem, rfl, rfl⟩)
  · exact .step (.leave _ _) (.pure ⟨hproblem, rfl, rfl⟩)

omit [Interchange α] in
/-- Checked problems with the same facts that agree are reduced alike. -/
theorem reduce_mirrors_of {O C : Evaluator α → Evaluator α → Prop} (hF : ∀ x, F x x)
    (hO : Evaluator.IsCongruence O) (hC : Evaluator.IsCongruence C) {c d : Checked α}
    (hproblem : c.problem.Agrees O C d.problem) (hfacts : d.facts = c.facts) :
    Prep.Mirrors D F (fun a b => a.1.Agrees O C b.1 ∧ b.2 = a.2) (reduce c) (reduce d) := by
  unfold reduce
  rw [hfacts]
  refine .ite ?_ (.pure ⟨hproblem, rfl⟩)
  refine (Prep.Mirrors.lift (hproblem.eliminate hF hO hC _)).bind ?_
  rintro ⟨p, e⟩ ⟨q, e'⟩ ⟨hpq, hee'⟩
  refine (Prep.Mirrors.leave _ _).bind_same fun _ => ?_
  exact .pure ⟨hpq, congrArg some hee'⟩

omit [Interchange α] in
/-- Problems that agree are reduced alike. -/
theorem reduce_mirrors (hF : ∀ x, F x x) {c d : Checked α} (h : c.Agrees F d) :
    Prep.Mirrors D F (fun a b => a.1.Agrees (Evaluator.SameValues F) (Evaluator.SameValues F) b.1 ∧
      b.2 = a.2) (reduce c) (reduce d) := by
  have hcongruence := Evaluator.sameValues_isCongruence (α := α) hF
  exact reduce_mirrors_of hF hcongruence hcongruence h.problem h.facts_eq

/-! ## The start and rescaling -/

section

variable {O C : Evaluator α → Evaluator α → Prop} {p q : Problem α}

/-- The start of problems that agree is settled alike. -/
theorem settleStart_mirrors (h : Accord D F source source') (search : NearestSearch α) (kind : ProblemKind) (f : Facts α) (hpq : p.Agrees O C q) :
    Prep.Mirrors D F (Problem.Agrees O C) (settleStart search source kind f p)
      (settleStart search source' kind f q) := by
  refine .ite (.pure hpq) ?_
  have hrevise (start : List α) : Prep.Mirrors D F (Problem.Agrees O C)
      (do
        if ← (liftM (p.isRevised start) : Prep α Bool) then do
          Prep.report source .revisedStart
          return { p with start }
        else return p : Prep α (Problem α))
      (do
        if ← (liftM (q.isRevised start) : Prep α Bool) then do
          Prep.report source' .revisedStart
          return { q with start }
        else return q) := by
    rw [hpq.isRevised_eq]
    refine (Prep.Mirrors.same h.refl _).bind_same fun revised => ?_
    exact .ite ((Prep.Mirrors.reports h rfl).bind_same fun _ => .pure (hpq.with_start start)) (.pure hpq)
  rw [moveStart, moveStart, hpq.feasibleStart_eq]
  refine (Prep.Mirrors.same h.refl _).bind ?_
  rintro ⟨start, failure⟩ _ rfl
  cases failure with
  | none => exact hrevise start
  | some reason => exact (Prep.Mirrors.leave _ _).bind_same fun _ => hrevise start

/-- Problems that agree are rescaled alike. -/
theorem rescaleIfAsked_mirrors (h : Accord D F source source') (hO : Evaluator.IsCongruence O)
    (hC : Evaluator.IsCongruence C) (f : Facts α) (hpq : p.Agrees O C q) (s : Settings α) :
    Prep.Mirrors D F (fun a b => a.1.Agrees O C b.1 ∧ b.2 = a.2) (rescaleIfAsked source f p s)
      (rescaleIfAsked source' f q s) := by
  refine .ite ?_ (.pure ⟨hpq, rfl⟩)
  refine .bind (R := fun a b => a.1.Agrees O C b.1 ∧ b.2 = a.2) ?_ ?_
  · refine (Prep.Mirrors.lift (hpq.rescale h.refl hO hC)).bind ?_
    rintro ⟨p', r⟩ ⟨q', _⟩ ⟨hpq', rfl⟩
    refine .step (.reports h rfl) ?_
    refine (Prep.Mirrors.same h.refl _).bind_same fun ratio => ?_
    exact .ite ((Prep.Mirrors.leave _ _).bind_same fun _ => .pure ⟨hpq', rfl⟩) (.pure ⟨hpq', rfl⟩)
  · rintro ⟨p', r, t⟩ ⟨q', r', t'⟩ ⟨hpq', heq⟩
    cases heq
    exact .pure ⟨hpq', rfl⟩

end

end Presolve
