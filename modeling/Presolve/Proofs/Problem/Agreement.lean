import Presolve.Proofs.SideBySide
import Presolve.Transform.Elimination
import Presolve.Transform.Rescaling
import Presolve.Transform.Start

/-!
# Problems that agree

Two problems *agree* if they have the same start, systems and bounds and their functions are related.
No transform looks into a function, so problems that agree are transformed alike and agree afterwards,
for every relation of functions that a change of variables keeps.
-/

namespace Presolve

variable {α : Type}

/-! ## Functions -/

/-- Two functions that have the same values, and faults related by `F`. -/
def Evaluator.SameValues (F : Fault → Fault → Prop) (f g : Evaluator α) : Prop :=
  ∀ x, EndsAlike F Eq (f x) (g x)

/-- A relation of functions that a change of variables keeps. -/
structure Evaluator.IsCongruence (C : Evaluator α → Evaluator α → Prop) : Prop where
  refl : ∀ f, C f f
  comp : ∀ (h : List α → Except Fault (List α)) f g, C f g →
    C (fun x => h x >>= f) (fun x => h x >>= g)

theorem Evaluator.sameValues_isCongruence {F : Fault → Fault → Prop} (hF : ∀ x, F x x) :
    IsCongruence (SameValues F : Evaluator α → Evaluator α → Prop) where
  refl f := fun x => .refl hF (f x)
  comp h f g hfg := by
    intro x
    refine (EndsAlike.refl hF (h x)).bind_same fun y => ?_
    exact hfg y

/-- The values of constraints at a point are the same, and so is what they are without constraints. -/
theorem constraintExcess_sameValues [Scalar α] [Interchange α] {F : Fault → Fault → Prop}
    (hF : ∀ x, F x x) {f? g? : Option (Evaluator α)}
    (h : Option.Rel (Evaluator.SameValues F) f? g?) (x : List α) :
    EndsAlike F Eq (constraintExcess f? x) (constraintExcess g? x) := by
  cases h with
  | none => exact .ok rfl
  | some hfg =>
    refine (hfg x).bind_same fun output => ?_
    exact .refl hF _

namespace Evaluator.IsCongruence

variable {C : Evaluator α → Evaluator α → Prop} (hC : IsCongruence C) {f? g? : Option (Evaluator α)}

include hC

theorem onFree (e : Elimination α) (h : Option.Rel C f? g?) : C (e.onFree f?) (e.onFree g?) := by
  cases h with
  | none => exact hC.refl _
  | some hfg => exact hC.comp e.expand _ _ hfg

theorem onCanonical [Scalar α] (r : Rescaling α) (h : Option.Rel C f? g?) :
    C (r.onCanonical f?) (r.onCanonical g?) := by
  cases h with
  | none => exact hC.refl _
  | some hfg => exact hC.comp r.toUnscaled _ _ hfg

end Evaluator.IsCongruence

/-! ## Problems -/

/-- The same start, systems and bounds, with objectives related by `O` and constraints related by `C`. -/
structure Problem.Agrees (O C : Evaluator α → Evaluator α → Prop) (p q : Problem α) : Prop where
  start_eq : q.start = p.start
  inequalities_eq : q.inequalities = p.inequalities
  equalities_eq : q.equalities = p.equalities
  bounds_eq : q.bounds = p.bounds
  objective : Option.Rel O p.objective q.objective
  constraints : Option.Rel C p.constraints q.constraints

namespace Problem.Agrees

variable {O C : Evaluator α → Evaluator α → Prop} {p q : Problem α}

theorem dimension_eq (h : p.Agrees O C q) : q.dimension = p.dimension := by
  rw [dimension, dimension, h.start_eq]

theorem with_start (h : p.Agrees O C q) (start : List α) :
    Problem.Agrees O C { p with start } { q with start } :=
  { h with start_eq := rfl }

theorem isSome_constraints (h : p.Agrees O C q) : q.constraints.isSome = p.constraints.isSome :=
  isSome_of_rel h.constraints

variable [Scalar α]

/-- The kind of a problem does not depend on its functions. -/
theorem kind_eq (h : p.Agrees O C q) : q.kind = p.kind := by
  rw [kind, kind, h.inequalities_eq, h.equalities_eq, h.bounds_eq, h.isSome_constraints]

theorem isRevised_eq (h : p.Agrees O C q) (x : List α) : q.isRevised x = p.isRevised x := by
  rw [isRevised, isRevised, h.start_eq]

/-- Constraints are evaluated at a point, and everything else about a violation is the same. -/
theorem violationAt [Interchange α] {F : Fault → Fault → Prop} (hF : ∀ x, F x x)
    (h : p.Agrees O (Evaluator.SameValues F) q) (x : List α) :
    EndsAlike F Eq (p.violationAt x) (q.violationAt x) := by
  simp only [Problem.violationAt, violation, h.bounds_eq, h.inequalities_eq, h.equalities_eq]
  refine (EndsAlike.refl hF _).bind_same fun bound => ?_
  refine (EndsAlike.refl hF _).bind_same fun ineq => ?_
  refine (EndsAlike.refl hF _).bind_same fun eq => ?_
  refine (constraintExcess_sameValues hF h.constraints x).bind_same fun other => ?_
  exact .ok rfl

/-! ## Transforms -/

section

variable {F : Fault → Fault → Prop} (hF : ∀ x, F x x) (hO : Evaluator.IsCongruence O)
  (hC : Evaluator.IsCongruence C)

include hF hO hC

/-- Problems that agree are reduced alike. -/
theorem eliminate (h : p.Agrees O C q) (fixed : List Bool) :
    EndsAlike F (fun a b => a.1.Agrees O C b.1 ∧ b.2 = a.2) (p.eliminate fixed) (q.eliminate fixed) := by
  simp only [Problem.eliminate, h.start_eq, h.inequalities_eq, h.equalities_eq, h.bounds_eq]
  refine (EndsAlike.refl hF _).bind_same fun values => ?_
  refine (EndsAlike.refl hF _).bind_same fun ineq => ?_
  refine (EndsAlike.refl hF _).bind_same fun eq => ?_
  refine (EndsAlike.refl hF _).bind_same fun start => ?_
  refine (EndsAlike.refl hF _).bind_same fun lower => ?_
  refine (EndsAlike.refl hF _).bind_same fun upper => ?_
  exact .ok ⟨⟨rfl, rfl, rfl, rfl, .some (hO.onFree _ h.objective),
    rel_map h.constraints fun _ _ hfg => hC.onFree _ (.some hfg)⟩, rfl⟩

/-- Problems that agree are rescaled alike. -/
theorem rescale (h : p.Agrees O C q) :
    EndsAlike F (fun a b => a.1.Agrees O C b.1 ∧ b.2 = a.2) p.rescale q.rescale := by
  simp only [Problem.rescale, h.start_eq, h.inequalities_eq, h.equalities_eq, h.bounds_eq]
  refine (EndsAlike.refl hF _).bind_same fun rescaling => ?_
  refine (EndsAlike.refl hF _).bind_same fun ineq => ?_
  refine (EndsAlike.refl hF _).bind_same fun eq => ?_
  refine (EndsAlike.refl hF _).bind_same fun start => ?_
  refine (EndsAlike.refl hF _).bind_same fun lower => ?_
  refine (EndsAlike.refl hF _).bind_same fun upper => ?_
  exact .ok ⟨⟨rfl, rfl, rfl, rfl, .some (hO.onCanonical _ h.objective),
    rel_map h.constraints fun _ _ hfg => hC.onCanonical _ (.some hfg)⟩, rfl⟩

end

end Problem.Agrees

/-! ## Starts -/

variable [Scalar α]

/-- Problems that agree have the same feasible start: neither the search nor the clipping sees a
function. -/
theorem Problem.Agrees.feasibleStart_eq {O C : Evaluator α → Evaluator α → Prop} {p q : Problem α}
    (h : p.Agrees O C q) (search : NearestSearch α) (kind : ProblemKind) :
    q.feasibleStart search kind = p.feasibleStart search kind := by
  have hquery : q.nearestQuery = p.nearestQuery := by
    simp only [nearestQuery, h.start_eq, h.inequalities_eq, h.equalities_eq, h.bounds_eq]
  cases kind with
  | unconstrained | nonlinearlyConstrained => simp only [feasibleStart, h.start_eq]
  | boundConstrained => simp only [feasibleStart, h.start_eq, h.bounds_eq]
  | linearlyConstrained => simp only [feasibleStart, linearStart, hquery, h.start_eq, h.bounds_eq]

end Presolve
