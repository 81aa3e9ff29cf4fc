import Presolve.Preparation
import Presolve.Proofs.Linear.Mask
import Presolve.Proofs.Value.Length

/-!
# The problem that an input states

`Input.stated` is the problem as the caller states it: functions as they were passed, every row, and
both bounds of every variable. It is what the claims about a preparation compare its result with.
`check_yields` says how checking an input starts from there: it puts barriers around the functions and
leaves out the trivial rows, and nothing else.

A problem *fits* `n` variables if all its parts have the lengths they should have.
-/

namespace Presolve

variable {α : Type}

/-! ## Problems whose parts fit together -/

/-- Every row has a coefficient for each of `n` variables and a right-hand side. -/
structure LinearSystem.Fits (s : LinearSystem α) (n : Nat) : Prop where
  length_rhs : s.rhs.length = s.rows.length
  length_row : ∀ row ∈ s.rows, row.length = n

/-- All parts of a problem are about `n` variables. -/
structure Problem.Fits (p : Problem α) (n : Nat) : Prop where
  length_start : p.start.length = n
  length_lower : p.bounds.lower.length = n
  length_upper : p.bounds.upper.length = n
  inequalities : p.inequalities.Fits n
  equalities : p.equalities.Fits n

/-- A system about at least one variable that has no entries has no rows. -/
theorem LinearSystem.Fits.eq_empty {s : LinearSystem α} {n : Nat} (h : s.Fits n) (hn : 0 < n)
    (hs : s.hasRows = false) : s = .empty := by
  have hrows : s.rows = [] := by
    rw [List.eq_nil_iff_forall_not_mem]
    -- a row without entries would be one about no variable
    intro row hrow
    have hempty : row = [] := by
      have := List.any_eq_false.1 hs row hrow
      simpa using this
    have hlen := h.length_row row hrow
    rw [hempty, List.length_nil] at hlen
    omega
  have hrhs : s.rhs = [] := by
    rw [← List.length_eq_zero_iff, h.length_rhs, hrows, List.length_nil]
  obtain ⟨rows, rhs⟩ := s
  rw [show rows = [] from hrows, show rhs = [] from hrhs]
  rfl

/-- A system about no variables has rows without entries. -/
theorem LinearSystem.Fits.rows_eq_replicate {s : LinearSystem α} (h : s.Fits 0) :
    s.rows = List.replicate s.rhs.length [] := by
  rw [h.length_rhs, List.eq_replicate_iff]
  exact ⟨rfl, fun row hrow => List.length_eq_zero_iff.1 (h.length_row row hrow)⟩

variable [Scalar α] [Interchange α]

/-! ## The stated problem -/

/-- The function that an objective is; an absent one is zero everywhere. -/
def statedObjective (source : String) (v : Value α) : Except Fault (Evaluator α) :=
  match if v.isAbsent then zeroObjective else v with
  | .function _ _ f => .ok f
  | _ => .error (.invalid .objectiveNotFunction source)

/-- The problem that an input states, with its functions and rows as they were passed. -/
def Input.stated (source : String) (i : Input α) : Except Fault (Problem α) := do
  let objective ← statedObjective source i.objective
  let start ← readStart source i.start
  let inequalities ← LinearSystem.read .inequalities source start.length i.inequalityRows
    i.inequalityRhs
  let equalities ← LinearSystem.read .equalities source start.length i.equalityRows i.equalityRhs
  let bounds ← Bounds.read source start.length i.lower i.upper
  let constraints ← readConstraints source i.constraints
  return { objective := some objective, start, inequalities, equalities, bounds, constraints }

/-- A problem whose functions are behind barriers. -/
def Problem.guarded (source : String) (p : Problem α) : Problem α :=
  { p with
    objective := p.objective.map (Barrier.objective source)
    constraints := p.constraints.map (Barrier.constraints source) }

/-- A problem without its trivial rows. -/
def Problem.withoutTrivialRows (p : Problem α) : Problem α :=
  { p with
    inequalities := (CheckedSystem.ofSystem .inequalities p.inequalities).system
    equalities := (CheckedSystem.ofSystem .equalities p.equalities).system }

/-! ## What is read fits -/

theorem LinearSystem.read_fits {name : SystemName} {source : String} {n : Nat} {a b : Value α}
    {s : LinearSystem α} (h : LinearSystem.read name source n a b = .ok s) : s.Fits n := by
  unfold LinearSystem.read at h
  split at h
  · next rows cols length hshape hlength =>
    split at h
    · next hfits =>
      simp only [bind_eq_ok, pure_eq_ok] at h
      obtain ⟨matrix, hmatrix, rhs, hrhs, rfl⟩ := h
      obtain ⟨hrows, hcols, hempty⟩ := Value.shape_toMatrix hshape hmatrix
      have hlen := Value.length_toVector_of_column hlength hrhs
      constructor
      · show rhs.length = matrix.length
        omega
      · intro row hrow
        rcases hfits.2 with rfl | hzero
        · exact hcols row hrow
        · -- without columns there are no rows
          rw [hempty hzero] at hrow
          cases hrow
    · cases h
  · cases h

theorem Bounds.length_readSide {side : BoundName} {source : String} {n : Nat} {v : Value α}
    {xs : List α} (h : Bounds.readSide side source n v = .ok xs) : xs.length = n := by
  unfold Bounds.readSide at h
  split at h
  · next length hlength =>
    split at h
    · -- a missing side is filled up
      cases h
      simp
    · split at h
      · next hn => exact (Value.length_toVector hlength h).trans hn
      · cases h
  · cases h

theorem Bounds.read_eq_ok {source : String} {n : Nat} {lower upper : Value α} {b : Bounds α}
    (h : Bounds.read source n lower upper = .ok b) : b.lower.length = n ∧ b.upper.length = n := by
  simp only [Bounds.read, bind_eq_ok, pure_eq_ok] at h
  obtain ⟨lo, hlo, hi, hhi, rfl⟩ := h
  exact ⟨length_readSide hlo, length_readSide hhi⟩

/-- A start that was read has an entry. -/
theorem length_readStart_pos {source : String} {v : Value α} {xs : List α}
    (h : readStart source v = .ok xs) : 0 < xs.length := by
  unfold readStart at h
  split at h
  · next length hlength =>
    rw [Value.length_toVector hlength h]
    omega
  · cases h

/-- A stated problem is about at least one variable, and its parts fit. -/
theorem Input.stated_fits {source : String} {i : Input α} {p : Problem α}
    (h : i.stated source = .ok p) : p.Fits p.dimension ∧ 0 < p.dimension := by
  simp only [Input.stated, bind_eq_ok, pure_eq_ok] at h
  obtain ⟨f, -, start, hstart, ineq, hineq, eq, heq, bounds, hbounds, c, -, rfl⟩ := h
  have hb := Bounds.read_eq_ok hbounds
  exact ⟨⟨rfl, hb.1, hb.2, LinearSystem.read_fits hineq, LinearSystem.read_fits heq⟩,
    length_readStart_pos hstart⟩

/-- A stated problem has an objective. -/
theorem Input.stated_objective {source : String} {i : Input α} {p : Problem α}
    (h : i.stated source = .ok p) : p.objective.isSome := by
  simp only [Input.stated, bind_eq_ok, pure_eq_ok] at h
  obtain ⟨f, -, start, -, ineq, -, eq, -, bounds, -, c, -, rfl⟩ := h
  rfl

omit [Interchange α] in
/-- Leaving out trivial rows keeps a system fitting. -/
theorem LinearSystem.Fits.checked {name : SystemName} {s : LinearSystem α} {n : Nat}
    (h : s.Fits n) : (CheckedSystem.ofSystem name s).system.Fits n := by
  have hlen : (Mask.others (List.zipWith name.isTrivial s.rows s.rhs)).length = s.rows.length := by
    simp [h.length_rhs]
  constructor
  · simp only [CheckedSystem.ofSystem]
    rw [Mask.length_select hlen, Mask.length_select (hlen.trans h.length_rhs.symm)]
  · intro row hrow
    exact h.length_row row (Mask.mem_of_mem_select hrow)

omit [Interchange α] in
theorem Problem.Fits.withoutTrivialRows {p : Problem α} {n : Nat} (h : p.Fits n) :
    p.withoutTrivialRows.Fits n :=
  ⟨h.length_start, h.length_lower, h.length_upper, h.inequalities.checked, h.equalities.checked⟩

omit [Interchange α] in
theorem Problem.Fits.guarded {p : Problem α} {n : Nat} {source : String} (h : p.Fits n) :
    (p.guarded source).Fits n :=
  ⟨h.length_start, h.length_lower, h.length_upper, h.inequalities, h.equalities⟩

/-! ## Checking -/

/-- What checking an input says about the problem that it states. -/
structure Checked.Of (source : String) (given : Problem α) (c : Checked α) : Prop where
  problem_eq : c.problem = (given.guarded source).withoutTrivialRows
  facts_eq : Facts.ofConstraints ⟨.ofSystem .inequalities given.inequalities,
    .ofSystem .equalities given.equalities⟩ given.bounds = .ok c.facts
  violation_eq : if c.facts.allFixed then
      (c.problem.violationAt c.facts.fixedValues).map some = .ok c.fixedViolation
    else c.fixedViolation = none

theorem readObjective_yields {source : String} {v : Value α} {view : FunctionView}
    {f : Evaluator α} (h : (readObjective source v).Yields (view, f)) :
    statedObjective source v = .ok f := by
  unfold readObjective at h
  unfold statedObjective
  split at h
  · next habsent =>
    -- the report comes before the zero that takes the place
    obtain ⟨_, -, h⟩ := h.of_bind
    simp only [zeroObjective, pure_bind, Prep.yields_pure, Prod.mk.injEq] at h
    simp [habsent, zeroObjective, h.2]
  · next hpresent =>
    rw [pure_bind] at h
    simp only [hpresent] at h ⊢
    split at h
    · simp only [Prep.yields_pure, Prod.mk.injEq] at h
      simp [h.2]
    · exact absurd h Prep.not_yields_throw

theorem readLinear_yields {source : String} {n : Nat} {i : Input α} {l : LinearConstraints α}
    (h : (readLinear source n i).Yields l) :
    LinearConstraints.read source n i.inequalityRows i.inequalityRhs i.equalityRows i.equalityRhs
      = .ok l := by
  obtain ⟨l', hl, h⟩ := h.of_bind
  obtain rfl := Prep.yields_pure.1 h.of_step
  exact Prep.yields_lift.1 hl

/-- Reading both systems is reading each and flagging its rows. -/
theorem LinearConstraints.read_eq_ok {source : String} {n : Nat}
    {aIneq bIneq aEq bEq : Value α} {l : LinearConstraints α}
    (h : LinearConstraints.read source n aIneq bIneq aEq bEq = .ok l) :
    ∃ ineq eq, LinearSystem.read .inequalities source n aIneq bIneq = .ok ineq ∧
      LinearSystem.read .equalities source n aEq bEq = .ok eq ∧
      l = ⟨.ofSystem .inequalities ineq, .ofSystem .equalities eq⟩ := by
  simp only [LinearConstraints.read, CheckedSystem.read, bind_eq_ok, map_eq_ok, pure_eq_ok] at h
  obtain ⟨_, ⟨ineq, hineq, rfl⟩, _, ⟨eq, heq, rfl⟩, rfl⟩ := h
  exact ⟨ineq, eq, hineq, heq, rfl⟩

/-- Checking yields the stated problem behind barriers and without its trivial rows. -/
theorem check_yields {source : String} {i : Input α} {c : Checked α}
    (h : (check source i).Yields c) :
    ∃ given, i.stated source = .ok given ∧ Checked.Of source given c := by
  -- the parts are read in this order, and each is what the statement of the problem reads
  obtain ⟨⟨view, f⟩, hf, h⟩ := h.of_bind
  obtain ⟨start, hstart, h⟩ := h.of_bind
  obtain ⟨linear, hlinear, h⟩ := h.of_bind
  obtain ⟨bounds, hbounds, h⟩ := h.of_bind
  obtain ⟨facts, hfacts, h⟩ := h.of_bind
  obtain ⟨constraints, hconstraints, h⟩ := h.of_bind
  rw [Prep.yields_lift] at hstart hbounds hfacts hconstraints
  obtain ⟨ineq, eq, hineq, heq, rfl⟩ := LinearConstraints.read_eq_ok (readLinear_yields hlinear)
  refine ⟨⟨some f, start, ineq, eq, bounds, constraints⟩, ?_, ?_⟩
  · simp only [Input.stated, bind_eq_ok, pure_eq_ok]
    exact ⟨f, readObjective_yields hf, start, hstart, ineq, hineq, eq, heq, bounds, hbounds,
      constraints, hconstraints, rfl⟩
  · simp only at h
    split at h
    · next hfixed =>
      obtain ⟨violation?, hsome, h⟩ := h.of_bind
      obtain ⟨violation, hviolation, rfl⟩ := Prep.yields_map hsome
      obtain rfl := Prep.yields_pure.1 h.of_step
      refine ⟨rfl, hfacts, ?_⟩
      rw [if_pos hfixed]
      exact map_eq_ok.2 ⟨violation, Prep.yields_lift.1 hviolation, rfl⟩
    · next hfixed =>
      rw [pure_bind] at h
      obtain rfl := Prep.yields_pure.1 h.of_step
      refine ⟨rfl, hfacts, ?_⟩
      rw [if_neg hfixed]

/-- Reading a stated objective reports whether it is absent. -/
theorem readObjective_eq {source : String} {v : Value α} {f : Evaluator α}
    (h : statedObjective source v = .ok f) : ∃ view, readObjective source v = do
      if v.isAbsent then Prep.report source .noObjective
      return (view, f) := by
  unfold statedObjective at h
  by_cases hv : v.isAbsent = true
  · rw [if_pos hv] at h
    cases h
    refine ⟨⟨"ZeroObjective", none⟩, ?_⟩
    unfold readObjective
    rw [if_pos hv, if_pos hv]
    rfl
  · rw [if_neg hv] at h
    cases v with
    | function view parts? g =>
      cases h
      exact ⟨view, rfl⟩
    | _ => cases h

theorem LinearConstraints.read_of_ok {source : String} {n : Nat} {aIneq bIneq aEq bEq : Value α}
    {ineq eq : LinearSystem α} (hineq : LinearSystem.read .inequalities source n aIneq bIneq = .ok ineq)
    (heq : LinearSystem.read .equalities source n aEq bEq = .ok eq) :
    LinearConstraints.read source n aIneq bIneq aEq bEq
      = .ok ⟨.ofSystem .inequalities ineq, .ofSystem .equalities eq⟩ := by
  simp only [LinearConstraints.read, CheckedSystem.read, hineq, heq]
  rfl

/-- Checking an input that states a problem: nothing can fail but the constraints, where they are called at the
only point that there is. -/
theorem check_eq {source : String} {i : Input α} {p : Problem α} {facts : Facts α}
    (h : i.stated source = .ok p)
    (hfacts : Facts.ofConstraints ⟨.ofSystem .inequalities p.inequalities,
      .ofSystem .equalities p.equalities⟩ p.bounds = .ok facts) :
    check source i = do
      if i.objective.isAbsent then Prep.report source .noObjective
      if facts.trivialInequalities.any id || facts.trivialEqualities.any id then
        Prep.leave (.removedRows (Mask.count facts.trivialInequalities)
          (Mask.count facts.trivialEqualities))
      let q := (p.guarded source).withoutTrivialRows
      let fixedViolation ← if facts.allFixed then some <$> q.violationAt facts.fixedValues else pure none
      if facts.infeasible then Prep.leave .infeasible
      return ⟨q, facts, fixedViolation⟩ := by
  simp only [Input.stated, bind_eq_ok, pure_eq_ok] at h
  obtain ⟨f, hf, start, hstart, ineq, hineq, eq, heq, bounds, hbounds, c, hc, rfl⟩ := h
  obtain ⟨view, hview⟩ := readObjective_eq hf
  have hlinear := LinearConstraints.read_of_ok hineq heq
  have htrivial : facts.trivialInequalities = (CheckedSystem.ofSystem .inequalities ineq).trivial ∧
      facts.trivialEqualities = (CheckedSystem.ofSystem .equalities eq).trivial := by
    simp only [Facts.ofConstraints, bind_eq_ok, pure_eq_ok] at hfacts
    obtain ⟨values, -, rfl⟩ := hfacts
    exact ⟨rfl, rfl⟩
  rw [htrivial.1, htrivial.2]
  dsimp only at hfacts
  simp only [check, hview, readLinear, hstart, hlinear, hbounds, hc, Prep.lift_ok, pure_bind,
    Prep.step_bind, hfacts]
  rfl

end Presolve
