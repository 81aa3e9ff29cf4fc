import Presolve.Proofs.Outcome
import Presolve.Solver.Unresolved

/-!
# Selection for settings and for options

There are two ways to select a solver: for settings, as a preparation does it, and for options of which
some may not be set. On options that hold settings the two agree, in what they return, in how they fail
and in what they write into the journal (`select_toOptions`). Whatever the options hold, selection returns
all but four of them as they were given (`select_keeps`).
-/

namespace Presolve.Unresolved

open Scalar

variable {α : Type} [Scalar α] [Interchange α]

/-! ## Rules -/

/-- With a budget, a condition holds or does not. -/
theorem holds_ok (n : Nat) (budget : Int) (c : Condition) :
    holds n (.ok budget) c = .ok (c.holds n budget) := by
  cases c with
  | smallAndAffordable =>
    unfold holds Condition.holds
    by_cases hn : 2 ≤ n ∧ n ≤ 8
    · rw [if_pos hn]
      exact congrArg Except.ok (decide_eq_decide.2 (by simp [hn]))
    · rw [if_neg hn]
      exact congrArg Except.ok (decide_eq_false fun h => hn ⟨h.1, h.2.1⟩).symm
  | tightBudget | otherwise | always => rfl

/-- With a budget, the first rule is that of the table. -/
theorem matchRule_ok (rules : List SelectionRule) (kind : ProblemKind) (n : Nat) (budget : Int) :
    matchRule kind n (.ok budget) rules = Presolve.matchRule rules kind n budget := by
  induction rules with
  | nil => rfl
  | cons rule rest ih =>
    rw [matchRule, holds_ok, ih]
    unfold Presolve.matchRule SelectionRule.first?
    cases hkind : rule.kind == kind with
    | false => simp [hkind]
    | true =>
      cases hholds : rule.condition.holds n budget <;> simp only [hkind, hholds, List.find?_cons] <;> rfl

/-! ## Options that hold settings -/

variable (s : Settings α)

@[simp] theorem number_rhobeg_toOptions : number s.toOptions .rhobeg = .ok s.rhobeg := rfl

@[simp] theorem number_rhoend_toOptions : number s.toOptions .rhoend = .ok s.rhoend := rfl

@[simp] theorem integer_maxfun_toOptions : integer s.toOptions .maxfun = .ok s.maxfun := rfl

omit [Scalar α] [Interchange α] in
@[simp] theorem solver?_toOptions : solver? s.toOptions = s.solver := by
  unfold solver?
  cases h : s.solver <;> simp [Settings.toOptions, h]

/-- The settings for another solver, as options. -/
theorem adapt_toOptions (solver : Solver) (n : Nat) (bounds : Bounds α) :
    adapt solver n bounds s.toOptions = (s.adapt solver n bounds).map Settings.toOptions := by
  have hnpt : points solver n s.toOptions = .ok ((if solver.takesNpt then
      some (min (2 * (n : Int) + 1) (s.maxfun - 1)) else s.npt).elim .absent .int) := by
    unfold points
    split <;> rfl
  unfold adapt Settings.adapt
  rw [hnpt]
  cases solver.limitsRadius with
  | false =>
    refine congrArg Except.ok (funext fun name => ?_)
    cases name <;> rfl
  | true =>
    cases hwidth : bounds.halfWidth with
    | error f => rfl
    | ok halfWidth =>
      refine congrArg Except.ok (funext fun name => ?_)
      cases name with
      | rhobeg =>
        -- a radius that is neither cut nor raised is the given one
        show (if halfWidth < s.rhobeg ∨ s.rhobeg < epsilon then
          Value.real (larger (smaller s.rhobeg halfWidth) epsilon) else .real s.rhobeg)
          = .real (larger (smaller s.rhobeg halfWidth) epsilon)
        split
        · rfl
        · next hfits =>
          obtain ⟨hcut, hraised⟩ := not_or.1 hfits
          rw [smaller, if_neg hcut, larger, if_neg hraised]
      | _ => rfl

/-- Selection for options that hold settings is selection for these. -/
theorem select_toOptions (rules : List SelectionRule) (kind : ProblemKind) (n : Nat) (bounds : Bounds α)
    (invoker : Invoker) : select rules s.toOptions kind n bounds invoker
      = Settings.toOptions <$> selectSolver rules s kind n bounds invoker := by
  have hchoose : select.choose rules s.toOptions kind n bounds
      = Settings.toOptions <$> selectSolver.choose rules s kind n bounds := by
    unfold select.choose selectSolver.choose
    rw [integer_maxfun_toOptions, matchRule_ok, map_bind]
    refine bind_congr fun rule => ?_
    split
    · rfl
    · rw [map_bind]
      refine bind_congr fun _ => ?_
      rw [adapt_toOptions]
      cases s.adapt rule.solver n bounds <;> rfl
  unfold select selectSolver
  rw [solver?_toOptions]
  by_cases hinvoker : invoker = .frontEnd
  · simp only [hinvoker, ne_eq, not_true_eq_false, if_false]
    cases s.solver with
    | none => exact hchoose
    | some solver =>
      dsimp only
      split
      · rfl
      · rw [map_bind, hchoose]
  · simp only [hinvoker, ne_eq, not_false_eq_true, if_true]
    rfl

/-! ## Options that selection does not change -/

/-- The options that selection may change. -/
def changed : List OptionName := [.npt, .rhobeg, .rhoend, .solver]

variable {rules : List SelectionRule} {fields fields' : OptionName → Value α} {kind : ProblemKind} {n : Nat}
  {bounds : Bounds α} {invoker : Invoker} {name : OptionName}

theorem adapt_keeps {solver : Solver} (h : adapt solver n bounds fields = .ok fields')
    (hname : name ∉ changed) : fields' name = fields name := by
  obtain ⟨npt, -, h⟩ := bind_eq_ok.1 h
  split at h
  · obtain ⟨halfWidth, -, h⟩ := bind_eq_ok.1 h
    obtain ⟨rhobeg, -, h⟩ := bind_eq_ok.1 h
    obtain ⟨rhoend, -, h⟩ := bind_eq_ok.1 h
    cases h
    cases name <;> first | rfl | exact absurd (by decide) hname
  · cases h
    cases name <;> first | rfl | exact absurd (by decide) hname

/-- An option that selection does not change is returned as it was given, set or not. -/
theorem select_keeps (h : (select rules fields kind n bounds invoker).Yields fields')
    (hname : name ∉ changed) : fields' name = fields name := by
  have hchoose {e : Option Category} {j k : Journal α}
      (h : (select.choose rules fields kind n bounds).outcome e j = (.ok fields', k)) :
      fields' name = fields name := by
    obtain ⟨rule, l, -, h⟩ := Prep.outcome_bind_eq_ok.1 h
    obtain ⟨-, h⟩ := Prep.outcome_of_guard h
    obtain ⟨_, l', -, h⟩ := Prep.outcome_bind_eq_ok.1 h
    rw [Prep.outcome_lift, Prod.mk.injEq] at h
    exact adapt_keeps h.1 hname
  obtain ⟨e, j, k, h⟩ := h
  unfold select at h
  replace h := (Prep.outcome_of_guard h).2
  split at h
  · split at h
    · obtain ⟨_, l, -, h⟩ := Prep.outcome_bind_eq_ok.1 h
      rw [Prep.outcome_pure, Prod.mk.injEq] at h
      cases h.1
      rfl
    · obtain ⟨_, l, -, h⟩ := Prep.outcome_bind_eq_ok.1 h
      exact hchoose h
  · exact hchoose h

end Presolve.Unresolved
