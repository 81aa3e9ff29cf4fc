import Presolve.Proofs.Preparation.Dictionaries
import Presolve.Proofs.Preparation.Safety
import Presolve.Proofs.Solver.Budget
import Presolve.Proofs.Solver.Decision
import Presolve.Proofs.Solver.Radii
import Presolve.Proofs.Solver.Readable

/-!
# Answers to options

Every option is in one of three states: it is not set, set to something valid, or set to something else.
A `Rule` says for one option what it takes by default, which values it accepts and as what, and what it
takes in place of others. Resolution answers each option by its rule, and it says so exactly where a value
is not accepted, once, by the tag of the rule; keys that name no option are named in one diagnostic and have
no effect otherwise.

The rules depend on each other in one direction only: points on the solver, the budget on the points, the
first radius on the last one that is asked for, the last one on the first one that is resolved, and the
check of function values on the debug mode.
-/

namespace Presolve

open Scalar

variable {α β γ : Type}

/-! ## Results with their reports -/

namespace Prep

/-- Where no warning is escalated, the preparation results in `b` and adds these anomalies to the log. -/
def Results (source : String) (p : Prep α β) (b : β) (added : List (Anomaly α)) : Prop :=
  ∀ j, ∃ k, p.outcome none j = (.ok b, k) ∧
    k.log.entries = j.log.entries ++ added.map (Diagnostic.mk source)

namespace Results

variable {source : String} {p : Prep α β} {f : β → Prep α γ} {b : β} {c : γ}
  {added more : List (Anomaly α)}

theorem pure (b : β) : Results source (pure b : Prep α β) b [] := fun j => ⟨j, rfl, by simp⟩

theorem yields (h : p.Results source b added) : p.Yields b :=
  let ⟨k, hk, _⟩ := h {}
  ⟨none, {}, k, hk⟩

theorem lift {x : Except Fault β} (h : x = .ok b) : Results source (liftM x : Prep α β) b [] := by
  rw [h]
  exact pure b

theorem report [Interchange α] (a : Anomaly α) : Results source (Prep.report source a) () [a] :=
  fun j => ⟨((Prep.report source a).outcome none j).2, rfl, entries_report source a⟩

theorem bind (hp : p.Results source b added) (hf : (f b).Results source c more) :
    (p >>= f).Results source c (added ++ more) := by
  intro j
  obtain ⟨k, hk, hadded⟩ := hp j
  obtain ⟨l, hl, hmore⟩ := hf k
  refine ⟨l, outcome_bind_eq_ok.2 ⟨b, k, hk, hl⟩, ?_⟩
  rw [hmore, hadded, List.map_append, List.append_assoc]

/-- A step without reports is not seen in the log. -/
theorem bind_of_ok {x : Except Fault β} (h : x = .ok b) (hf : (f b).Results source c more) :
    ((liftM x : Prep α β) >>= f).Results source c more := (lift h).bind hf

/-- A report and then a result. -/
theorem report_bind [Interchange α] {g : Unit → Prep α γ} {a : Anomaly α}
    (hg : (g ()).Results source c more) : (Prep.report source a >>= g).Results source c (a :: more) :=
  (report a).bind hg

/-- A report that is made only sometimes. -/
theorem report_step [Interchange α] {d : Prop} [Decidable d] {a : Anomaly α} {g : Unit → Prep α γ}
    (hg : (g ()).Results source c more) :
    (if d then Prep.report source a >>= g else g ()).Results source c
      ((if d then [a] else []) ++ more) := by
  split
  · exact report_bind hg
  · exact hg

end Results

end Prep

/-! ## Rules -/

/-- What an option takes. -/
structure Rule (α β : Type) where
  /-- What is taken if the option is not set. -/
  default : β
  /-- What a value is accepted as. -/
  accepts : Value α → Option β
  /-- What is taken in place of a value that is not accepted. -/
  replacement : Value α → β
  /-- What is reported about a value that is not accepted. -/
  complaint : Value α → Anomaly α
  /-- The tag of all reports about the option. -/
  tag : String
  tag_complaint : ∀ v, (complaint v).tag = tag

/-- An option with this value, if it is set, is answered by a rule with a result and with anomalies. -/
structure Rule.Answers (rule : Rule α β) (value? : Option (Value α)) (result : β)
    (added : List (Anomaly α)) : Prop where
  unset : value? = none → result = rule.default ∧ added = []
  valid : ∀ v b, value? = some v → rule.accepts v = some b → result = b ∧ added = []
  invalid : ∀ v, value? = some v → rule.accepts v = none →
    result = rule.replacement v ∧ added = [rule.complaint v]

namespace Rule

variable {rule : Rule α β} {v : Value α} {b : β} {added : List (Anomaly α)}

theorem answers_none : rule.Answers none rule.default [] where
  unset _ := ⟨rfl, rfl⟩
  valid v b h := by cases h
  invalid v h := by cases h

theorem answers_valid (h : rule.accepts v = some b) : rule.Answers (some v) b [] where
  unset h := by cases h
  valid w c hw hc := by
    cases hw
    exact ⟨Option.some.inj (h.symm.trans hc), rfl⟩
  invalid w hw hnone := by
    cases hw
    rw [h] at hnone
    cases hnone

theorem answers_invalid (h : rule.accepts v = none) :
    rule.Answers (some v) (rule.replacement v) [rule.complaint v] where
  unset h := by cases h
  valid w c hw hc := by
    cases hw
    rw [h] at hc
    cases hc
  invalid w hw _ := by
    cases hw
    exact ⟨rfl, rfl⟩

/-- An option is answered in one of three ways. -/
theorem Answers.cases {value? : Option (Value α)} (h : rule.Answers value? b added) :
    (value? = none ∧ b = rule.default ∧ added = []) ∨
    (∃ v, value? = some v ∧ rule.accepts v = some b ∧ added = []) ∨
    ∃ v, value? = some v ∧ rule.accepts v = none ∧ b = rule.replacement v ∧
      added = [rule.complaint v] := by
  cases value? with
  | none => exact .inl ⟨rfl, h.unset rfl⟩
  | some v =>
    cases haccepts : rule.accepts v with
    | some b' =>
      obtain ⟨rfl, hadded⟩ := h.valid v b' rfl haccepts
      exact .inr (.inl ⟨v, rfl, haccepts, hadded⟩)
    | none => exact .inr (.inr ⟨v, rfl, haccepts, h.invalid v rfl haccepts⟩)

/-- All anomalies about an option have the tag of its rule. -/
theorem Answers.forall_tag {value? : Option (Value α)} (h : rule.Answers value? b added) :
    ∀ a ∈ added, a.tag = rule.tag := by
  intro a ha
  rcases h.cases with ⟨-, -, rfl⟩ | ⟨v, -, -, rfl⟩ | ⟨v, -, -, -, rfl⟩
  · cases ha
  · cases ha
  · rw [List.mem_singleton.1 ha, rule.tag_complaint]

/-- The value of an option determines the answer. -/
theorem Answers.unique {value? : Option (Value α)} {b' : β} {added' : List (Anomaly α)}
    (h : rule.Answers value? b added) (h' : rule.Answers value? b' added') :
    b = b' ∧ added = added' := by
  rcases h.cases with ⟨rfl, rfl, rfl⟩ | ⟨v, rfl, haccepts, rfl⟩ | ⟨v, rfl, haccepts, rfl, rfl⟩
  · obtain ⟨rfl, rfl⟩ := h'.unset rfl
    exact ⟨rfl, rfl⟩
  · obtain ⟨rfl, rfl⟩ := h'.valid v b rfl haccepts
    exact ⟨rfl, rfl⟩
  · obtain ⟨rfl, rfl⟩ := h'.invalid v rfl haccepts
    exact ⟨rfl, rfl⟩

end Rule

/-! ## Values -/

variable [Scalar α] [Interchange α]

namespace Value

/-- The number, the integer or the flag that a value is, if any. -/
def real? (v : Value α) : Option α := v.realScalar?.toOption.join

@[inherit_doc real?]
def whole? (v : Value α) : Option Int := v.integerScalar?.toOption.join

@[inherit_doc real?]
def truth? (v : Value α) : Option Bool := v.flag?.toOption.join

end Value

namespace Resolution

/-! ## The rules of the options -/

/-- The solver that the front end is asked for: one of the known names, in upper or lower case, or the name
of the front end, which stands for none. -/
def choiceRule : Rule α (Option Solver) where
  default := none
  accepts v :=
    if (requestedName v).toLower = Invoker.frontEnd.name then some none
    else (Solver.parse? (requestedName v)).map some
  replacement _ := none
  complaint _ := .unknownSolver
  tag := "UnknownSolver"
  tag_complaint _ := rfl

/-- The solver that a solver is asked for: itself. -/
def ownRule (own : Solver) : Rule α (Option Solver) where
  default := some own
  accepts v := if Solver.parse? (requestedName v) = some own then some (some own) else none
  replacement _ := some own
  complaint _ := .foreignSolver
  tag := "InvalidSolver"
  tag_complaint _ := rfl

/-- The solver that an invoker is asked for. -/
def solverRule : Invoker → Rule α (Option Solver)
  | .frontEnd => choiceRule
  | .solver own => ownRule own

/-- The number of points of a solver that has the option: an integer between those of a model that is more
than linear and of a full quadratic model. -/
def nptRule (n : Nat) (solver : Solver) : Rule α (Option Int) where
  default := some (solver.defaultNpt n)
  accepts v :=
    (v.whole?.filter fun m => (n : Int) + 2 ≤ m ∧ m ≤ Solver.fullQuadratic n).map some
  replacement _ := some (solver.defaultNpt n)
  complaint _ := .invalidNpt solver
  tag := "InvalidNpt"
  tag_complaint _ := rfl

/-- The budget that is taken without a valid one. -/
def fallbackBudget (n : Nat) (npt : Option Int) : Int :=
  npt.elim (defaultBudget n) fun m => max (defaultBudget n) (m + 1)

/-- The report about a budget below the least one. -/
def belowBudget (s? : Option Solver) : Anomaly α := s?.elim .smallBudget .budgetBelow

/-- The budget: a positive integer beyond the number of points, or two beyond the number of variables while
there is no solver. -/
def maxfunRule (n : Nat) (s? : Option Solver) (npt : Option Int) : Rule α Int where
  default := fallbackBudget n npt
  accepts v := v.whole?.filter fun m => 0 < m ∧ leastBudget n npt ≤ m
  replacement v := if v.whole?.any (0 < ·) then leastBudget n npt else fallbackBudget n npt
  complaint v := if v.whole?.any (0 < ·) then belowBudget s? else .invalidBudget (defaultBudget n)
  tag := "InvalidMaxfun"
  tag_complaint v := by cases s? <;> simp only [belowBudget, Option.elim] <;> split <;> rfl

/-- The first radius that is taken without a positive one: the default, raised to a last radius that is
asked for and to `epsilon`. -/
def fallbackRadius (default : α) (last? : Option α) : α :=
  larger (last?.elim default (larger default)) epsilon

/-- The first radius: a positive number within the limit of the solver, if there is one. It is raised to
`epsilon`. -/
def rhobegRule (default : α) (last? : Option α) (limit? : Option (Solver × α)) : Rule α α where
  default := fallbackRadius default last?
  accepts v :=
    (v.real?.filter fun x => 0 < x ∧ ¬limit?.any (·.2 < x)).map (larger · epsilon)
  replacement v :=
    if v.real?.any (0 < ·) then
      limit?.elim (fallbackRadius default last?) fun limit => larger limit.2 epsilon
    else fallbackRadius default last?
  complaint v :=
    if v.real?.any (0 < ·) then limit?.elim (.invalidRhobeg default) fun limit => .wideRhobeg limit.1
    else .invalidRhobeg default
  tag := "InvalidRhobeg"
  tag_complaint v := by cases limit? <;> simp only [Option.elim] <;> split <;> rfl

/-- The last radius: a number that is at most the first one. It is raised to `epsilon`. What is taken
otherwise is in proportion to the first one. -/
def rhoendRule (first ratio : α) : Rule α α where
  default := larger (ratio * first) epsilon
  accepts v := (v.real?.filter (· ≤ first)).map (larger · epsilon)
  replacement _ := larger (ratio * first) epsilon
  complaint _ := .invalidRhoend ratio
  tag := "InvalidRhoend"
  tag_complaint _ := rfl

/-- The target: any number. -/
def ftargetRule : Rule α α where
  default := -infinity
  accepts v := v.real?
  replacement _ := -infinity
  complaint _ := .invalidFtarget
  tag := "InvalidFtarget"
  tag_complaint _ := rfl

/-- A flag: a truth value, or the number zero or one. -/
def flagRule (name : FlagName) : Rule α Bool where
  default := name.default
  accepts v := v.truth?
  replacement _ := name.default
  complaint _ := .invalidFlag name
  tag := name.tag
  tag_complaint _ := rfl

/-- The check of function values: a flag, which may be raised only in debug mode. -/
def chkfunvalRule (debug : Bool) : Rule α Bool where
  default := false
  accepts v := v.truth?.filter fun b => debug || !b
  replacement _ := false
  complaint v := if v.truth?.isSome then .checkWithoutDebug else .invalidCheck
  tag := "InvalidChkfunval"
  tag_complaint v := by split <;> rfl

/-! ## The steps of a resolution -/

variable {c : Context α}

theorem Context.Reads.exists_whole {name : OptionName} (h : c.Reads name) {v : Value α}
    (hv : c.find? name = some v) : ∃ m?, v.integerScalar? = .ok m? ∧ v.whole? = m? := by
  obtain ⟨x?, hx⟩ := h v hv
  obtain ⟨m?, hm⟩ := Value.exists_integerScalar? hx
  exact ⟨m?, hm, by rw [Value.whole?, hm]; cases m? <;> rfl⟩

theorem Context.Reads.exists_real {name : OptionName} (h : c.Reads name) {v : Value α}
    (hv : c.find? name = some v) : ∃ x?, v.realScalar? = .ok x? ∧ v.real? = x? := by
  obtain ⟨x?, hx⟩ := h v hv
  exact ⟨x?, hx, by rw [Value.real?, hx]; cases x? <;> rfl⟩

theorem Context.Reads.exists_truth {name : OptionName} (h : c.Reads name) {v : Value α}
    (hv : c.find? name = some v) : ∃ b?, v.flag? = .ok b? ∧ v.truth? = b? := by
  obtain ⟨x?, hx⟩ := h v hv
  obtain ⟨b?, hb⟩ := Value.exists_flag? hx
  exact ⟨b?, hb, by rw [Value.truth?, hb]; cases b? <;> rfl⟩

/-- A step answers the option of a value by a rule. -/
def Answered (c : Context α) (p : Prep α β) (rule : Rule α β) (value? : Option (Value α)) : Prop :=
  ∃ b added, p.Results c.invoker.name b added ∧ rule.Answers value? b added

namespace Answered

variable {rule : Rule α β} {value? : Option (Value α)} {v : Value α} {b : β}

omit [Scalar α] [Interchange α] in
theorem of_unset (rule : Rule α β) : Answered c (pure rule.default) rule none :=
  ⟨rule.default, [], .pure _, Rule.answers_none⟩

omit [Scalar α] [Interchange α] in
theorem of_valid (h : rule.accepts v = some b) : Answered c (pure b) rule (some v) :=
  ⟨b, [], .pure b, Rule.answers_valid h⟩

omit [Scalar α] in
/-- A value that is not accepted is reported and replaced. -/
theorem of_invalid {a : Anomaly α} {g : Unit → Prep α β} (h : rule.accepts v = none)
    (ha : rule.complaint v = a) (hg : (g ()).Results c.invoker.name (rule.replacement v) []) :
    Answered c (c.report a >>= g) rule (some v) :=
  ⟨rule.replacement v, [rule.complaint v], ha ▸ .report_bind hg, Rule.answers_invalid h⟩

omit [Scalar α] [Interchange α] in
/-- What is read on the way is not seen in the answer. -/
theorem of_read {x : Except Fault γ} {y : γ} {f : γ → Prep α β} (hx : x = .ok y)
    (h : Answered c (f y) rule value?) : Answered c ((liftM x : Prep α γ) >>= f) rule value? := by
  obtain ⟨b, added, hresults, hanswers⟩ := h
  exact ⟨b, added, .bind_of_ok hx hresults, hanswers⟩

end Answered

/-! ### The solver -/

omit [Scalar α] [Interchange α] in
/-- The front end is no solver. -/
theorem parse?_frontEnd {name : String} (h : name.toLower = Invoker.frontEnd.name) :
    Solver.parse? name = none := by
  rw [Option.eq_none_iff_forall_ne_some]
  intro s hs
  rw [Solver.parse?_eq_some, h] at hs
  cases s <;> exact absurd hs (by decide)

omit [Scalar α] in
theorem solver_answered_choice (hinvoker : c.invoker = .frontEnd) :
    Answered c (solver c) choiceRule (c.find? .solver) := by
  unfold solver
  rw [hinvoker]
  cases hfound : c.find? .solver with
  | none => exact .of_unset choiceRule
  | some v =>
    simp only
    by_cases hfront : (requestedName v).toLower = Invoker.frontEnd.name
    · have haccepts : choiceRule.accepts v = some none := if_pos hfront
      rw [parse?_frontEnd hfront, if_neg (by simp [hfront])]
      exact .of_valid haccepts
    · have haccepts : choiceRule.accepts v = (Solver.parse? (requestedName v)).map some :=
        if_neg hfront
      cases hparse : Solver.parse? (requestedName v) with
      | some s =>
        rw [hparse] at haccepts
        exact .of_valid haccepts
      | none =>
        rw [hparse] at haccepts
        have hreport : (Option.isNone (none : Option Solver)
            && (requestedName v).toLower != Invoker.frontEnd.name) = true := by
          simp [hfront]
        rw [if_pos hreport]
        exact .of_invalid haccepts rfl (.pure none)

omit [Scalar α] in
theorem solver_answered_own {own : Solver} (hinvoker : c.invoker = .solver own) :
    Answered c (solver c) (ownRule own) (c.find? .solver) := by
  unfold solver
  rw [hinvoker]
  cases hfound : c.find? .solver with
  | none => exact .of_unset (ownRule own)
  | some v =>
    simp only
    by_cases hown : Solver.parse? (requestedName v) = some own
    · have haccepts : (ownRule own).accepts v = some (some own) := if_pos hown
      rw [if_neg (not_not.2 hown)]
      exact .of_valid haccepts
    · have haccepts : (ownRule own).accepts v = none := if_neg hown
      rw [if_pos hown]
      exact .of_invalid haccepts rfl (.pure _)

omit [Scalar α] in
theorem solver_answered (c : Context α) :
    Answered c (solver c) (solverRule c.invoker) (c.find? .solver) := by
  cases hinvoker : c.invoker with
  | frontEnd => exact solver_answered_choice hinvoker
  | solver own => exact solver_answered_own hinvoker

/-! ### Points and budget -/

theorem npt_answered {solver : Solver} (h : c.Reads .npt) (htakes : solver.takesNpt = true) :
    Answered c (npt c (some solver)) (nptRule c.n solver) (c.find? .npt) := by
  simp only [npt]
  cases hfound : c.find? .npt with
  | none => exact .of_unset (nptRule c.n solver)
  | some v =>
    obtain ⟨m?, hm, hwhole⟩ := h.exists_whole hfound
    simp only [htakes]
    refine .of_read hm ?_
    cases m? with
    | none => exact .of_invalid (by simp [nptRule, hwhole]) rfl (.pure _)
    | some m =>
      simp only
      by_cases hrange : (c.n : Int) + 2 ≤ m ∧ m ≤ Solver.fullQuadratic c.n
      · rw [if_pos hrange]
        exact .of_valid (by simp [nptRule, hwhole, hrange])
      · have haccepts : (nptRule c.n solver).accepts v = none := by
          simp only [nptRule, hwhole, Option.map_eq_none_iff, Option.filter_eq_none_iff]
          simpa using hrange
        rw [if_neg hrange]
        exact .of_invalid haccepts rfl (.pure _)

omit [Scalar α] in
/-- A solver without the option, and no solver, have no choice of points. -/
theorem npt_results [Scalar α] {s? : Option Solver} (h : s?.any Solver.takesNpt = false) :
    (npt c s?).Results c.invoker.name (s?.map fun s => (s.defaultNpt c.n : Int)) [] := by
  cases s? with
  | none => exact .pure none
  | some s =>
    have htakes : s.takesNpt = false := h
    simp only [npt, htakes]
    cases c.find? .npt <;> exact .pure _

/-- A positive budget is accepted unless it is below the least one. -/
theorem Answered.of_budget {s? : Option Solver} {npt : Option Int} {v : Value α} {m : Int}
    (hv : v.whole? = some m) (hpos : 0 < m) {p : Prep α Int}
    (hshort : m < leastBudget c.n npt →
      p = c.report (belowBudget s?) >>= fun _ => pure (leastBudget c.n npt))
    (henough : leastBudget c.n npt ≤ m → p = pure m) :
    Answered c p (maxfunRule c.n s? npt) (some v) := by
  rcases Int.lt_or_le m (leastBudget c.n npt) with hless | hle
  · have hreplacement : (maxfunRule c.n s? npt).replacement v = leastBudget c.n npt := by
      simp [maxfunRule, hv, hpos]
    rw [hshort hless, ← hreplacement]
    exact .of_invalid (by simp [maxfunRule, hv, hless]) (by simp [maxfunRule, hv, hpos]) (.pure _)
  · rw [henough hle]
    exact .of_valid (by simp [maxfunRule, hv, hpos, hle])

/-- What is no positive integer is replaced by the default budget. -/
theorem Answered.of_noBudget (s? : Option Solver) (npt : Option Int) {v : Value α}
    (hv : v.whole?.any (0 < ·) = false) :
    Answered c (c.report (.invalidBudget (defaultBudget c.n)) >>= fun _ =>
      pure (fallbackBudget c.n npt)) (maxfunRule c.n s? npt) (some v) := by
  have hreplacement : (maxfunRule c.n s? npt).replacement v = fallbackBudget c.n npt := by
    simp [maxfunRule, hv]
  rw [← hreplacement]
  refine .of_invalid ?_ (by simp [maxfunRule, hv]) (.pure _)
  cases hwhole : v.whole? with
  | none => simp [maxfunRule, hwhole]
  | some m =>
    have hpos : ¬0 < m := by simpa [hwhole] using hv
    simp [maxfunRule, hwhole, hpos]

theorem maxfun_answered (s? : Option Solver) (npt : Option Int) (h : c.Reads .maxfun)
    (hnone : s? = none ↔ npt = none) :
    Answered c (maxfun c s? npt) (maxfunRule c.n s? npt) (c.find? .maxfun) := by
  simp only [maxfun]
  cases hfound : c.find? .maxfun with
  | none =>
    cases npt with
    | none => exact .of_unset (maxfunRule c.n s? none)
    | some k => exact .of_unset (maxfunRule c.n s? (some k))
  | some v =>
    obtain ⟨m?, hm, hwhole⟩ := h.exists_whole hfound
    refine .of_read hm ?_
    have hinvalid (hnot : m?.any (0 < ·) = false) := Answered.of_noBudget (c := c) s? npt
      (hwhole ▸ hnot : v.whole?.any (0 < ·) = false)
    cases m? with
    | none => cases npt <;> exact hinvalid rfl
    | some m =>
      simp only
      by_cases hpos : m ≤ 0
      · rw [if_pos hpos]
        cases npt <;> exact hinvalid (by simpa using hpos)
      · rw [if_neg hpos]
        -- without a solver there are no points, and with one there are
        cases s? with
        | none =>
          obtain rfl := hnone.1 rfl
          exact .of_budget hwhole (not_le.1 hpos)
            (fun hless => if_pos (by simp only [leastBudget, Option.elim] at hless; omega))
            (fun hle => if_neg (by simp only [leastBudget, Option.elim] at hle; omega))
        | some s =>
          obtain ⟨k, rfl⟩ := Option.ne_none_iff_exists'.1 (mt hnone.2 (Option.some_ne_none s))
          exact .of_budget hwhole (not_le.1 hpos)
            (fun hless => if_pos (by simp only [leastBudget, Option.elim] at hless; omega))
            (fun hle => if_neg (by simp only [leastBudget, Option.elim] at hle; omega))

/-! ### Radii -/

theorem fallbackRhobeg_eq_of_reads (default : α) (h : c.Reads .rhoend) :
    fallbackRhobeg c default = .ok ((c.number? .rhoend).elim default (larger default)) := by
  obtain ⟨r, hr⟩ : ∃ r, fallbackRhobeg c default = .ok r := exists_fallbackRhobeg h
  rw [hr, fallbackRhobeg_eq_ok hr]

/-- A positive number is accepted as the first radius unless it exceeds the limit. -/
theorem Answered.of_radius {default x : α} {last? : Option α} {limit? : Option (Solver × α)}
    {v : Value α} (hv : v.real? = some x) (hpos : 0 < x) {p : Prep α α}
    (hwide : ∀ limit, limit? = some limit → limit.2 < x →
      p = c.report (.wideRhobeg limit.1) >>= fun _ => pure (larger limit.2 epsilon))
    (hfits : (∀ limit, limit? = some limit → ¬limit.2 < x) → p = pure (larger x epsilon)) :
    Answered c p (rhobegRule default last? limit?) (some v) := by
  by_cases hexceeds : ∃ limit, limit? = some limit ∧ limit.2 < x
  · obtain ⟨limit, rfl, hless⟩ := hexceeds
    have hreplacement : (rhobegRule default last? (some limit)).replacement v
        = larger limit.2 epsilon := by
      simp [rhobegRule, hv, hpos]
    rw [hwide limit rfl hless, ← hreplacement]
    exact .of_invalid (by simp [rhobegRule, hv, hless]) (by simp [rhobegRule, hv, hpos]) (.pure _)
  · have hnot : ∀ limit, limit? = some limit → ¬limit.2 < x :=
      fun limit hlimit hless => hexceeds ⟨limit, hlimit, hless⟩
    rw [hfits hnot]
    refine .of_valid ?_
    cases limit? with
    | none => simp [rhobegRule, hv, hpos]
    | some limit => simp [rhobegRule, hv, hpos, hnot limit rfl]

/-- The limit for the first radius, with the solver that has it. -/
def radiusLimit? (s? : Option Solver) (halfWidth : α) : Option (Solver × α) :=
  (s?.filter Solver.limitsRadius).map (·, halfWidth)

theorem rhobeg_answered (s? : Option Solver) (default : α) {halfWidth : α}
    (hfirst : c.Reads .rhobeg) (hlast : c.Reads .rhoend) (hwidth : c.bounds.halfWidth = .ok halfWidth) :
    Answered c (rhobeg c s? default)
      (rhobegRule default (c.number? .rhoend) (radiusLimit? s? halfWidth)) (c.find? .rhobeg) := by
  have hfallback := fallbackRhobeg_eq_of_reads default hlast
  refine .of_read hwidth ?_
  cases hfound : c.find? .rhobeg with
  | none => exact .of_read hfallback (.of_unset (rhobegRule default _ _))
  | some v =>
    obtain ⟨x?, hx, hreal⟩ := hfirst.exists_real hfound
    refine .of_read hx ?_
    cases hvalid : x?.filter fun x => decide (0 < x) with
    | none =>
      have hnot : v.real?.any (0 < ·) = false := by
        rw [hreal]
        cases x? with
        | none => rfl
        | some x => simpa using hvalid
      refine .of_invalid ?_ (by simp [rhobegRule, hnot]) (.bind_of_ok hfallback ?_)
      · cases x? with
        | none => simp [rhobegRule, hreal]
        | some x =>
          have hpos : ¬0 < x := by simpa using hvalid
          simp [rhobegRule, hreal, hpos]
      · have hreplacement (limit? : Option (Solver × α)) {last? : Option α} :
            (rhobegRule default last? limit?).replacement v = fallbackRadius default last? := by
          simp [rhobegRule, hnot]
        rw [hreplacement]
        exact .pure _
    | some x =>
      obtain ⟨hx?, hpos⟩ := Option.filter_eq_some_iff.1 hvalid
      refine .of_radius (hreal.trans hx?) (of_decide_eq_true hpos) ?_ ?_
      · intro limit hlimit hless
        obtain ⟨s, hs, rfl⟩ := Option.map_eq_some_iff.1 hlimit
        simp only [hs, if_pos hless]
        rfl
      · intro hnot
        cases hs : s?.filter Solver.limitsRadius with
        | none => rfl
        | some s =>
          have hfits : ¬halfWidth < x := hnot (s, halfWidth) (by rw [radiusLimit?, hs]; rfl)
          simp only [if_neg hfits]
          rfl

theorem rhoend_answered (first ratio : α) (h : c.Reads .rhoend) :
    Answered c (rhoend c first ratio) (rhoendRule first ratio) (c.find? .rhoend) := by
  unfold rhoend
  cases hfound : c.find? .rhoend with
  | none => exact .of_unset (rhoendRule first ratio)
  | some v =>
    obtain ⟨x?, hx, hreal⟩ := h.exists_real hfound
    refine .of_read hx ?_
    cases hvalid : x?.filter fun x => decide (x ≤ first) with
    | some x =>
      refine .of_valid ?_
      simp only [rhoendRule, hreal, hvalid, Option.map_some]
    | none =>
      refine .of_invalid ?_ rfl (.pure _)
      simp only [rhoendRule, hreal, hvalid, Option.map_none]

/-! ### Target and flags -/

theorem ftarget_answered (h : c.Reads .ftarget) :
    Answered c (ftarget c) ftargetRule (c.find? .ftarget) := by
  unfold ftarget
  cases hfound : c.find? .ftarget with
  | none => exact .of_unset ftargetRule
  | some v =>
    obtain ⟨x?, hx, hreal⟩ := h.exists_real hfound
    refine .of_read hx ?_
    cases x? with
    | some x => exact .of_valid hreal
    | none => exact .of_invalid hreal rfl (.pure _)

theorem flag_answered (name : FlagName) (h : c.Reads name.option) :
    Answered c (flag c name) (flagRule name) (c.find? name.option) := by
  unfold flag
  cases hfound : c.find? name.option with
  | none => exact .of_unset (flagRule name)
  | some v =>
    obtain ⟨b?, hb, htruth⟩ := h.exists_truth hfound
    refine .of_read hb ?_
    cases b? with
    | some b => exact .of_valid htruth
    | none => exact .of_invalid htruth rfl (.pure _)

theorem chkfunval_answered (debug : Bool) (h : c.Reads .chkfunval) :
    Answered c (chkfunval c debug) (chkfunvalRule debug) (c.find? .chkfunval) := by
  unfold chkfunval
  cases hfound : c.find? .chkfunval with
  | none => exact .of_unset (chkfunvalRule debug)
  | some v =>
    obtain ⟨b?, hb, htruth⟩ := h.exists_truth hfound
    refine .of_read hb ?_
    cases b? with
    | none =>
      exact .of_invalid (by simp [chkfunvalRule, htruth]) (by simp [chkfunvalRule, htruth]) (.pure _)
    | some b =>
      simp only
      by_cases hraised : (b && !debug) = true
      · have haccepts : (chkfunvalRule debug).accepts v = none := by
          simp only [chkfunvalRule, htruth]
          revert hraised
          cases b <;> cases debug <;> simp
        rw [if_pos hraised]
        exact .of_invalid haccepts (by simp [chkfunvalRule, htruth]) (.pure _)
      · rw [if_neg hraised]
        refine .of_valid ?_
        simp only [chkfunvalRule, htruth]
        revert hraised
        cases b <;> cases debug <;> simp

/-! ## Unknown options -/

/-- The texts of the keys that name no option of the solver. -/
def Context.unknownTexts (c : Context α) (s? : Option Solver) : List Text :=
  c.entries.unknown (OptionName.isKeyOf s?)

/-- What is reported about these texts: nothing if there are none, or else all of them in order. -/
def unknownReport (texts : List Text) : List (Anomaly α) :=
  if texts.isEmpty then [] else [.unknownOptions (texts.mergeSort fun a b => decide (a ≤ b))]

omit [Scalar α] [Interchange α] in
theorem tag_of_mem_unknownReport (texts : List Text) :
    ∀ a ∈ (unknownReport texts : List (Anomaly α)), a.tag = "UnknownOption" := by
  intro a ha
  unfold unknownReport at ha
  split at ha
  · cases ha
  · rw [List.mem_singleton.1 ha]
    rfl

omit [Scalar α] in
theorem checkUnknown_results (h : c.entries.IsDictionary) (s? : Option Solver) :
    (checkUnknown c s?).Results c.invoker.name () (unknownReport (c.unknownTexts s?)) := by
  rw [checkUnknown_eq h, unknownReport]
  show (if !(c.unknownTexts s?).isEmpty then Prep.report c.invoker.name _ else pure ()).Results _ _ _
  cases (c.unknownTexts s?).isEmpty with
  | true => exact .pure ()
  | false => exact .report _

/-- A context without the options that a solver does not have. -/
def Context.withoutUnknown (c : Context α) (s? : Option Solver) : Context α :=
  { c with entries := c.entries.filter fun entry => isKnown s? entry.1 }

omit [Scalar α] [Interchange α] in
theorem Context.find?_withoutUnknown {s? : Option Solver} {name : OptionName}
    (h : name ∈ OptionName.known s?) : (c.withoutUnknown s?).find? name = c.find? name := by
  show Value.lookup? name.key (c.entries.filter fun entry => isKnown s? entry.1) = _
  have hknown (entry : Value α × Value α) (htext : entry.1.text? = some (name.key : Text)) :
      isKnown s? entry.1 = true := by
    rw [isKnown, htext, Option.any_some, OptionName.isKeyOf_key]
    exact h
  rw [Context.find?]
  induction c.entries with
  | nil => rfl
  | cons entry rest ih =>
    rw [Value.lookup?_cons, List.filter_cons]
    by_cases htext : entry.1.text? = some (name.key : Text)
    · rw [if_pos (hknown entry htext), Value.lookup?_cons, if_pos htext, if_pos htext]
    · rw [if_neg htext, ← ih]
      split
      · rw [Value.lookup?_cons, if_neg htext]
      · rfl

omit [Scalar α] in
theorem solver_withoutUnknown (c : Context α) (s? : Option Solver) :
    solver (c.withoutUnknown s?) = solver c :=
  solver_congr (Context.find?_withoutUnknown (mem_known_of_common (by decide)))

omit [Scalar α] in
/-- Where only options of the solver are set, nothing is reported as unknown. -/
theorem checkUnknown_withoutUnknown (s? : Option Solver) :
    checkUnknown (c.withoutUnknown s?) s? = pure () := by
  have hnone : ((c.withoutUnknown s?).entries.map (·.1)).filter (fun key => !isKnown s? key) = [] := by
    rw [List.filter_eq_nil_iff]
    intro key hkey
    obtain ⟨entry, hentry, rfl⟩ := List.mem_map.1 hkey
    simp [(List.mem_filter.1 hentry).2]
  simp only [checkUnknown, hnone]
  rfl

/-- Options that the solver does not have take no part in the rest of the resolution. -/
theorem afterSolver_withoutUnknown (c : Context α) (s? : Option Solver) :
    afterSolver (c.withoutUnknown s?) s? = afterSolver c s? :=
  afterSolver_congr fun _ hname => Context.find?_withoutUnknown hname

/-! ## All options -/

/-! ### The anomalies of a resolution -/

/-- The anomalies of a log with a tag. -/
def about (tag : String) (log : List (Anomaly α)) : List (Anomaly α) := log.filter (·.tag == tag)

/-- Anomalies in parts, each of which is about a tag of its own. -/
structure AreByTag (parts : List (String × List (Anomaly α))) : Prop where
  tags : ∀ part ∈ parts, ∀ a ∈ part.2, a.tag = part.1
  nodup : (parts.map Prod.fst).Nodup

namespace AreByTag

variable {parts : List (String × List (Anomaly α))} {tag : String} {added : List (Anomaly α)}

omit [Scalar α] [Interchange α] in
/-- The anomalies about a tag are those of its part. -/
theorem about_eq (h : AreByTag parts) (hmem : (tag, added) ∈ parts) :
    about tag (parts.flatMap Prod.snd) = added := by
  obtain ⟨htags, hnodup⟩ := h
  induction parts with
  | nil => cases hmem
  | cons part rest ih =>
    rw [List.forall_mem_cons] at htags
    rw [List.map_cons, List.nodup_cons] at hnodup
    rw [List.flatMap_cons, about, List.filter_append]
    rcases List.mem_cons.1 hmem with rfl | hmem
    · -- no other part has this tag
      have hown : added.filter (·.tag == tag) = added :=
        List.filter_eq_self.2 fun a ha => beq_iff_eq.2 (htags.1 a ha)
      have hrest : (rest.flatMap Prod.snd).filter (·.tag == tag) = [] := by
        rw [List.filter_eq_nil_iff]
        intro a ha hequal
        obtain ⟨other, hother, ha⟩ := List.mem_flatMap.1 ha
        refine hnodup.1 (List.mem_map.2 ⟨other, hother, ?_⟩)
        rw [← htags.2 other hother a ha]
        exact beq_iff_eq.1 hequal
      rw [hown, hrest, List.append_nil]
    · have hown : part.2.filter (·.tag == tag) = [] := by
        rw [List.filter_eq_nil_iff]
        intro a ha hequal
        refine hnodup.1 (List.mem_map.2 ⟨(tag, added), hmem, ?_⟩)
        rw [← htags.1 a ha]
        exact (beq_iff_eq.1 hequal).symm
      rw [hown, List.nil_append]
      exact ih hmem htags.2 hnodup.2

omit [Scalar α] [Interchange α] in
/-- What is left without the anomalies about a tag are the other parts. -/
theorem filter_ne (h : AreByTag parts) (tag : String) : (parts.flatMap Prod.snd).filter (·.tag != tag)
    = (parts.filter (·.1 != tag)).flatMap Prod.snd := by
  obtain ⟨htags, -⟩ := h
  induction parts with
  | nil => rfl
  | cons part rest ih =>
    rw [List.forall_mem_cons] at htags
    rw [List.flatMap_cons, List.filter_append, ih htags.2, List.filter_cons]
    by_cases htag : part.1 = tag
    · have hown : part.2.filter (·.tag != tag) = [] :=
        List.filter_eq_nil_iff.2 fun a ha => by simp [htags.1 a ha, htag]
      rw [if_neg (by simp [htag]), hown, List.nil_append]
    · have hown : part.2.filter (·.tag != tag) = part.2 :=
        List.filter_eq_self.2 fun a ha => by simp [htags.1 a ha, htag]
      rw [if_pos (by simp [htag]), hown, List.flatMap_cons]

omit [Scalar α] [Interchange α] in
theorem mem_tags (h : AreByTag parts) : ∀ a ∈ parts.flatMap Prod.snd, a.tag ∈ parts.map Prod.fst := by
  intro a ha
  obtain ⟨part, hpart, ha⟩ := List.mem_flatMap.1 ha
  rw [h.tags part hpart a ha]
  exact List.mem_map_of_mem hpart

end AreByTag

/-- An option is answered by its rule, and what a log says about it is the answer. -/
def Settles (log : List (Anomaly α)) (rule : Rule α β) (value? : Option (Value α)) (result : β) : Prop :=
  rule.Answers value? result (about rule.tag log)

/-- The default radii for a solver between bounds of the given half width, for a problem that will be
rescaled or not. -/
def radiiByDefault (s? : Option Solver) (halfWidth : α) (scaled : Bool) : α × α :=
  if s?.any Solver.limitsRadius then fittedDefaults halfWidth scaled else (defaultRhobeg, defaultRhoend)

theorem defaultRadii_eq_byDefault {s? : Option Solver} {radii : α × α} {halfWidth : α} {scaled : Bool}
    (h : defaultRadii c s? = .ok radii) (hwidth : c.bounds.halfWidth = .ok halfWidth)
    (hscaled : (flag c .scale).Yields scaled) : radii = radiiByDefault s? halfWidth scaled := by
  have hclosed := defaultRadii_eq_ok h hscaled
  unfold radiiByDefault
  split at hclosed
  · next hlimits =>
    obtain ⟨_, hwidth', hclosed⟩ := hclosed
    obtain rfl := Except.ok.inj (hwidth.symm.trans hwidth')
    rw [if_pos hlimits]
    exact hclosed
  · next hfree =>
    rw [if_neg hfree]
    exact hclosed

/-- The tags of what is reported once the solver is known, in order. -/
def laterTags : List String :=
  ["InvalidNpt", "InvalidMaxfun", "InvalidRhobeg", "InvalidRhoend", "InvalidFtarget",
    "InvalidClassicalFlag", "Classical", "InvalidScaleFlag", "InvalidQuietFlag", "InvalidDebugflag",
    "Debug", "InvalidChkfunval", "Chkfunval"]

/-- The settings `s` and the anomalies `log` answer the options of a context beyond the solver by their
rules. -/
structure AnswersLater (c : Context α) (s : Settings α) (log : List (Anomaly α)) : Prop where
  npt : ∀ own, s.solver = some own → own.takesNpt = true →
    Settles log (nptRule c.n own) (c.find? .npt) s.npt
  /-- A solver without the option has no choice. -/
  noNpt : s.solver.any Solver.takesNpt = false →
    s.npt = s.solver.map (fun own => (own.defaultNpt c.n : Int)) ∧ about "InvalidNpt" log = []
  maxfun : Settles log (maxfunRule c.n s.solver s.npt) (c.find? .maxfun) s.maxfun
  radii : ∃ halfWidth, c.bounds.halfWidth = .ok halfWidth ∧
    let default := radiiByDefault s.solver halfWidth s.scale
    Settles log (rhobegRule default.1 (c.number? .rhoend) (radiusLimit? s.solver halfWidth))
      (c.find? .rhobeg) s.rhobeg ∧
    Settles log (rhoendRule s.rhobeg (radiusRatio default.1 default.2)) (c.find? .rhoend) s.rhoend
  ftarget : Settles log ftargetRule (c.find? .ftarget) s.ftarget
  classical : Settles log (flagRule .classical) (c.find? .classical) s.classical
  scale : Settles log (flagRule .scale) (c.find? .scale) s.scale
  quiet : Settles log (flagRule .quiet) (c.find? .quiet) s.quiet
  debug : Settles log (flagRule .debug) (c.find? .debug) s.debug
  chkfunval : Settles log (chkfunvalRule s.debug) (c.find? .chkfunval) s.chkfunval
  /-- Modes that are on are noted. -/
  modes : about "Classical" log = (if s.classical then [.classicalMode] else []) ∧
    about "Debug" log = (if s.debug then [.debugMode] else []) ∧
    about "Chkfunval" log = if s.chkfunval then [.checkMode s.solver] else []

/-- The settings `s` and the anomalies `log` answer all options of a context by their rules, and name the
keys that are no options in one diagnostic. Nothing else is reported. -/
structure AnswersAll (c : Context α) (s : Settings α) (log : List (Anomaly α)) : Prop
    extends AnswersLater c s log where
  solver : Settles log (solverRule c.invoker) (c.find? .solver) s.solver
  unknown : about "UnknownOption" log = unknownReport (c.unknownTexts s.solver)
  tags : ∀ a ∈ log, a.tag ∈ (solverRule (α := α) c.invoker).tag :: "UnknownOption" :: laterTags

omit [Scalar α] [Interchange α] in
theorem about_append (tag : String) (front log : List (Anomaly α)) :
    about tag (front ++ log) = about tag front ++ about tag log := List.filter_append _ _

omit [Scalar α] [Interchange α] in
theorem about_eq_nil {tag : String} {log : List (Anomaly α)} (h : ∀ a ∈ log, a.tag ≠ tag) :
    about tag log = [] :=
  List.filter_eq_nil_iff.2 fun a ha heq => h a ha (beq_iff_eq.1 heq)

/-- What is reported before the solver is known says nothing about the other options. -/
theorem AnswersLater.prepend {s : Settings α} {log : List (Anomaly α)} (h : AnswersLater c s log)
    {front : List (Anomaly α)} (hfront : ∀ a ∈ front, a.tag ∉ laterTags) : AnswersLater c s (front ++ log) := by
  have habout (tag : String) (htag : tag ∈ laterTags) : about tag (front ++ log) = about tag log := by
    rw [about_append, about_eq_nil fun a ha heq => hfront a ha (heq ▸ htag), List.nil_append]
  have hsettles {β : Type} {rule : Rule α β} {value? : Option (Value α)} {b : β}
      (h : Settles log rule value? b) (htag : rule.tag ∈ laterTags) :
      Settles (front ++ log) rule value? b := by
    rw [Settles, habout _ htag]
    exact h
  obtain ⟨halfWidth, hwidth, hfirst, hlast⟩ := h.radii
  exact {
    npt := fun own hown htakes =>
      hsettles (h.npt own hown htakes) (show "InvalidNpt" ∈ laterTags by decide)
    noNpt := fun hnone => by rw [habout _ (by decide)]; exact h.noNpt hnone
    maxfun := hsettles h.maxfun (show "InvalidMaxfun" ∈ laterTags by decide)
    radii := ⟨halfWidth, hwidth, hsettles hfirst (show "InvalidRhobeg" ∈ laterTags by decide),
      hsettles hlast (show "InvalidRhoend" ∈ laterTags by decide)⟩
    ftarget := hsettles h.ftarget (show "InvalidFtarget" ∈ laterTags by decide)
    classical := hsettles h.classical (show "InvalidClassicalFlag" ∈ laterTags by decide)
    scale := hsettles h.scale (show "InvalidScaleFlag" ∈ laterTags by decide)
    quiet := hsettles h.quiet (show "InvalidQuietFlag" ∈ laterTags by decide)
    debug := hsettles h.debug (show "InvalidDebugflag" ∈ laterTags by decide)
    chkfunval := hsettles h.chkfunval (show "InvalidChkfunval" ∈ laterTags by decide)
    modes := by
      rw [habout _ (by decide), habout _ (by decide), habout _ (by decide)]
      exact h.modes }

theorem npt_answered_or_default (c : Context α) (s? : Option Solver)
    (h : ∀ own, s? = some own → own.takesNpt = true → c.Reads .npt) :
    ∃ m? added, (npt c s?).Results c.invoker.name m? added ∧ (∀ a ∈ added, a.tag = "InvalidNpt") ∧
      (∀ own, s? = some own → own.takesNpt = true →
        (nptRule c.n own).Answers (c.find? .npt) m? added) ∧
      (s?.any Solver.takesNpt = false →
        m? = s?.map (fun own => (own.defaultNpt c.n : Int)) ∧ added = []) := by
  cases htakes : s?.any Solver.takesNpt with
  | true =>
    obtain ⟨own, rfl, hown⟩ := (Option.any_eq_true _ _).1 htakes
    obtain ⟨m?, added, hresults, hanswers⟩ := npt_answered (h own rfl hown) hown
    refine ⟨m?, added, hresults, hanswers.forall_tag, ?_, fun hnone => by cases hnone⟩
    intro own' hown' _
    cases hown'
    exact hanswers
  | false =>
    refine ⟨_, [], npt_results htakes, by simp, ?_, fun _ => ⟨rfl, rfl⟩⟩
    intro own hown hown'
    subst hown
    rw [Option.any_some, hown'] at htakes
    cases htakes

theorem afterSolver_answers {s? : Option Solver} (hcommon : ∀ name ∈ OptionName.common,
      name ≠ .solver → c.Reads name)
    (hnpt : ∀ own, s? = some own → own.takesNpt = true → c.Reads .npt)
    (hbounds : c.bounds.upper.length = c.bounds.lower.length) :
    ∃ s parts, (afterSolver c s?).Results c.invoker.name s (parts.flatMap Prod.snd) ∧ s.solver = s? ∧
      AreByTag parts ∧ parts.map Prod.fst = laterTags ∧ AnswersLater c s (parts.flatMap Prod.snd) := by
  have hreads {name : OptionName} (hname : name ∈ OptionName.common) (hother : name ≠ .solver) :
      c.Reads name := hcommon name hname hother
  have hflag (name : FlagName) := flag_answered (c := c) name
    (hreads (by cases name <;> decide) (by cases name <;> decide))
  obtain ⟨halfWidth, hwidth⟩ := Bounds.exists_halfWidth hbounds
  obtain ⟨points, atNpt, hpoints, htagNpt, hnpt, hnoNpt⟩ := npt_answered_or_default c s? hnpt
  have hnone : s? = none ↔ points = none := by
    rw [← Option.not_isSome_iff_eq_none, ← Option.not_isSome_iff_eq_none, isSome_npt hpoints.yields]
  obtain ⟨scale, atScale, hscale, hascale⟩ := hflag .scale
  obtain ⟨default, hdefault⟩ : ∃ radii, defaultRadii c s? = .ok radii :=
    defaultRadii_exists ⟨halfWidth, hwidth⟩ (hreads (by decide) (by decide))
  obtain rfl := defaultRadii_eq_byDefault hdefault hwidth hscale.yields
  obtain ⟨budget, atBudget, hbudget, habudget⟩ := maxfun_answered s? points
    (hreads (by decide) (by decide)) hnone
  obtain ⟨beginning, atFirst, hbeginning, hafirst⟩ := rhobeg_answered s?
    (radiiByDefault s? halfWidth scale).1 (hreads (by decide) (by decide)) (hreads (by decide) (by decide)) hwidth
  obtain ⟨ending, atLast, hending, halast⟩ := rhoend_answered beginning
    (radiusRatio (radiiByDefault s? halfWidth scale).1 (radiiByDefault s? halfWidth scale).2)
    (hreads (by decide) (by decide))
  obtain ⟨target, atTarget, htarget, hatarget⟩ := ftarget_answered (c := c)
    (hreads (by decide) (by decide))
  obtain ⟨classical, atClassical, hclassical, haclassical⟩ := hflag .classical
  obtain ⟨quiet, atQuiet, hquiet, haquiet⟩ := hflag .quiet
  obtain ⟨debug, atDebug, hdebug, hadebug⟩ := hflag .debug
  obtain ⟨check, atCheck, hcheck, hacheck⟩ := chkfunval_answered (c := c) debug
    (hreads (by decide) (by decide))
  let parts : List (String × List (Anomaly α)) :=
    [("InvalidNpt", atNpt), ("InvalidMaxfun", atBudget), ("InvalidRhobeg", atFirst),
      ("InvalidRhoend", atLast), ("InvalidFtarget", atTarget), ("InvalidClassicalFlag", atClassical),
      ("Classical", if classical then [.classicalMode] else []), ("InvalidScaleFlag", atScale),
      ("InvalidQuietFlag", atQuiet), ("InvalidDebugflag", atDebug),
      ("Debug", if debug then [.debugMode] else []), ("InvalidChkfunval", atCheck),
      ("Chkfunval", if check then [.checkMode s?] else [])]
  have hparts : AreByTag parts := by
    refine ⟨?_, show laterTags.Nodup by decide⟩
    have hmode {d : Bool} {a : Anomaly α} : ∀ b ∈ (if d then [a] else []), b.tag = a.tag := by
      cases d <;> simp
    simp only [parts, List.forall_mem_cons, List.not_mem_nil, false_imp_iff, implies_true, and_true]
    exact ⟨htagNpt, habudget.forall_tag, hafirst.forall_tag, halast.forall_tag, hatarget.forall_tag,
      haclassical.forall_tag, hmode, hascale.forall_tag, haquiet.forall_tag, hadebug.forall_tag, hmode,
      hacheck.forall_tag, hmode⟩
  have habout {tag : String} {added : List (Anomaly α)} (hmem : (tag, added) ∈ parts) :
      about tag (parts.flatMap Prod.snd) = added := hparts.about_eq hmem
  refine ⟨⟨points, budget, beginning, ending, target, classical, scale, quiet, debug, check, s?⟩,
    parts, ?_, rfl, hparts, rfl, ?_⟩
  · refine .bind_of_ok hdefault ?_
    refine .bind hpoints <| .bind hbudget <| .bind hbeginning <| .bind hending <| .bind htarget ?_
    refine .bind hclassical <| .report_step <| .bind hscale <| .bind hquiet <| .bind hdebug ?_
    exact .report_step <| .bind hcheck <| .report_step <| .pure _
  · have hsettles {β : Type} {rule : Rule α β} {value? : Option (Value α)} {b : β}
        {added : List (Anomaly α)} (hanswers : rule.Answers value? b added)
        (hmem : (rule.tag, added) ∈ parts) : Settles (parts.flatMap Prod.snd) rule value? b := by
      rw [Settles, habout hmem]
      exact hanswers
    exact {
      npt := fun own hown htakes => hsettles (hnpt own hown htakes)
        (show ("InvalidNpt", atNpt) ∈ parts by simp [parts])
      noNpt := fun hnone => ⟨(hnoNpt hnone).1, (habout (by simp [parts])).trans (hnoNpt hnone).2⟩
      maxfun := hsettles habudget (show ("InvalidMaxfun", atBudget) ∈ parts by simp [parts])
      radii := ⟨halfWidth, hwidth,
        hsettles hafirst (show ("InvalidRhobeg", atFirst) ∈ parts by simp [parts]),
        hsettles halast (show ("InvalidRhoend", atLast) ∈ parts by simp [parts])⟩
      ftarget := hsettles hatarget (show ("InvalidFtarget", atTarget) ∈ parts by simp [parts])
      classical := hsettles haclassical
        (show ("InvalidClassicalFlag", atClassical) ∈ parts by simp [parts])
      scale := hsettles hascale (show ("InvalidScaleFlag", atScale) ∈ parts by simp [parts])
      quiet := hsettles haquiet (show ("InvalidQuietFlag", atQuiet) ∈ parts by simp [parts])
      debug := hsettles hadebug (show ("InvalidDebugflag", atDebug) ∈ parts by simp [parts])
      chkfunval := hsettles hacheck (show ("InvalidChkfunval", atCheck) ∈ parts by simp [parts])
      modes := ⟨habout (by simp [parts]), habout (by simp [parts]), habout (by simp [parts])⟩ }

/-- Options that are readable are answered by their rules. Those that the solver does not have are named in
one diagnostic; without them, everything else is the same. -/
theorem settings_answers (hreadable : c.Readable) (hsound : c.Sound) (hdict : c.entries.IsDictionary)
    (hbounds : c.bounds.upper.length = c.bounds.lower.length) :
    ∃ s log, (settings c).Results c.invoker.name s log ∧ AnswersAll c s log ∧
      (settings (c.withoutUnknown s.solver)).Results c.invoker.name s
        (log.filter (·.tag != "UnknownOption")) := by
  obtain ⟨s?, atSolver, hsolver, hasolver⟩ := solver_answered c
  obtain rfl := solver_yields hsolver.yields
  have hunknown := checkUnknown_results hdict c.asked?
  obtain ⟨s, parts, hafter, hs, hparts, htags, hlater⟩ := afterSolver_answers
    (fun name hname hother => hreadable.reads hsound (mem_known_of_common hname) hother)
    (fun own hown htakes => hreadable.reads hsound (npt_mem_known.2 ⟨own, hown, htakes⟩) (by decide))
    hbounds
  have hsolverTag : (solverRule (α := α) c.invoker).tag ∉ "UnknownOption" :: laterTags := by
    cases c.invoker with
    | frontEnd => exact show "UnknownSolver" ∉ "UnknownOption" :: laterTags by decide
    | solver own => exact show "InvalidSolver" ∉ "UnknownOption" :: laterTags by decide
  have hmiddle := tag_of_mem_unknownReport (α := α) (c.unknownTexts c.asked?)
  let before := ((solverRule (α := α) c.invoker).tag, atSolver)
  let middle := ("UnknownOption", unknownReport (α := α) (c.unknownTexts c.asked?))
  have hall : AreByTag (before :: middle :: parts) := by
    constructor
    · rw [List.forall_mem_cons, List.forall_mem_cons]
      exact ⟨hasolver.forall_tag, hmiddle, hparts.tags⟩
    · rw [List.map_cons, List.map_cons, htags, List.nodup_cons]
      exact ⟨hsolverTag, show ("UnknownOption" :: laterTags).Nodup by decide⟩
  have hlog : (before :: middle :: parts).flatMap Prod.snd
      = atSolver ++ (unknownReport (c.unknownTexts c.asked?) ++ parts.flatMap Prod.snd) := rfl
  refine ⟨s, (before :: middle :: parts).flatMap Prod.snd, ?_, ?_, ?_⟩
  · rw [settings_eq, hlog]
    exact .bind hsolver (.bind hunknown hafter)
  · have hunknownTag : ∀ a ∈ (unknownReport (c.unknownTexts c.asked?) : List (Anomaly α)),
        a.tag ∉ laterTags := by
      intro a ha
      rw [hmiddle a ha]
      decide
    have hfirstTag : ∀ a ∈ atSolver, a.tag ∉ laterTags := fun a ha hmem =>
      hsolverTag (List.mem_cons_of_mem _ (hasolver.forall_tag a ha ▸ hmem))
    have hprepended := (hlater.prepend hunknownTag).prepend hfirstTag
    refine { hprepended with solver := ?_, unknown := ?_, tags := ?_ }
    · rw [Settles, hall.about_eq List.mem_cons_self, hs]
      exact hasolver
    · rw [hall.about_eq (List.mem_cons_of_mem _ List.mem_cons_self), hs]
    · intro a ha
      rw [← htags]
      exact hall.mem_tags a ha
  · have hothers : parts.filter (·.1 != "UnknownOption") = parts := by
      refine List.filter_eq_self.2 fun part hpart => ?_
      have hmem : part.1 ∈ laterTags := htags ▸ List.mem_map_of_mem hpart
      exact bne_iff_ne.2 fun heq => absurd (heq ▸ hmem) (by decide)
    have hfirst : (before.1 != "UnknownOption") = true :=
      bne_iff_ne.2 fun heq => hsolverTag (List.mem_cons.2 (.inl heq))
    rw [hall.filter_ne, List.filter_cons, if_pos hfirst, List.filter_cons, if_neg (by simp [middle]),
      hothers, hs, settings_eq, solver_withoutUnknown]
    refine .bind hsolver ?_
    rw [checkUnknown_withoutUnknown, afterSolver_withoutUnknown]
    exact .bind (.pure ()) hafter

end Resolution

open Resolution

/-- A dictionary of options, none of them an integer that is too large, is answered entry by entry; an entry
that is empty is not set. The entries that the solver does not have are named in one diagnostic, and to leave
them out changes nothing else. -/
theorem resolveOptions_answers (invoker : Invoker) (given : Entries α) (n : Nat) (bounds : Bounds α)
    (hlower : bounds.lower.length = n) (hupper : bounds.upper.length = n) (hdict : given.IsDictionary)
    (hsound : (Value.mapping given).isSound = true) (hfits : ∀ entry ∈ given, ¬entry.2.IsHuge) :
    ∃ s log, let c : Context α := ⟨invoker, n, bounds, given.kept⟩
      (resolveOptions invoker (.mapping given) n bounds).Results invoker.name s log ∧
      (∀ name : OptionName, c.find? name
        = (Value.lookup? name.key given).filter fun value => !value.isEmpty) ∧
      AnswersAll c s log ∧
      (resolveOptions invoker (.mapping (given.filter fun entry => isKnown s.solver entry.1)) n
        bounds).Results invoker.name s (log.filter (·.tag != "UnknownOption")) := by
  have hplain : (Value.mapping given).ArePlain :=
    .inr ⟨given, rfl, fun entry hentry => ⟨hdict.texts entry hentry, hfits entry hentry⟩⟩
  have hread : readEntries invoker.name (.mapping given) = .ok given.kept := rfl
  have hreadable : (⟨invoker, n, bounds, given.kept⟩ : Context α).Readable := hplain.readable hread
  obtain ⟨s, log, hsettings, hanswers, hwithout⟩ := settings_answers hreadable
    (isSound_readEntries hsound hread) hdict.kept (hupper.trans hlower.symm)
  refine ⟨s, log, .bind_of_ok hread hsettings, fun name => hdict.lookup?_kept name.key, hanswers, ?_⟩
  refine .bind_of_ok rfl ?_
  have hcomm : (given.filter fun entry => isKnown s.solver entry.1).filter (fun entry => !entry.2.isEmpty)
      = given.kept.filter fun entry => isKnown s.solver entry.1 := by
    rw [Entries.kept, List.filter_filter, List.filter_filter]
    simp only [Bool.and_comm]
  rw [hcomm]
  exact hwithout

/-- Options with too many points, a last radius that exceeds the default first one, an empty target, and a
key that names no option. -/
def strayOptions : Entries (Extended ℚ) :=
  [(.text "npt", .int 100), (.text "rhoend", .real (.finite 2)), (.text "ftarget", .text ""),
    (.text "radius", .int 1)]

/-- The points are reported and replaced, the first radius is raised, and the key is named. -/
theorem resolveOptions_answers_strayOptions : ∃ s log,
    (resolveOptions (.solver .newuoa) (.mapping strayOptions) 2 (.free 2)).Results "newuoa" s log ∧
      s.npt = some 5 ∧ about "InvalidNpt" log = [.invalidNpt .newuoa] ∧
      s.rhobeg = .finite 2 ∧ about "InvalidRhobeg" log = [] ∧
      s.ftarget = -Scalar.infinity ∧ about "InvalidFtarget" log = [] ∧
      about "UnknownOption" log = [.unknownOptions ["radius"]] := by
  obtain ⟨s, log, hresults, -, hanswers, -⟩ := resolveOptions_answers (.solver .newuoa)
    strayOptions 2 (.free 2) rfl rfl
    ⟨by decide, by decide⟩ (by decide +kernel) (by
      have hfits : ∀ entry ∈ strayOptions, ∀ i, entry.2 = .int i → Scalar.fits i = true := by
        simp only [strayOptions, List.forall_mem_cons, List.not_mem_nil, false_imp_iff, implies_true,
          and_true, Value.int.injEq, forall_eq', reduceCtorEq]
        decide +kernel
      rintro entry hentry ⟨i, hi, hhuge⟩
      rw [hfits entry hentry i hi] at hhuge
      cases hhuge)
  have hsolver : s.solver = some .newuoa := (hanswers.solver.unset rfl).1
  obtain ⟨hnpt, hatNpt⟩ := (hanswers.npt .newuoa hsolver rfl).invalid (.int 100) rfl (by decide +kernel)
  obtain ⟨halfWidth, -, hfirst, -⟩ := hanswers.radii
  obtain ⟨hrhobeg, hatRhobeg⟩ := hfirst.unset rfl
  obtain ⟨hftarget, hatFtarget⟩ := hanswers.ftarget.unset rfl
  refine ⟨s, log, hresults, hnpt, hatNpt, ?_, hatRhobeg, hftarget, hatFtarget, ?_⟩
  · rw [hrhobeg]
    -- the solver has no limit for its radius
    have hdefault : (radiiByDefault s.solver halfWidth s.scale).1 = defaultRhobeg := by
      rw [hsolver]
      rfl
    show fallbackRadius (radiiByDefault s.solver halfWidth s.scale).1 _ = _
    rw [hdefault]
    decide +kernel
  · have htexts : Context.unknownTexts (⟨.solver .newuoa, 2, .free 2, strayOptions.kept⟩ :
        Context (Extended ℚ)) (some .newuoa) = [("radius" : Text)] := by decide +kernel
    rw [hanswers.unknown, hsolver, htexts, unknownReport, List.mergeSort_singleton]
    rfl

end Presolve
