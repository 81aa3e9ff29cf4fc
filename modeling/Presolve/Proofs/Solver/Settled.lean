import Presolve.Proofs.Solver.Answers

/-!
# Settings that are resolved again

Settings can be passed as options again, each under its name. A resolution answers every option with
something that it accepts itself (`Settings.IsSettled`), so resolving its result for the same invoker, number
of variables and bounds changes nothing: modes that are on are noted once more, and the number of points is
named as unknown where it is no option of the solver.

Solvers that limit their first radius are left out. Between bounds that are close together a last radius by
default can exceed the first one, and such a last radius is not accepted again.
-/

namespace Presolve

open Scalar

variable {α : Type}

/-! ## Preparations that fail, or report nothing -/

namespace Prep

variable {β γ : Type}

/-- Where no warning is escalated, the preparation ends in this fault. -/
def FailsWith (p : Prep α β) (x : Fault) : Prop := ∀ j, (p.outcome none j).1 = .error x

namespace FailsWith

variable {p : Prep α β} {f : β → Prep α γ} {x : Fault}

theorem lift {y : Except Fault β} (h : y = .error x) : FailsWith (liftM y : Prep α β) x := fun _ => h

theorem bind (h : p.FailsWith x) : (p >>= f).FailsWith x := by
  intro j
  rw [outcome_bind_of_error (Prod.ext (h j) rfl)]

/-- A read that succeeds does not prevent a failure behind it. -/
theorem of_read {y : Except Fault β} {b : β} (hy : y = .ok b) (hf : (f b).FailsWith x) :
    ((liftM y : Prep α β) >>= f).FailsWith x := by
  rw [hy]
  exact hf

/-- What comes after a result may fail. -/
theorem of_results {source : String} {b : β} {added : List (Anomaly α)} (hp : p.Results source b added)
    (hf : (f b).FailsWith x) : (p >>= f).FailsWith x := by
  intro j
  obtain ⟨k, hk, -⟩ := hp j
  rw [outcome_bind_of_ok hk]
  exact hf k

end FailsWith

/-- A step that reports nothing is not seen in the log. -/
theorem Results.bind_silent {p : Prep α β} {f : β → Prep α γ} {source : String} {b : β} {c : γ}
    {added : List (Anomaly α)} (hp : p.Results source b []) (hf : (f b).Results source c added) :
    (p >>= f).Results source c added := hp.bind hf

end Prep

/-! ## Options in a dictionary -/

namespace Value

/-- The value of an option as an entry of a dictionary. -/
def written? : Value α → Option (Value α)
  | absent => none
  | solver s => some (text s.name)
  | v => some v

theorem setOptions_eq (fields : OptionName → Value α) : setOptions fields
    = OptionName.all.filterMap fun name => (fields name).written?.map (text name.key, ·) := by
  apply List.filterMap_congr
  intro name _
  cases fields name <;> rfl

/-- Under the key of one of the options the value is found that is given for it. -/
theorem lookup?_filterMap_key (given? : OptionName → Option (Value α)) (name : OptionName)
    (names : List OptionName) :
    lookup? name.key (names.filterMap fun name => (given? name).map (text name.key, ·))
      = if name ∈ names then given? name else none := by
  induction names with
  | nil => rfl
  | cons other names ih =>
    rw [List.filterMap_cons]
    by_cases hname : name = other
    · subst hname
      rw [if_pos List.mem_cons_self]
      cases hgiven : given? name with
      | none => simpa [hgiven] using ih
      | some v => simp [lookup?_cons, text?]
    · have hkey : other.key ≠ name.key := fun h => hname (OptionName.key_injective h).symm
      have hmem : name ∈ other :: names ↔ name ∈ names := by simp [hname]
      simp only [hmem]
      cases given? other with
      | none => exact ih
      | some v =>
        have hother : (text other.key : Value α).text? ≠ some (name.key : Text) := by simpa [text?] using hkey
        simp only [Option.map_some]
        rw [lookup?_cons, if_neg hother]
        exact ih

/-- Under the key of an option its value is found. -/
theorem lookup?_setOptions (fields : OptionName → Value α) (name : OptionName) :
    lookup? name.key (setOptions fields) = (fields name).written? := by
  rw [setOptions_eq, lookup?_filterMap_key, if_pos name.mem_all]

/-- Options are a dictionary. -/
theorem isDictionary_setOptions (fields : OptionName → Value α) :
    Entries.IsDictionary (setOptions fields) := by
  have hkeys : (setOptions fields).map (fun entry => entry.1.text?)
      = (OptionName.all.filter fun name => (fields name).written?.isSome).map
          fun name => some (name.key : Text) := by
    rw [setOptions_eq]
    induction OptionName.all with
    | nil => rfl
    | cons name names ih =>
      rw [List.filterMap_cons, List.filter_cons]
      cases (fields name).written? with
      | none => exact ih
      | some v => exact congrArg (some (name.key : Text) :: ·) ih
  constructor
  · intro entry hentry
    have hmem := List.mem_map_of_mem (f := fun entry : Value α × Value α => entry.1.text?) hentry
    rw [hkeys] at hmem
    obtain ⟨name, -, hname⟩ := List.mem_map.1 hmem
    rw [← hname]
    rfl
  · rw [hkeys]
    have hall : (OptionName.all.map fun name => some (name.key : Text)).Nodup := by decide
    exact hall.sublist (List.filter_sublist.map _)

end Value

/-! ## Settings that are accepted -/

section

variable {K : Type} [Field K] [LinearOrder K] [FloorRing K]

/-- Every setting is one that a resolution for this invoker and `n` variables accepts, and the solver does
not limit its first radius. -/
structure Settings.IsSettled (s : Settings (Extended K)) (invoker : Invoker) (n : Nat) : Prop where
  solver : ∀ own, invoker = .solver own → s.solver = some own
  unlimited : s.solver.any Solver.limitsRadius = false
  points : match s.solver with
    | some own => ∃ m, s.npt = some m ∧ own.Samples n m
    | none => s.npt = none
  budget : Resolution.leastBudget n s.npt ≤ s.maxfun
  epsilon_le_rhobeg : epsilon ≤ s.rhobeg
  epsilon_le_rhoend : epsilon ≤ s.rhoend
  rhoend_le_rhobeg : s.rhoend ≤ s.rhobeg
  check : s.chkfunval = true → s.debug = true

/-- Settled points are at least one. -/
theorem Settings.IsSettled.one_le_of_npt {s : Settings (Extended K)} {invoker : Invoker} {n : Nat} {m : Int}
    (h : s.IsSettled invoker n) (hm : s.npt = some m) : 1 ≤ m := by
  have hpoints := h.points
  split at hpoints
  · next own _ =>
    obtain ⟨k, hk, hrange⟩ := hpoints
    obtain rfl := Option.some.inj (hm.symm.trans hk)
    have hdefault : 1 ≤ own.defaultNpt n := by
      have hfull := Solver.two_mul_add_one_le_fullQuadratic n
      cases own <;> simp only [Solver.defaultNpt] <;> omega
    unfold Solver.Samples at hrange
    split at hrange <;> omega
  · rw [hpoints] at hm
    cases hm

/-- Points are settled exactly for a solver. -/
theorem Settings.IsSettled.isSome_npt {s : Settings (Extended K)} {invoker : Invoker} {n : Nat}
    (h : s.IsSettled invoker n) : s.npt.isSome = s.solver.isSome := by
  have hpoints := h.points
  cases hsolver : s.solver with
  | none =>
    rw [hsolver] at hpoints
    rw [hpoints]
    rfl
  | some own =>
    rw [hsolver] at hpoints
    obtain ⟨m, hm, -⟩ := hpoints
    rw [hm]
    rfl

theorem Settings.IsSettled.budget_pos {s : Settings (Extended K)} {invoker : Invoker} {n : Nat}
    (h : s.IsSettled invoker n) : 0 < s.maxfun := by
  have hbudget := h.budget
  cases hnpt : s.npt with
  | none =>
    rw [hnpt, Resolution.leastBudget, Option.elim] at hbudget
    omega
  | some m =>
    have hone := h.one_le_of_npt hnpt
    rw [hnpt, Resolution.leastBudget, Option.elim] at hbudget
    omega

namespace Resolution

theorem chkfunval_yields {α : Type} [Scalar α] [Interchange α] {c : Context α} {debug check : Bool}
    (h : (chkfunval c debug).Yields check) (hcheck : check = true) : debug = true := by
  subst hcheck
  unfold chkfunval at h
  split at h
  · cases Prep.yields_pure.1 h
  · obtain ⟨check?, -, h⟩ := h.of_bind
    cases check? with
    | none =>
      obtain ⟨_, -, h⟩ := h.of_bind
      cases Prep.yields_pure.1 h
    | some check =>
      simp only at h
      split at h
      · obtain ⟨_, -, h⟩ := h.of_bind
        cases Prep.yields_pure.1 h
      · next hraised =>
        rw [Prep.yields_pure] at h
        subst h
        simpa using hraised

/-- What options are resolved to is settled, unless the solver limits its first radius. -/
theorem isSettled_of_yields [IsStrictOrderedRing K] [Interchange (Extended K)]
    {c : Context (Extended K)} {s : Settings (Extended K)} (hn : 0 < c.n) (h : (settings c).Yields s)
    (hunlimited : s.solver.any Solver.limitsRadius = false) : s.IsSettled c.invoker c.n := by
  have hsteps := settings_yields h
  obtain ⟨hrhobeg, hrhoend, hordered⟩ := settings_radii h
  have hpoints : match s.solver with
      | some own => ∃ m, s.npt = some m ∧ own.Samples c.n m
      | none => s.npt = none := by
    have hnpt := hsteps.npt
    cases hsolver : s.solver with
    | none =>
      rw [hsolver] at hnpt
      exact npt_yields_none hnpt
    | some own =>
      rw [hsolver] at hnpt
      exact npt_yields hn hnpt
  have hnone : s.solver = none ↔ s.npt = none := by
    rw [← Option.not_isSome_iff_eq_none, ← Option.not_isSome_iff_eq_none, isSome_npt hsteps.npt]
  constructor
  case solver =>
    intro own hinvoker
    rw [solver_yields hsteps.solver, Context.asked?, hinvoker]
  case unlimited => exact hunlimited
  case points => exact hpoints
  case budget => exact maxfun_yields hn hnone hsteps.maxfun
  case epsilon_le_rhobeg => exact hrhobeg
  case epsilon_le_rhoend => exact hrhoend
  case rhoend_le_rhobeg =>
    refine hordered.2 fun hstretches => ?_
    rw [hstretches.limits] at hunlimited
    cases hunlimited
  case check => exact chkfunval_yields hsteps.chkfunval

end Resolution

/-! ## Resolving settings -/

/-- What is noted about settings that are resolved: the number of points, where it is no option of the
solver, and the modes that are on. -/
def Settings.notes {α : Type} (s : Settings α) : List (Anomaly α) :=
  (if s.solver = some .uobyqa ∨ s.solver = some .cobyla then [.unknownOptions ["npt"]] else []) ++
    ((if s.classical then [.classicalMode] else []) ++ ((if s.debug then [.debugMode] else []) ++
      if s.chkfunval then [.checkMode s.solver] else []))

namespace Resolution

section

variable {α : Type} (s : Settings α) (invoker : Invoker) (n : Nat) (bounds : Bounds α)

/-- The context in which settings are resolved again. -/
def again : Context α := ⟨invoker, n, bounds, Value.setOptions s.toOptions⟩

theorem find?_again (name : OptionName) :
    (again s invoker n bounds).find? name = (s.toOptions name).written? :=
  Value.lookup?_setOptions s.toOptions name

/-- The only option of resolved settings that a solver may lack is the number of points. -/
theorem unknownTexts_again (hpoints : s.npt.isSome = s.solver.isSome) :
    (again s invoker n bounds).unknownTexts s.solver
      = if s.solver = some .uobyqa ∨ s.solver = some .cobyla then [("npt" : Text)] else [] := by
  obtain ⟨npt, maxfun, rhobeg, rhoend, ftarget, classical, scale, quiet, debug, chkfunval, solver⟩ := s
  cases solver with
  | none =>
    obtain rfl : npt = none := by simpa using hpoints
    rfl
  | some own =>
    obtain ⟨m, rfl⟩ := Option.isSome_iff_exists.1 hpoints
    cases own <;> rfl

end

section

variable {α β : Type} [Scalar α] [Interchange α] {c : Context α} {p : Prep α β} {rule : Rule α β}

omit [Scalar α] [Interchange α] in
/-- A value that is accepted is the result, and nothing is reported. -/
theorem Answered.results {value? : Option (Value α)} {v : Value α} {b : β}
    (h : Answered c p rule value?) (hv : value? = some v) (haccepts : rule.accepts v = some b) :
    p.Results c.invoker.name b [] := by
  obtain ⟨b', added, hresults, hanswers⟩ := h
  obtain ⟨rfl, rfl⟩ := hanswers.valid v b hv haccepts
  exact hresults

end

open Extended

/-! ### Values that are accepted -/

theorem fits_of_le {m k : Int} (hm : 0 ≤ m) (hle : m ≤ k) (h : fits k = true) : fits m = true := by
  have habs : m.natAbs ≤ k.natAbs := by omega
  exact decide_eq_true (lt_of_le_of_lt habs (of_decide_eq_true h))

/-- A radius that is not tiny is accepted as it is. -/
theorem larger_epsilon_eq {x : Extended K} (h : epsilon ≤ x) : larger x epsilon = x :=
  if_neg ((Extended.not_lt (defined_right h) epsilon_defined).2 h)

variable [IsStrictOrderedRing K]

theorem pos_of_epsilon_le {x : Extended K} (h : epsilon ≤ x) : 0 < x := by
  refine Extended.lt_of_lt_of_le ?_ h
  rw [zero_eq, epsilon_eq, finite_lt]
  exact tiny_pos

variable [Interchange (Extended K)]

/-- An integer in the range of doubles is read as itself. -/
theorem integerScalar?_int {m : Int} (h : fits m = true) :
    (Value.int m : Value (Extended K)).integerScalar? = .ok (some m) := by
  have hone : (m : K) / ((1 : Nat) : K) = m := by rw [Nat.cast_one, div_one]
  have hread : (realOfInt m : Except Fault (Extended K)) = .ok (finite (m : K)) := by
    unfold realOfInt ofInt?
    rw [if_pos h]
    exact congrArg (fun x => Except.ok (finite x)) hone
  have hwhole : toInt? (finite (m : K)) = some m := by
    show (if (⌊(m : K)⌋ : K) = m then some ⌊(m : K)⌋ else none) = some m
    rw [Int.floor_intCast, if_pos rfl]
  rw [Value.integerScalar?, Value.realScalar?_int, hread]
  exact congrArg Except.ok hwhole

theorem whole?_int {m : Int} (h : fits m = true) : (Value.int m : Value (Extended K)).whole? = some m := by
  rw [Value.whole?, integerScalar?_int h]
  rfl

omit [IsStrictOrderedRing K] in
theorem integerScalar?_of_not_fits {m : Int} (h : fits m = false) :
    (Value.int m : Value (Extended K)).integerScalar? = .error .overflow := by
  rw [Value.integerScalar?, Value.realScalar?_of_isHuge ⟨m, rfl, h⟩]
  rfl

variable {s : Settings (Extended K)} {invoker : Invoker} {n : Nat} {bounds : Bounds (Extended K)}

/-- A setting can be read, unless it is an integer out of the range of doubles. -/
theorem reads_again (name : OptionName) (h : ∀ m, s.toOptions name = .int m → fits m = true) :
    (again s invoker n bounds).Reads name := by
  intro v hv
  rw [find?_again] at hv
  have hint {m : Int} (hm : s.toOptions name = .int m) :
      ∃ x?, (Value.int m : Value (Extended K)).realScalar? = .ok x? := by
    obtain ⟨x?, hx, -⟩ := map_eq_ok.1 (integerScalar?_int (K := K) (h m hm))
    exact ⟨x?, hx⟩
  cases name with
  | npt =>
    have hnpt : s.toOptions .npt = s.npt.elim .absent .int := rfl
    rw [hnpt] at hv hint
    cases hpoints : s.npt with
    | none =>
      rw [hpoints] at hv
      cases hv
    | some m =>
      rw [hpoints] at hv hint
      cases hv
      exact hint rfl
  | maxfun =>
    cases hv
    exact hint rfl
  | solver =>
    have hsolver : s.toOptions .solver = s.solver.elim .absent .solver := rfl
    rw [hsolver] at hv
    cases hasked : s.solver with
    | none =>
      rw [hasked] at hv
      cases hv
    | some own =>
      rw [hasked] at hv
      cases hv
      exact ⟨none, rfl⟩
  | _ =>
    cases hv
    exact ⟨_, rfl⟩

/-! ### The steps -/

omit [IsStrictOrderedRing K] in
/-- The solver is asked for again. -/
theorem solver_again (h : s.IsSettled invoker n) :
    (solver (again s invoker n bounds)).Results invoker.name s.solver [] := by
  have hanswered := solver_answered (again s invoker n bounds)
  have hfind : (again s invoker n bounds).find? .solver = s.solver.map fun own => .text own.name := by
    rw [find?_again]
    show (s.solver.elim Value.absent Value.solver).written? = _
    cases s.solver <;> rfl
  cases hsolver : s.solver with
  | none =>
    rw [hsolver, Option.map_none] at hfind
    cases invoker with
    | frontEnd =>
      unfold solver
      rw [hfind]
      exact .pure none
    | solver own => cases hsolver.symm.trans (h.solver own rfl)
  | some own =>
    have hparse : Solver.parse? own.name = some own := by cases own <;> decide +kernel
    rw [hsolver, Option.map_some] at hfind
    refine hanswered.results hfind ?_
    have hname := requestedName_text (α := Extended K) own.name
    cases invoker with
    | frontEnd =>
      have hother : own.name.toLower ≠ Invoker.frontEnd.name := by
        intro hfront
        cases hparse.symm.trans (parse?_frontEnd hfront)
      show choiceRule.accepts _ = _
      simp only [choiceRule, hname, if_neg hother, hparse, Option.map_some]
    | solver other =>
      obtain rfl := Option.some.inj (hsolver.symm.trans (h.solver other rfl))
      show (ownRule own).accepts _ = _
      simp only [ownRule, hname, hparse, if_true]

/-- The points are accepted, or there is no choice of them, unless they are out of the range of doubles. -/
theorem npt_again (h : s.IsSettled invoker n) :
    (npt (again s invoker n bounds) s.solver).Results invoker.name s.npt [] ∨
      (npt (again s invoker n bounds) s.solver).FailsWith .overflow ∧
        ∃ m, s.npt = some m ∧ fits m = false := by
  have hpoints := h.points
  cases hsolver : s.solver with
  | none =>
    rw [hsolver] at hpoints
    rw [hpoints]
    exact .inl (.pure none)
  | some own =>
    rw [hsolver] at hpoints
    obtain ⟨m, hm, hrange⟩ := hpoints
    have hoption : s.toOptions .npt = .int m := by
      show s.npt.elim Value.absent Value.int = _
      rw [hm]
      rfl
    have hfind : (again s invoker n bounds).find? .npt = some (.int m) := by
      rw [find?_again, hoption]
      rfl
    rw [hm]
    rw [Solver.Samples] at hrange
    split at hrange
    · next htakes =>
      cases hfits : fits m with
      | true =>
        left
        have hreads : (again s invoker n bounds).Reads .npt := by
          refine reads_again .npt fun k hk => ?_
          rw [hoption] at hk
          cases hk
          exact hfits
        refine (npt_answered hreads htakes).results hfind ?_
        simp [nptRule, whole?_int (K := K) hfits, again, hrange]
      | false =>
        right
        refine ⟨?_, m, rfl, hfits⟩
        simp only [npt, hfind, htakes]
        exact .bind (.lift (integerScalar?_of_not_fits hfits))
    · next hfixed =>
      left
      have hnone : (some own).any Solver.takesNpt = false := by simpa using hfixed
      rw [hrange]
      exact npt_results hnone

/-- The budget is accepted. -/
theorem maxfun_again (h : s.IsSettled invoker n) (hfits : fits s.maxfun = true) :
    (maxfun (again s invoker n bounds) s.solver s.npt).Results invoker.name s.maxfun [] := by
  have hfind : (again s invoker n bounds).find? .maxfun = some (.int s.maxfun) :=
    find?_again s invoker n bounds .maxfun
  have hreads : (again s invoker n bounds).Reads .maxfun := by
    refine reads_again .maxfun fun m hm => ?_
    cases hm
    exact hfits
  have hnone : s.solver = none ↔ s.npt = none := by
    rw [← Option.not_isSome_iff_eq_none, ← Option.not_isSome_iff_eq_none, h.isSome_npt]
  have haccepts : (maxfunRule n s.solver s.npt).accepts (.int s.maxfun : Value (Extended K))
      = some s.maxfun := by
    have hrange : 0 < s.maxfun ∧ leastBudget n s.npt ≤ s.maxfun := ⟨h.budget_pos, h.budget⟩
    simp only [maxfunRule, whole?_int (K := K) hfits, Option.filter_some, hrange]
    rfl
  exact (maxfun_answered s.solver s.npt hreads hnone).results hfind haccepts

/-- A setting that is no integer is read. -/
theorem reads_again_of_ne {name : OptionName} (hnpt : name ≠ .npt) (hmaxfun : name ≠ .maxfun) :
    (again s invoker n bounds).Reads name := by
  refine reads_again name fun m hm => ?_
  cases name with
  | npt => exact absurd rfl hnpt
  | maxfun => exact absurd rfl hmaxfun
  | solver =>
    have hsolver : s.solver.elim Value.absent Value.solver = .int m := hm
    cases hasked : s.solver with
    | none => rw [hasked] at hsolver; cases hsolver
    | some own => rw [hasked] at hsolver; cases hsolver
  | _ => cases hm

/-- The first radius is accepted: the solver does not limit it. -/
theorem rhobeg_again (h : s.IsSettled invoker n) (hwidth : ∃ w, bounds.halfWidth = .ok w)
    (default : Extended K) :
    (rhobeg (again s invoker n bounds) s.solver default).Results invoker.name s.rhobeg [] := by
  obtain ⟨halfWidth, hwidth⟩ := hwidth
  have hlimit : radiusLimit? s.solver halfWidth = none := by
    have hunlimited := h.unlimited
    rw [radiusLimit?, Option.map_eq_none_iff, Option.filter_eq_none_iff]
    intro own hown hlimits
    rw [hown, Option.any_some, hlimits] at hunlimited
    cases hunlimited
  have hanswered := rhobeg_answered (c := again s invoker n bounds) s.solver default
    (reads_again_of_ne (by decide) (by decide)) (reads_again_of_ne (by decide) (by decide)) hwidth
  refine hanswered.results (find?_again s invoker n bounds .rhobeg) ?_
  have hreal : (Value.real s.rhobeg : Value (Extended K)).real? = some s.rhobeg := rfl
  simp [rhobegRule, Settings.toOptions, hreal, hlimit,
    pos_of_epsilon_le h.epsilon_le_rhobeg, larger_epsilon_eq h.epsilon_le_rhobeg]

/-- The last radius is accepted: it is at most the first one. -/
theorem rhoend_again (h : s.IsSettled invoker n) (ratio : Extended K) :
    (rhoend (again s invoker n bounds) s.rhobeg ratio).Results invoker.name s.rhoend [] := by
  have hanswered := rhoend_answered (c := again s invoker n bounds) s.rhobeg ratio
    (reads_again_of_ne (by decide) (by decide))
  refine hanswered.results (find?_again s invoker n bounds .rhoend) ?_
  have hreal : (Value.real s.rhoend : Value (Extended K)).real? = some s.rhoend := rfl
  simp [rhoendRule, Settings.toOptions, hreal, h.rhoend_le_rhobeg,
    larger_epsilon_eq h.epsilon_le_rhoend]

theorem ftarget_again :
    (ftarget (again s invoker n bounds)).Results invoker.name s.ftarget [] :=
  (ftarget_answered (reads_again_of_ne (by decide) (by decide))).results
    (find?_again s invoker n bounds .ftarget) rfl

/-- The flags are accepted. -/
theorem flag_again (name : FlagName) {b : Bool} (hname : s.toOptions name.option = .bool b) :
    (flag (again s invoker n bounds) name).Results invoker.name b [] := by
  have hfind : (again s invoker n bounds).find? name.option = some (.bool b) := by
    rw [find?_again, hname]
    rfl
  exact (flag_answered name (reads_again_of_ne (by cases name <;> decide)
    (by cases name <;> decide))).results hfind rfl

/-- The check of function values is accepted: it is on in debug mode only. -/
theorem chkfunval_again (h : s.IsSettled invoker n) :
    (chkfunval (again s invoker n bounds) s.debug).Results invoker.name s.chkfunval [] := by
  have hanswered := chkfunval_answered (c := again s invoker n bounds) s.debug
    (reads_again_of_ne (by decide) (by decide))
  refine hanswered.results (find?_again s invoker n bounds .chkfunval) ?_
  have htruth : (Value.bool s.chkfunval : Value (Extended K)).truth? = some s.chkfunval := rfl
  have hcheck : (s.debug || !s.chkfunval) = true := by
    cases hchkfunval : s.chkfunval with
    | false => simp
    | true => simp [h.check hchkfunval]
  simp [chkfunvalRule, Settings.toOptions, htruth, hcheck]

/-! ### The whole resolution -/

omit [IsStrictOrderedRing K] in
theorem defaultRadii_again (h : s.IsSettled invoker n) :
    defaultRadii (again s invoker n bounds) s.solver = .ok (defaultRhobeg, defaultRhoend) :=
  if_neg (by rw [h.unlimited]; exact Bool.false_ne_true)

omit [IsStrictOrderedRing K] in
theorem checkUnknown_again (h : s.IsSettled invoker n) :
    (checkUnknown (again s invoker n bounds) s.solver).Results invoker.name ()
      (if s.solver = some .uobyqa ∨ s.solver = some .cobyla then [.unknownOptions ["npt"]] else []) := by
  have hresults := checkUnknown_results (c := again s invoker n bounds)
    (Value.isDictionary_setOptions s.toOptions) s.solver
  rw [unknownTexts_again s invoker n bounds h.isSome_npt] at hresults
  split
  · next hlacks =>
    rw [if_pos hlacks, unknownReport, List.mergeSort_singleton] at hresults
    exact hresults
  · next hall =>
    rw [if_neg hall] at hresults
    exact hresults

/-- Settled settings are resolved to themselves. -/
theorem settings_again (h : s.IsSettled invoker n) (hwidth : ∃ w, bounds.halfWidth = .ok w)
    (hfits : fits s.maxfun = true) :
    (settings (again s invoker n bounds)).Results invoker.name s s.notes := by
  have hnpt : (npt (again s invoker n bounds) s.solver).Results invoker.name s.npt [] := by
    refine (npt_again h).resolve_right ?_
    rintro ⟨-, m, hm, hhuge⟩
    -- the budget exceeds the points
    have hone := h.one_le_of_npt hm
    have hbudget := h.budget
    rw [hm, leastBudget, Option.elim] at hbudget
    rw [fits_of_le (k := s.maxfun) (by omega) (by omega) hfits] at hhuge
    cases hhuge
  have hclassical : (flag (again s invoker n bounds) .classical).Results invoker.name s.classical [] :=
    flag_again .classical rfl
  have hscale : (flag (again s invoker n bounds) .scale).Results invoker.name s.scale [] :=
    flag_again .scale rfl
  have hquiet : (flag (again s invoker n bounds) .quiet).Results invoker.name s.quiet [] :=
    flag_again .quiet rfl
  have hdebug : (flag (again s invoker n bounds) .debug).Results invoker.name s.debug [] :=
    flag_again .debug rfl
  rw [settings_eq, Settings.notes, ← List.append_nil (if s.chkfunval = true then _ else _)]
  refine .bind_silent (solver_again h) ?_
  refine .bind (checkUnknown_again h) ?_
  refine .bind_of_ok (defaultRadii_again h) ?_
  refine .bind_silent hnpt <| .bind_silent (maxfun_again h hfits) ?_
  refine .bind_silent (rhobeg_again h hwidth _) <| .bind_silent (rhoend_again h _) ?_
  refine .bind_silent ftarget_again <| .bind_silent hclassical ?_
  refine .report_step <| .bind_silent hscale <| .bind_silent hquiet <| .bind_silent hdebug ?_
  refine .report_step <| .bind_silent (chkfunval_again h) ?_
  exact .report_step <| .pure _

/-- Settings with a budget out of the range of doubles cannot be read again. -/
theorem settings_again_overflow (h : s.IsSettled invoker n) (hfits : fits s.maxfun = false) :
    (settings (again s invoker n bounds)).FailsWith .overflow := by
  have hmaxfun : (maxfun (again s invoker n bounds) s.solver s.npt).FailsWith .overflow := by
    simp only [maxfun, find?_again]
    exact .bind (.lift (integerScalar?_of_not_fits hfits))
  rw [settings_eq]
  refine .of_results (solver_again h) <| .of_results (checkUnknown_again h) ?_
  refine .of_read (defaultRadii_again h) ?_
  rcases npt_again h with hnpt | ⟨hnpt, -⟩
  · exact .of_results hnpt <| .bind hmaxfun
  · exact .bind hnpt

end Resolution

variable [IsStrictOrderedRing K] [Interchange (Extended K)] {s : Settings (Extended K)}
  {invoker : Invoker} {n : Nat} {bounds : Bounds (Extended K)} {options : Value (Extended K)}

/-- Options are resolved to settled settings, unless the solver limits its first radius, and the width of the
bounds has been read. -/
theorem isSettled_of_resolveOptions (hn : 0 < n) (hsolver : s.solver ≠ some .bobyqa)
    (h : (resolveOptions invoker options n bounds).Yields s) :
    s.IsSettled invoker n ∧ ∃ w, bounds.halfWidth = .ok w := by
  obtain ⟨entries, -, hsettings⟩ := resolveOptions_yields h
  have hunlimited : s.solver.any Solver.limitsRadius = false := by
    cases hasked : s.solver with
    | none => rfl
    | some own =>
      cases own with
      | bobyqa => exact absurd hasked hsolver
      | _ => rfl
  obtain ⟨_, _, -, hfirst, -⟩ := (Resolution.settings_yields hsettings).radii
  obtain ⟨halfWidth, hwidth, -⟩ := Resolution.rhobeg_yields hfirst
  exact ⟨Resolution.isSettled_of_yields hn hsettings hunlimited, halfWidth, hwidth⟩

/-- Options that were resolved for a solver without a limit for its first radius, or for none, are resolved to
themselves for the same invoker, number of variables and bounds. Nothing is reported but the modes that are
on, and the number of points where the solver has no such option. Only a budget out of the range of doubles
cannot be read again. -/
theorem resolveOptions_again {e : Option Category} (hn : 0 < n) (hsolver : s.solver ≠ some .bobyqa)
    (h : (Prep.run e (resolveOptions invoker options n bounds)).1 = .ok s) :
    (Scalar.fits s.maxfun = true →
      (resolveOptions invoker (.options s.toOptions) n bounds).Results invoker.name s s.notes) ∧
    (Scalar.fits s.maxfun = false →
      (Prep.run none (resolveOptions invoker (.options s.toOptions) n bounds)).1 = .error .overflow) := by
  have hsettled := isSettled_of_resolveOptions hn hsolver (Prep.yields_of_outcome (Prod.ext h rfl))
  constructor
  · intro hfits
    have hresults : (Resolution.settings (Resolution.again s invoker n bounds)).Results invoker.name s
        s.notes := Resolution.settings_again hsettled.1 hsettled.2 hfits
    exact .bind_of_ok rfl hresults
  · intro hfits
    have hfails : (Resolution.settings (Resolution.again s invoker n bounds)).FailsWith .overflow :=
      Resolution.settings_again_overflow hsettled.1 hfits
    exact Prep.FailsWith.of_read rfl hfails {}

end

/-- Options with a budget below the points of the solver, and a last radius that exceeds the first one. -/
def hastyOptions : Entries (Extended ℚ) :=
  [(.text "maxfun", .int 3), (.text "rhoend", .real (.finite 5)), (.text "rhobeg", .real (.finite 2)),
    (.text "classical", .bool true), (.text "debug", .bool true), (.text "chkfunval", .int 1)]

/-- The first resolution corrects the options; the second one keeps them and notes the modes. -/
theorem resolveOptions_again_hastyOptions : ∃ s,
    (Prep.run none (resolveOptions (.solver .cobyla) (.mapping hastyOptions) 2 (.free 2))).1 = .ok s ∧
      (s.npt, s.maxfun) = (some 3, 4) ∧
      (resolveOptions (.solver .cobyla) (.options s.toOptions) 2 (.free 2)).Results "cobyla" s
        [.unknownOptions ["npt"], .classicalMode, .debugMode, .checkMode (some .cobyla)] := by
  have hrun : (Prep.run none (resolveOptions (.solver .cobyla) (.mapping hastyOptions) 2
      (.free 2))).1.toOption.map
        (fun s => (s.solver, s.npt, s.maxfun, [s.classical, s.debug, s.chkfunval]))
      = some (some .cobyla, some 3, 4, [true, true, true]) := by
    decide +kernel
  obtain ⟨s, hs, hsettings⟩ := exists_of_toOption_map hrun
  simp only [Prod.mk.injEq, List.cons.injEq, and_true] at hsettings
  obtain ⟨hsolver, hnpt, hmaxfun, hclassical, hdebug, hchkfunval⟩ := hsettings
  have hnotes : s.notes
      = [.unknownOptions ["npt"], .classicalMode, .debugMode, .checkMode (some .cobyla)] := by
    simp [Settings.notes, hsolver, hclassical, hdebug, hchkfunval]
  have hagain := (resolveOptions_again (by decide) (by rw [hsolver]; decide) hs).1 (by
    rw [hmaxfun]
    decide +kernel)
  rw [hnotes] at hagain
  exact ⟨s, hs, by rw [hnpt, hmaxfun], hagain⟩

end Presolve
