import Presolve.Proofs.Outcome
import Presolve.Solver.Resolution

/-!
# What a resolution consults

A resolution looks at the keys of the options as a whole once, to report the unknown ones, and otherwise
looks options up under their names. Once the solver is known, only the options that it has are looked up.
So entries in which the same is found are resolved alike.
-/

namespace Presolve

open Scalar

variable {α : Type}

theorem OptionName.key_injective : Function.Injective key := by
  intro a b h
  rw [← Option.some.injEq, ← ofKey?_key a, h, ofKey?_key]

/-- Options are known by their keys. -/
theorem OptionName.isKeyOf_key {s? : Option Solver} {name : OptionName} :
    isKeyOf s? name.key = true ↔ name ∈ known s? := by
  rw [isKeyOf, Text.isAmong_ofString, decide_eq_true_iff, List.mem_map]
  constructor
  · rintro ⟨other, hother, hkey⟩
    rwa [← key_injective hkey]
  · intro h
    exact ⟨name, h, rfl⟩

namespace Resolution

/-! ## The options of a solver -/

theorem requestedName_text (name : String) : requestedName (.text name : Value α) = name := by
  simp [requestedName, Value.name?, Value.text?]

/-- The options that every solver has. -/
theorem mem_known_of_common {s? : Option Solver} {name : OptionName} (h : name ∈ OptionName.common) :
    name ∈ OptionName.known s? := by
  unfold OptionName.known
  cases s? with
  | none => exact h
  | some s =>
    by_cases htakes : s.takesNpt = true
    · simp [htakes, h]
    · simp [htakes, h]

theorem npt_mem_known {s? : Option Solver} :
    OptionName.npt ∈ OptionName.known s? ↔ ∃ s, s? = some s ∧ s.takesNpt = true := by
  unfold OptionName.known
  cases s? with
  | none => simp [OptionName.common]
  | some s =>
    by_cases htakes : s.takesNpt = true
    · simp [htakes]
    · simp [htakes, OptionName.common]

variable [Scalar α] [Interchange α] {c : Context α} {s? : Option Solver}

/-! ## The parts of a resolution -/

/-- What is left of a resolution once the solver is known and unknown options were reported. -/
def afterSolver (c : Context α) (s? : Option Solver) : Prep α (Settings α) := do
  let (rhobegDefault, rhoendDefault) ← defaultRadii c s?
  let npt ← npt c s?
  let maxfun ← maxfun c s? npt
  let rhobeg ← rhobeg c s? rhobegDefault
  let rhoend ← rhoend c rhobeg (radiusRatio rhobegDefault rhoendDefault)
  let ftarget ← ftarget c
  let classical ← flag c .classical
  if classical then c.report .classicalMode
  let scale ← flag c .scale
  let quiet ← flag c .quiet
  let debug ← flag c .debug
  if debug then c.report .debugMode
  let chkfunval ← chkfunval c debug
  if chkfunval then c.report (.checkMode s?)
  return { npt, maxfun, rhobeg, rhoend, ftarget, classical, scale, quiet, debug, chkfunval, solver := s? }

theorem settings_eq (c : Context α) :
    settings c = solver c >>= fun s? => checkUnknown c s? >>= fun _ => afterSolver c s? := rfl

/-! ## Entries in which values are found that are read alike -/

omit [Scalar α] [Interchange α] in
theorem rel_cases {R : Value α → Value α → Prop} {a b : Option (Value α)} (h : Option.Rel R a b) :
    (a = none ∧ b = none) ∨ ∃ v w, a = some v ∧ b = some w ∧ R v w := by
  cases h with
  | none => exact .inl ⟨rfl, rfl⟩
  | some h => exact .inr ⟨_, _, rfl, rfl, h⟩

/-- Two values that a resolution reads alike: as numbers, as flags and as the names of solvers. -/
structure ReadAlike (v w : Value α) : Prop where
  real : v.realScalar? = w.realScalar?
  flag : v.flag? = w.flag?
  name : requestedName v = requestedName w

namespace ReadAlike

theorem refl (v : Value α) : ReadAlike v v := ⟨rfl, rfl, rfl⟩

theorem integer {v w : Value α} (h : ReadAlike v w) : v.integerScalar? = w.integerScalar? := by
  rw [Value.integerScalar?, h.real]
  rfl

end ReadAlike

variable {entries : Entries α}

/-- Under a name values are found that are read alike, or nothing. -/
def FoundAlike (c : Context α) (entries : Entries α) (name : OptionName) : Prop :=
  Option.Rel ReadAlike (Context.find? { c with entries } name) (c.find? name)

theorem FoundAlike.of_eq {name : OptionName}
    (h : Context.find? { c with entries } name = c.find? name) : FoundAlike c entries name := by
  rw [FoundAlike, h]
  cases c.find? name with
  | none => exact .none
  | some v => exact .some (.refl v)

theorem solver_of_alike (h : FoundAlike c entries .solver) : solver { c with entries } = solver c := by
  rcases rel_cases h with ⟨hentries, hc⟩ | ⟨v, w, hentries, hc, hvw⟩
  · simp only [solver, hentries, hc]
    rfl
  · obtain ⟨invoker, n, bounds, old⟩ := c
    simp only [solver, hentries, hc]
    cases invoker with
    | frontEnd => simp only [hvw.name]; rfl
    | solver s => simp only [hvw.name]; rfl

/-- The rest of a resolution consults only the options that the solver has. -/
theorem afterSolver_of_alike (h : ∀ name ∈ OptionName.known s?, FoundAlike c entries name) :
    afterSolver { c with entries } s? = afterSolver c s? := by
  have hcommon (name : OptionName) (hname : name ∈ OptionName.common) :=
    rel_cases (h name (mem_known_of_common hname))
  have hradii : defaultRadii { c with entries } s? = defaultRadii c s? := by
    rcases hcommon .scale (by decide) with ⟨hentries, hc⟩ | ⟨v, w, hentries, hc, hvw⟩
    · simp only [defaultRadii, hentries, hc]
    · simp only [defaultRadii, hentries, hc, hvw.flag]
  have hnpt : npt { c with entries } s? = npt c s? := by
    cases s? with
    | none => rfl
    | some s =>
      cases htakes : s.takesNpt with
      | true =>
        rcases rel_cases (h .npt (npt_mem_known.2 ⟨s, rfl, htakes⟩)) with
          ⟨hentries, hc⟩ | ⟨v, w, hentries, hc, hvw⟩
        · simp only [npt, hentries, hc]
        · simp only [npt, htakes, hentries, hc, hvw.integer]; rfl
      | false =>
        -- whatever is found under its name, the number of points is the default
        simp only [npt, htakes]
        cases Context.find? { c with entries } .npt <;> cases c.find? .npt <;> rfl
  have hmaxfun (m? : Option Int) : maxfun { c with entries } s? m? = maxfun c s? m? := by
    rcases hcommon .maxfun (by decide) with ⟨hentries, hc⟩ | ⟨v, w, hentries, hc, hvw⟩
    · simp only [maxfun, hentries, hc]
    · simp only [maxfun, hentries, hc, hvw.integer]; rfl
  have hfallback (x : α) : fallbackRhobeg { c with entries } x = fallbackRhobeg c x := by
    rcases hcommon .rhoend (by decide) with ⟨hentries, hc⟩ | ⟨v, w, hentries, hc, hvw⟩
    · simp only [fallbackRhobeg, hentries, hc]
    · simp only [fallbackRhobeg, hentries, hc, hvw.real]
  have hrhobeg (x : α) : rhobeg { c with entries } s? x = rhobeg c s? x := by
    rcases hcommon .rhobeg (by decide) with ⟨hentries, hc⟩ | ⟨v, w, hentries, hc, hvw⟩
    · simp only [rhobeg, hfallback, hentries, hc]
    · simp only [rhobeg, hfallback, hentries, hc, hvw.real]; rfl
  have hrhoend (x y : α) : rhoend { c with entries } x y = rhoend c x y := by
    rcases hcommon .rhoend (by decide) with ⟨hentries, hc⟩ | ⟨v, w, hentries, hc, hvw⟩
    · simp only [rhoend, hentries, hc]
    · simp only [rhoend, hentries, hc, hvw.real]; rfl
  have hftarget : ftarget { c with entries } = ftarget c := by
    rcases hcommon .ftarget (by decide) with ⟨hentries, hc⟩ | ⟨v, w, hentries, hc, hvw⟩
    · simp only [ftarget, hentries, hc]
    · simp only [ftarget, hentries, hc, hvw.real]; rfl
  have hflag (name : FlagName) : flag { c with entries } name = flag c name := by
    rcases hcommon name.option (by cases name <;> decide) with ⟨hentries, hc⟩ | ⟨v, w, hentries, hc, hvw⟩
    · simp only [flag, hentries, hc]
    · simp only [flag, hentries, hc, hvw.flag]; rfl
  have hchkfunval (debug : Bool) : chkfunval { c with entries } debug = chkfunval c debug := by
    rcases hcommon .chkfunval (by decide) with ⟨hentries, hc⟩ | ⟨v, w, hentries, hc, hvw⟩
    · simp only [chkfunval, hentries, hc]
    · simp only [chkfunval, hentries, hc, hvw.flag]; rfl
  simp only [afterSolver, hradii, hnpt, hmaxfun, hrhobeg, hrhoend, hftarget, hflag, hchkfunval]
  rfl

/-- Options are resolved by how what is found under their names is read, and by what is unknown. -/
theorem settings_of_alike (h : ∀ name, FoundAlike c entries name)
    (hunknown : ∀ s?, checkUnknown { c with entries } s? = checkUnknown c s?) :
    settings { c with entries } = settings c := by
  rw [settings_eq, settings_eq, solver_of_alike (h .solver)]
  have hrest (s? : Option Solver) :
      (checkUnknown { c with entries } s? >>= fun _ => afterSolver { c with entries } s?)
        = checkUnknown c s? >>= fun _ => afterSolver c s? := by
    rw [hunknown, afterSolver_of_alike fun name _ => h name]
  exact congrArg _ (funext hrest)

/-! ### Entries in which the same is found -/

omit [Scalar α] in
theorem solver_congr (hfind : Context.find? { c with entries } .solver = c.find? .solver) :
    solver { c with entries } = solver c := by
  simp only [solver, hfind]
  rfl

theorem afterSolver_congr
    (hfind : ∀ name ∈ OptionName.known s?, Context.find? { c with entries } name = c.find? name) :
    afterSolver { c with entries } s? = afterSolver c s? :=
  afterSolver_of_alike fun name hname => .of_eq (hfind name hname)

theorem settings_congr (hfind : ∀ name, Context.find? { c with entries } name = c.find? name)
    (hunknown : ∀ s?, checkUnknown { c with entries } s? = checkUnknown c s?) :
    settings { c with entries } = settings c :=
  settings_of_alike (fun name => .of_eq (hfind name)) hunknown

end Resolution

end Presolve
