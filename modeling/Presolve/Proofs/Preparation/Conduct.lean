import Presolve.Proofs.Preparation.Refusal
import Presolve.Proofs.Solver.Consulted
import Presolve.Proofs.Transform.Start

/-!
# The conduct of the stages

What the stages of a preparation may report and how they may fail. No stage but the comparison with the
kind of the problem ends in a refusal, and every stage has anomalies of its own: reading reports a missing
objective, resolution what is wrong with the options, and so on. A stage is *discreet* about some anomalies
if it reports no others and does not refuse the problem.
-/

namespace Presolve

open Scalar

variable {α β γ : Type}

/-- Is it an anomaly of the solver that was asked for? -/
def Anomaly.blamesSolver : Anomaly α → Bool
  | foreignSolver | unsuitableSolver _ _ => true
  | _ => false

/-- The anomalies of a solver that was asked for have a tag of their own. -/
theorem Anomaly.tag_eq_iff (a : Anomaly α) : a.tag = "InvalidSolver" ↔ a.blamesSolver = true := by
  cases a with
  | invalidFlag flag => cases flag <;> simp [tag, FlagName.tag, blamesSolver]
  | _ => simp [tag, blamesSolver]

/-- Is it an anomaly of the options? Only a solver can say that another one was asked for. -/
def Anomaly.OfOptions (invoker : Invoker) : Anomaly α → Prop
  | noObjective | unknownFields _ | unsuitableSolver _ _ | revisedStart | rescaled => False
  | foreignSolver => invoker ≠ .frontEnd
  | _ => True

/-- Is it an anomaly of the solver that the options ask for? -/
def Anomaly.OfAsked (invoker : Invoker) : Anomaly α → Prop
  | unknownSolver => True
  | foreignSolver => invoker ≠ .frontEnd
  | _ => False

/-- Is it an anomaly of an option beside the solver, or the note of a mode? -/
def Anomaly.OfSetting : Anomaly α → Prop
  | noObjective | unknownFields _ | unknownSolver | foreignSolver | unsuitableSolver _ _
  | unknownOptions _ | revisedStart | rescaled => False
  | _ => True

theorem Anomaly.OfAsked.ofOptions {invoker : Invoker} {a : Anomaly α} (h : a.OfAsked invoker) :
    a.OfOptions invoker := by
  cases a with
  | unknownSolver => trivial
  | foreignSolver => exact h
  | _ => exact h.elim

theorem Anomaly.OfSetting.ofOptions {a : Anomaly α} (h : a.OfSetting) (invoker : Invoker) :
    a.OfOptions invoker := by
  cases a with
  | noObjective | unknownFields _ | unknownSolver | foreignSolver | unsuitableSolver _ _
  | unknownOptions _ | revisedStart | rescaled => exact h.elim
  | _ => trivial

/-- About options the front end does not blame the solver that it was asked for. -/
theorem Anomaly.OfOptions.blamesSolver {a : Anomaly α} (h : a.OfOptions .frontEnd) :
    a.blamesSolver = false := by
  cases a with
  | foreignSolver => exact absurd rfl h
  | unsuitableSolver s kind => exact h.elim
  | _ => rfl

/-- The stage reports only anomalies `a` with `A a` and does not refuse the problem. -/
def Discreet (invoker : Invoker) (A : Anomaly α → Prop) (p : Prep α β) : Prop :=
  Prep.Within invoker.name A (fun x => ¬x.IsRefusal) p

namespace Discreet

variable {invoker : Invoker} {A : Anomaly α → Prop} {p : Prep α β}

theorem pure (b : β) : Discreet invoker A (Pure.pure b : Prep α β) := Prep.Within.pure b

theorem lift {x : Except Fault β} (h : NeverRefuses x) : Discreet invoker A (liftM x : Prep α β) :=
  Prep.Within.lift h

theorem leave (v : Event α) : Discreet invoker A (Prep.leave v) := Prep.Within.leave v

theorem report [Interchange α] {a : Anomaly α} (h : A a) :
    Discreet invoker A (Prep.report invoker.name a) :=
  Prep.Within.report h fun _ _ => Fault.not_isRefusal_of_report? rfl

theorem bind {f : β → Prep α γ} (hp : Discreet invoker A p) (hf : ∀ b, Discreet invoker A (f b)) :
    Discreet invoker A (p >>= f) := Prep.Within.bind hp hf

theorem ite {c : Prop} [Decidable c] {p q : Prep α β} (hp : Discreet invoker A p)
    (hq : Discreet invoker A q) : Discreet invoker A (if c then p else q) := Prep.Within.ite hp hq

theorem step {c : Prop} [Decidable c] {s : Prep α Unit} {g : Unit → Prep α γ}
    (hs : Discreet invoker A s) (hg : Discreet invoker A (g ())) :
    Discreet invoker A (if c then s >>= g else g ()) := Prep.Within.step hs hg

/-- A stage may be discreet about more anomalies than it reports. -/
theorem mono {B : Anomaly α → Prop} (hp : Discreet invoker A p) (h : ∀ a, A a → B a) :
    Discreet invoker B p := Prep.Within.mono hp h

/-- What a discreet stage fails with is no refusal. -/
theorem not_isRefusal (invoker : Invoker) {e : Option Category} {j : Journal α} {x : Fault}
    (hp : Discreet invoker A p) (hx : (p.outcome e j).1 = .error x) : ¬x.IsRefusal := (hp e j).2 x hx

end Discreet

variable [Scalar α] [Interchange α]

/-! ## Checking and elimination -/

/-- Reading an objective reports nothing but that there is none. -/
theorem readObjective_within {A : Anomaly α → Prop} (hA : A .noObjective) (source : String)
    (v : Value α) : Prep.Within source A (fun _ => True) (readObjective source v) := by
  refine .ite ?_ ?_
  · refine (Prep.Within.report hA fun _ _ => trivial).bind fun _ => ?_
    refine (Prep.Within.pure _).bind fun objective => ?_
    beta_reduce
    split
    · exact .pure _
    · exact .throw trivial
  · refine (Prep.Within.pure _).bind fun objective => ?_
    beta_reduce
    split
    · exact .pure _
    · exact .throw trivial

/-- Reading the systems reports nothing. -/
theorem readLinear_within {A : Anomaly α → Prop} (source : String) (n : Nat) (i : Input α) :
    Prep.Within source A (fun _ => True) (readLinear source n i) := by
  refine (Prep.Within.lift fun _ _ => trivial).bind fun linear => ?_
  exact .step (.leave _) (.pure _)

/-- Checking an input reports nothing but a missing objective. -/
theorem check_within {A : Anomaly α → Prop} (hA : A .noObjective) (source : String) (i : Input α) :
    Prep.Within source A (fun _ => True) (check source i) := by
  refine (readObjective_within hA source _).bind fun objective => ?_
  refine (Prep.Within.lift fun _ _ => trivial).bind fun start => ?_
  refine (readLinear_within source _ i).bind fun linear => ?_
  refine (Prep.Within.lift fun _ _ => trivial).bind fun bounds => ?_
  refine (Prep.Within.lift fun _ _ => trivial).bind fun facts => ?_
  refine (Prep.Within.lift fun _ _ => trivial).bind fun constraints => ?_
  -- the violation is found only where every variable is fixed
  refine .ite (Prep.Within.bind ?_ fun violation => ?_) ((Prep.Within.pure none).bind fun _ => ?_)
  · rw [← bind_pure_comp]
    exact (Prep.Within.lift fun _ _ => trivial).bind fun _ => .pure _
  · exact .step (.leave _) (.pure _)
  · exact .step (.leave _) (.pure _)

omit [Interchange α] in
/-- Elimination reports nothing. -/
theorem reduce_within {A : Anomaly α → Prop} (source : String) (c : Checked α) :
    Prep.Within source A (fun _ => True) (reduce c) := by
  refine .ite ?_ (.pure _)
  refine (Prep.Within.lift fun _ _ => trivial).bind fun reduced => ?_
  exact (Prep.Within.leave _).bind fun _ => .pure _

/-! ## Resolution -/

omit [Interchange α] in
theorem Bounds.halfWidth_neverRefuses (b : Bounds α) : NeverRefuses b.halfWidth := by
  unfold halfWidth
  split
  · exact .ok _
  · refine (entrywise_neverRefuses _ _ _).bind fun widths => ?_
    split
    · exact .ok _
    · exact .error (Fault.not_isRefusal_of_report? rfl)

namespace Resolution

variable {c : Context α}

omit [Scalar α] in
theorem solver_discreet (c : Context α) : Discreet c.invoker (Anomaly.OfAsked c.invoker) (solver c) := by
  unfold solver
  split
  · exact .pure none
  · exact .step (.report trivial) (.pure _)
  · exact .pure _
  · next s value hinvoker hvalue =>
    refine .step (.report ?_) (.pure _)
    show c.invoker ≠ .frontEnd
    rw [hinvoker]
    exact Invoker.noConfusion

omit [Scalar α] in
theorem keyTexts_neverRefuses (keys : List (Value α)) : NeverRefuses (keyTexts keys) := by
  unfold keyTexts
  split
  · next key => exact key.toText_neverRefuses.map _
  · refine NeverRefuses.bind (.mapM fun key => ?_) fun _ => .ok _
    split
    · exact .ok _
    · exact .error (Fault.not_isRefusal_of_report? rfl)

omit [Scalar α] in
theorem checkUnknown_discreet (c : Context α) (s? : Option Solver) :
    Discreet c.invoker (Anomaly.OfOptions c.invoker) (checkUnknown c s?) := by
  rw [checkUnknown]
  split
  · exact (Discreet.lift (keyTexts_neverRefuses _)).bind fun _ => .report trivial
  · exact .pure ()

theorem npt_discreet (c : Context α) (s? : Option Solver) :
    Discreet c.invoker Anomaly.OfSetting (npt c s?) := by
  cases s? with
  | none => exact .pure none
  | some s =>
    simp only [npt]
    split
    · next value _ _ =>
      refine (Discreet.lift value.integerScalar?_neverRefuses).bind fun asked? => ?_
      cases asked? with
      | none => exact (Discreet.report trivial).bind fun _ => .pure _
      | some asked => exact .ite (.pure _) ((Discreet.report trivial).bind fun _ => .pure _)
    · exact .pure _

theorem maxfun_discreet (c : Context α) (s? : Option Solver) (m? : Option Int) :
    Discreet c.invoker Anomaly.OfSetting (maxfun c s? m?) := by
  simp only [maxfun]
  split
  · exact .pure _
  · next value _ =>
    refine (Discreet.lift value.integerScalar?_neverRefuses).bind fun asked? => ?_
    cases asked? with
    | none => exact (Discreet.report trivial).bind fun _ => .pure _
    | some asked =>
      refine .ite ((Discreet.report trivial).bind fun _ => .pure _) ?_
      split
      · exact .ite ((Discreet.report trivial).bind fun _ => .pure _) (.pure _)
      · exact .ite ((Discreet.report trivial).bind fun _ => .pure _) (.pure _)
      · exact .pure _

theorem defaultRadii_neverRefuses (c : Context α) (s? : Option Solver) :
    NeverRefuses (defaultRadii c s?) := by
  unfold defaultRadii
  split
  · refine c.bounds.halfWidth_neverRefuses.bind fun halfWidth => ?_
    split
    · exact (Value.flag?_neverRefuses _).bind fun _ => .ok _
    · exact .ok _
  · exact .ok _

theorem fallbackRhobeg_neverRefuses (c : Context α) (default : α) :
    NeverRefuses (fallbackRhobeg c default) := by
  unfold fallbackRhobeg
  split
  · exact .ok _
  · exact (Value.realScalar?_neverRefuses _).map _

theorem rhobeg_discreet (c : Context α) (s? : Option Solver) (default : α) :
    Discreet c.invoker Anomaly.OfSetting (rhobeg c s? default) := by
  have hfallback : Discreet c.invoker Anomaly.OfSetting
      (liftM (fallbackRhobeg c default) : Prep α α) :=
    .lift (fallbackRhobeg_neverRefuses c default)
  refine (Discreet.lift c.bounds.halfWidth_neverRefuses).bind fun halfWidth => ?_
  split
  · exact hfallback.bind fun _ => .pure _
  · next value _ =>
    refine (Discreet.lift value.realScalar?_neverRefuses).bind fun asked? => ?_
    split
    · exact (Discreet.report trivial).bind fun _ => hfallback.bind fun _ => .pure _
    · split
      · exact .ite ((Discreet.report trivial).bind fun _ => .pure _) (.pure _)
      · exact .pure _

theorem rhoend_discreet (c : Context α) (rhobeg ratio : α) :
    Discreet c.invoker Anomaly.OfSetting (rhoend c rhobeg ratio) := by
  unfold rhoend
  split
  · exact .pure _
  · next value _ =>
    refine (Discreet.lift value.realScalar?_neverRefuses).bind fun asked? => ?_
    split
    · exact .pure _
    · exact (Discreet.report trivial).bind fun _ => .pure _

theorem ftarget_discreet (c : Context α) : Discreet c.invoker Anomaly.OfSetting (ftarget c) := by
  unfold ftarget
  split
  · exact .pure _
  · next value _ =>
    refine (Discreet.lift value.realScalar?_neverRefuses).bind fun asked? => ?_
    split
    · exact .pure _
    · exact (Discreet.report trivial).bind fun _ => .pure _

theorem flag_discreet (c : Context α) (name : FlagName) :
    Discreet c.invoker Anomaly.OfSetting (flag c name) := by
  unfold flag
  split
  · exact .pure _
  · next value _ =>
    refine (Discreet.lift value.flag?_neverRefuses).bind fun asked? => ?_
    split
    · exact .pure _
    · exact (Discreet.report trivial).bind fun _ => .pure _

theorem chkfunval_discreet (c : Context α) (debug : Bool) :
    Discreet c.invoker Anomaly.OfSetting (chkfunval c debug) := by
  unfold chkfunval
  split
  · exact .pure _
  · next value _ =>
    refine (Discreet.lift value.flag?_neverRefuses).bind fun asked? => ?_
    split
    · exact (Discreet.report trivial).bind fun _ => .pure _
    · exact .ite ((Discreet.report trivial).bind fun _ => .pure _) (.pure _)

theorem afterSolver_discreet (c : Context α) (s? : Option Solver) :
    Discreet c.invoker Anomaly.OfSetting (afterSolver c s?) := by
  refine (Discreet.lift (defaultRadii_neverRefuses c s?)).bind fun radii => ?_
  refine (npt_discreet c s?).bind fun npt => ?_
  refine (maxfun_discreet c s? npt).bind fun maxfun => ?_
  refine (rhobeg_discreet c s? _).bind fun rhobeg => ?_
  refine (rhoend_discreet c rhobeg _).bind fun rhoend => ?_
  refine (ftarget_discreet c).bind fun ftarget => ?_
  refine (flag_discreet c .classical).bind fun classical => ?_
  refine .step (.report trivial) ?_
  refine (flag_discreet c .scale).bind fun scale => ?_
  refine (flag_discreet c .quiet).bind fun quiet => ?_
  refine (flag_discreet c .debug).bind fun debug => ?_
  refine .step (.report trivial) ?_
  refine (chkfunval_discreet c debug).bind fun chkfunval => ?_
  exact .step (.report trivial) (.pure _)

theorem settings_discreet (c : Context α) :
    Discreet c.invoker (Anomaly.OfOptions c.invoker) (settings c) := by
  refine ((solver_discreet c).mono fun _ ha => ha.ofOptions).bind fun s? => ?_
  refine (checkUnknown_discreet c s?).bind fun _ => ?_
  exact (afterSolver_discreet c s?).mono fun _ ha => ha.ofOptions c.invoker

end Resolution

omit [Scalar α] [Interchange α] in
theorem readEntries_neverRefuses (source : String) (options : Value α) :
    NeverRefuses (readEntries source options) := by
  unfold readEntries
  split
  · exact .ok _
  · exact .ok _
  · exact .ok _
  · exact .error (Fault.not_isRefusal_invalid (by decide) source)

theorem resolveOptions_discreet (invoker : Invoker) (options : Value α) (n : Nat) (bounds : Bounds α) :
    Discreet invoker (Anomaly.OfOptions invoker) (resolveOptions invoker options n bounds) :=
  (Discreet.lift (readEntries_neverRefuses invoker.name options)).bind fun entries =>
    Resolution.settings_discreet ⟨invoker, n, bounds, entries⟩

/-! ## The start -/

/-- A search that fails does not refuse the problem: it knows nothing of solvers and kinds. -/
def NearestSearch.NeverRefuses (search : NearestSearch α) : Prop := ∀ q, Presolve.NeverRefuses (search q)

omit [Scalar α] [Interchange α] in
theorem NearestSearch.stay_neverRefuses : (stay : NearestSearch α).NeverRefuses := fun _ => .ok _

omit [Interchange α] in
theorem Bounds.clip_neverRefuses (b : Bounds α) (x : List α) : NeverRefuses (b.clip x) :=
  (entrywise_neverRefuses _ _ _).bind fun _ => entrywise_neverRefuses _ _ _

omit [Interchange α] in
theorem Problem.feasibleStart_neverRefuses {search : NearestSearch α} (hsearch : search.NeverRefuses)
    (kind : ProblemKind) (p : Problem α) : NeverRefuses (p.feasibleStart search kind) := by
  cases kind with
  | unconstrained | nonlinearlyConstrained => exact .ok _
  | boundConstrained => exact (p.bounds.clip_neverRefuses _).map _
  | linearlyConstrained =>
    refine (p.bounds.clip_neverRefuses _).bind fun clipped => ?_
    split
    · exact .error (Fault.not_isRefusal_of_report? rfl)
    · refine (hsearch p.nearestQuery).bind fun found => ?_
      cases found with
      | point x => exact (p.bounds.clip_neverRefuses x).bind fun _ => .ok _
      | failure reason => exact .ok _

theorem settleStart_discreet {search : NearestSearch α} (hsearch : search.NeverRefuses)
    (invoker : Invoker) (kind : ProblemKind) (f : Facts α) (p : Problem α) :
    Discreet invoker (· = .revisedStart) (settleStart search invoker.name kind f p) := by
  unfold settleStart
  split
  · exact .pure p
  · refine (Discreet.lift (p.feasibleStart_neverRefuses hsearch kind)).bind fun found => ?_
    have hrevised (start : List α) : Discreet invoker (· = .revisedStart) (do
        if ← (liftM (p.isRevised start) : Prep α Bool) then do
          Prep.report invoker.name .revisedStart
          return { p with start }
        else return p : Prep α (Problem α)) :=
      (Discreet.lift ((entrywise_neverRefuses _ _ _).bind fun _ => .ok _)).bind fun revised =>
        .ite ((Discreet.report (A := (· = .revisedStart)) rfl).bind fun _ => .pure _) (.pure _)
    obtain ⟨start, failure⟩ := found
    -- a search that did not converge leaves a trace, which is no report
    cases failure with
    | none => exact hrevised start
    | some reason => exact (Discreet.leave _).bind fun _ => hrevised start

/-! ## Rescaling -/

section

omit [Interchange α]

theorem Rescaling.toCanonical_neverRefuses (r : Rescaling α) (x : List α) :
    NeverRefuses (r.toCanonical x) :=
  (entrywise_neverRefuses _ _ _).bind fun _ => entrywise_neverRefuses _ _ _

theorem Rescaling.ofBounds_neverRefuses (start : List α) (b : Bounds α) :
    NeverRefuses (ofBounds start b) := by
  refine (entrywise_neverRefuses _ _ _).bind fun boxed => ?_
  refine (Mask.pick_neverRefuses _ _).bind fun lower => ?_
  refine (Mask.pick_neverRefuses _ _).bind fun upper => ?_
  refine (entrywise_neverRefuses _ _ _).bind fun widths => ?_
  refine (Mask.pick_neverRefuses _ _).bind fun others => ?_
  refine (Mask.fill_neverRefuses _ _ _).bind fun factor => ?_
  refine (entrywise_neverRefuses _ _ _).bind fun middles => ?_
  refine (Mask.fill_neverRefuses _ _ _).bind fun shift => ?_
  split
  · split
    · exact .error (Fault.not_isRefusal_defect _)
    · exact .ok _
  · exact .ok _

theorem Rescaling.rescaleSystem_neverRefuses (r : Rescaling α) (s : LinearSystem α) :
    NeverRefuses (r.rescaleSystem s) := by
  unfold rescaleSystem
  split
  · refine NeverRefuses.bind ?_ fun _ => NeverRefuses.bind ?_ fun _ => .ok _
    · exact (applyRows_neverRefuses _ _).bind fun _ => entrywise_neverRefuses _ _ _
    · exact .mapM fun _ => entrywise_neverRefuses _ _ _
  · exact .ok _

theorem Problem.rescale_neverRefuses (p : Problem α) : NeverRefuses p.rescale := by
  refine (Rescaling.ofBounds_neverRefuses _ _).bind fun r => ?_
  refine (r.rescaleSystem_neverRefuses _).bind fun ineq => ?_
  refine (r.rescaleSystem_neverRefuses _).bind fun eq => ?_
  refine (r.toCanonical_neverRefuses _).bind fun start => ?_
  refine (r.toCanonical_neverRefuses _).bind fun lower => ?_
  exact (r.toCanonical_neverRefuses _).bind fun upper => .ok _

theorem Rescaling.ratio_neverRefuses (r : Rescaling α) : NeverRefuses r.ratio := by
  unfold ratio
  split
  · exact .ok _
  · exact .error (Fault.not_isRefusal_of_report? rfl)

end

theorem rescaleIfAsked_discreet (invoker : Invoker) (f : Facts α) (p : Problem α) (s : Settings α) :
    Discreet invoker (· = .rescaled) (rescaleIfAsked invoker.name f p s) := by
  refine .ite ?_ (.pure _)
  refine Discreet.bind ?_ fun _ => .pure _
  refine (Discreet.lift p.rescale_neverRefuses).bind fun rescaled => ?_
  refine .step (Discreet.report (A := (· = .rescaled)) rfl) ?_
  refine (Discreet.lift (Rescaling.ratio_neverRefuses _)).bind fun ratio => ?_
  exact .ite ((Discreet.leave _).bind fun _ => .pure _) (.pure _)

/-! ## Selection -/

/-- Selecting a solver reports nothing but that the one that was asked for does not handle the problem. -/
theorem settleSolver_within (invoker : Invoker) (s : Settings α) (kind : ProblemKind) (p : Problem α) :
    Prep.Within invoker.name (fun a => ∃ solver kind, a = .unsuitableSolver solver kind) (fun _ => True)
      (settleSolver invoker s kind p) := by
  have hchoose : Prep.Within invoker.name (fun a => ∃ solver kind, a = .unsuitableSolver solver kind)
      (fun _ => True) (selectSolver.choose SelectionRule.table s kind p.dimension p.bounds) := by
    refine (Prep.Within.lift fun _ _ => trivial).bind fun rule => ?_
    refine .step (.throw trivial) ?_
    exact (Prep.Within.leave _).bind fun _ => .lift fun _ _ => trivial
  refine .ite ?_ (.pure s)
  refine .step (.throw trivial) ?_
  cases s.solver with
  | none => exact hchoose
  | some solver =>
    refine .ite ((Prep.Within.leave _).bind fun _ => .pure s) ?_
    exact (Prep.Within.report ⟨solver, kind, rfl⟩ fun _ _ => trivial).bind fun _ => hchoose

end Presolve
