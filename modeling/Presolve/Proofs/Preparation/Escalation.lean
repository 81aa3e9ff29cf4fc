import Presolve.Proofs.Escalation
import Presolve.Proofs.Number.Extended
import Presolve.Proofs.Preparation.Course
import Presolve.Proofs.Solver.Consulted

/-!
# Escalating warnings of a preparation

Every stage of a preparation is built from steps, so a caller who escalates a class of warnings only
decides where the preparation stops. The diagnostics of a record are the warnings that were issued, in
their order.
-/

namespace Presolve

open Scalar Prep

variable {α : Type} [Scalar α] [Interchange α]

/-! ## Checking and elimination -/

theorem readObjective_stepwise (source : String) (v : Value α) : (readObjective source v).Stepwise := by
  refine .ite ((Stepwise.report _ _).bind fun _ => (Stepwise.pure _).bind fun _ => ?_)
    ((Stepwise.pure _).bind fun _ => ?_)
  all_goals
    dsimp only
    split
    · exact .pure _
    · exact .throw _

theorem readLinear_stepwise (source : String) (n : Nat) (i : Input α) : (readLinear source n i).Stepwise :=
  (Stepwise.lift _).bind fun _ => .step (.leave _) (.pure _)

theorem check_stepwise (source : String) (i : Input α) : (check source i).Stepwise := by
  refine (readObjective_stepwise source _).bind fun objective => ?_
  refine (Stepwise.lift _).bind fun start => ?_
  refine (readLinear_stepwise source _ i).bind fun linear => ?_
  refine (Stepwise.lift _).bind fun bounds => ?_
  refine (Stepwise.lift _).bind fun facts => ?_
  refine (Stepwise.lift _).bind fun constraints => ?_
  refine .ite (.bind ?_ fun violation => ?_) ((Stepwise.pure none).bind fun _ => ?_)
  · exact (Stepwise.lift _).map _
  · exact .step (.leave _) (.pure _)
  · exact .step (.leave _) (.pure _)

theorem reduce_stepwise (c : Checked α) : (reduce c).Stepwise := by
  refine .ite ?_ (.pure _)
  exact (Stepwise.lift _).bind fun _ => (Stepwise.leave _).bind fun _ => .pure _

/-! ## Resolution -/

namespace Resolution

variable (c : Context α) (s? : Option Solver)

omit [Scalar α] in
theorem solver_stepwise : (solver c).Stepwise := by
  unfold solver
  split
  · exact .pure _
  · exact .step (.report _ _) (.pure _)
  · exact .pure _
  · exact .step (.report _ _) (.pure _)

omit [Scalar α] in
theorem checkUnknown_stepwise : (checkUnknown c s?).Stepwise := by
  rw [checkUnknown]
  split
  · exact (Stepwise.lift _).bind fun _ => .report _ _
  · exact .pure _

theorem npt_stepwise : (npt c s?).Stepwise := by
  unfold npt
  split
  · exact .pure _
  · dsimp only
    split
    · refine (Stepwise.lift _).bind fun asked? => ?_
      cases asked? with
      | none => exact .reported _ _ _
      | some asked => exact .ite (.pure _) (.reported _ _ _)
    · exact .pure _

theorem maxfun_stepwise (m? : Option Int) : (maxfun c s? m?).Stepwise := by
  simp only [maxfun]
  split
  · exact .pure _
  · refine (Stepwise.lift _).bind fun asked? => ?_
    cases asked? with
    | none => exact .reported _ _ _
    | some asked =>
      refine .ite (.reported _ _ _) ?_
      split
      · exact .ite (.reported _ _ _) (.pure _)
      · exact .ite (.reported _ _ _) (.pure _)
      · exact .pure _

theorem rhobeg_stepwise (default : α) : (rhobeg c s? default).Stepwise := by
  refine (Stepwise.lift _).bind fun halfWidth => ?_
  split
  · exact (Stepwise.lift _).bind fun _ => .pure _
  · refine (Stepwise.lift _).bind fun asked? => ?_
    split
    · exact (Stepwise.report _ _).bind fun _ => (Stepwise.lift _).bind fun _ => .pure _
    · split
      · exact .ite (.reported _ _ _) (.pure _)
      · exact .pure _

theorem rhoend_stepwise (rhobeg ratio : α) : (rhoend c rhobeg ratio).Stepwise := by
  unfold rhoend
  split
  · exact .pure _
  · refine (Stepwise.lift _).bind fun asked? => ?_
    split
    · exact .pure _
    · exact .reported _ _ _

theorem ftarget_stepwise : (ftarget c).Stepwise := by
  unfold ftarget
  split
  · exact .pure _
  · refine (Stepwise.lift _).bind fun asked? => ?_
    split
    · exact .pure _
    · exact .reported _ _ _

theorem flag_stepwise (name : FlagName) : (flag c name).Stepwise := by
  unfold flag
  split
  · exact .pure _
  · refine (Stepwise.lift _).bind fun asked? => ?_
    split
    · exact .pure _
    · exact .reported _ _ _

theorem chkfunval_stepwise (debug : Bool) : (chkfunval c debug).Stepwise := by
  unfold chkfunval
  split
  · exact .pure _
  · refine (Stepwise.lift _).bind fun asked? => ?_
    split
    · exact .reported _ _ _
    · exact .ite (.reported _ _ _) (.pure _)

theorem afterSolver_stepwise : (afterSolver c s?).Stepwise := by
  refine (Stepwise.lift _).bind fun radii => ?_
  refine (npt_stepwise c s?).bind fun npt => ?_
  refine (maxfun_stepwise c s? npt).bind fun maxfun => ?_
  refine (rhobeg_stepwise c s? _).bind fun rhobeg => ?_
  refine (rhoend_stepwise c rhobeg _).bind fun rhoend => ?_
  refine (ftarget_stepwise c).bind fun ftarget => ?_
  refine (flag_stepwise c .classical).bind fun classical => ?_
  refine .step (.report _ _) ?_
  refine (flag_stepwise c .scale).bind fun scale => ?_
  refine (flag_stepwise c .quiet).bind fun quiet => ?_
  refine (flag_stepwise c .debug).bind fun debug => ?_
  refine .step (.report _ _) ?_
  refine (chkfunval_stepwise c debug).bind fun chkfunval => ?_
  exact .step (.report _ _) (.pure _)

theorem settings_stepwise : (settings c).Stepwise := by
  refine (solver_stepwise c).bind fun s? => ?_
  exact (checkUnknown_stepwise c s?).bind fun _ => afterSolver_stepwise c s?

end Resolution

theorem resolveOptions_stepwise (invoker : Invoker) (options : Value α) (n : Nat) (bounds : Bounds α) :
    (resolveOptions invoker options n bounds).Stepwise :=
  (Stepwise.lift _).bind fun _ => Resolution.settings_stepwise _

/-! ## Start, rescaling and selection -/

theorem settleStart_stepwise (search : NearestSearch α) (source : String) (kind : ProblemKind)
    (f : Facts α) (p : Problem α) : (settleStart search source kind f p).Stepwise := by
  refine .ite (.pure p) ((Stepwise.lift _).bind fun found => ?_)
  have hrevised (start : List α) : Stepwise (do
      if ← (liftM (p.isRevised start) : Prep α Bool) then do
        Prep.report source .revisedStart
        return { p with start }
      else return p : Prep α (Problem α)) :=
    (Stepwise.lift _).bind fun _ => .ite (.reported _ _ _) (.pure _)
  obtain ⟨start, failure⟩ := found
  cases failure with
  | none => exact hrevised start
  | some reason => exact (Stepwise.leave _).bind fun _ => hrevised start

theorem rescaleIfAsked_stepwise (source : String) (f : Facts α) (p : Problem α) (s : Settings α) :
    (rescaleIfAsked source f p s).Stepwise := by
  refine .ite (.bind ?_ fun _ => .pure _) (.pure _)
  refine (Stepwise.lift _).bind fun rescaled => ?_
  refine .step (.report _ _) ?_
  refine (Stepwise.lift _).bind fun ratio => ?_
  exact .ite ((Stepwise.leave _).bind fun _ => .pure _) (.pure _)

theorem settleSolver_stepwise (invoker : Invoker) (s : Settings α) (kind : ProblemKind) (p : Problem α) :
    (settleSolver invoker s kind p).Stepwise := by
  have hchoose : (selectSolver.choose SelectionRule.table s kind p.dimension p.bounds).Stepwise := by
    refine (Stepwise.lift _).bind fun rule => ?_
    refine .step (.throw _) ?_
    exact (Stepwise.leave _).bind fun _ => .lift _
  refine .ite ?_ (.pure s)
  unfold selectSolver
  refine .step (.throw _) ?_
  cases s.solver with
  | none => exact hchoose
  | some solver =>
    refine .ite ((Stepwise.leave _).bind fun _ => .pure s) ?_
    exact (Stepwise.report _ _).bind fun _ => hchoose

/-! ## Whole preparations -/

theorem prepare_built (search : NearestSearch α) (invoker : Invoker) (i : Input α) :
    (prepare search invoker i).Built := by
  refine (check_stepwise invoker.name i).built.bind fun checked => ?_
  refine (reduce_stepwise checked).built.bind fun reduced => ?_
  refine (Built.leave _).bind fun _ => ?_
  refine (Built.lift _).bind fun _ => ?_
  refine (resolveOptions_stepwise invoker _ _ _).built.bind fun resolved => ?_
  refine (settleStart_stepwise search invoker.name _ _ _).built.bind fun settled => ?_
  refine (rescaleIfAsked_stepwise invoker.name _ _ _).built.bind fun rescaled => ?_
  refine (settleSolver_stepwise invoker _ _ _).built.bind fun settings => ?_
  exact Built.diagnostics.bind fun _ => (Built.leave _).bind fun _ => .pure _

theorem readFields_stepwise (source : String) (v : Value α) : (readFields source v).Stepwise := by
  cases v with
  | mapping entries =>
    unfold readFields
    refine .step (.throw _) ?_
    refine .ite ?_ ?_
    · refine (Stepwise.report _ _).bind fun _ => (Stepwise.pure _).bind fun objective => ?_
      exact .ite ((Stepwise.lift _).bind fun _ => (Stepwise.report _ _).bind fun _ => .pure _) (.pure _)
    · refine (Stepwise.pure _).bind fun objective => ?_
      exact .ite ((Stepwise.lift _).bind fun _ => (Stepwise.report _ _).bind fun _ => .pure _) (.pure _)
  | _ => exact .throw _

theorem prepareFields_built (search : NearestSearch α) (invoker : Invoker) (v : Value α) :
    (prepareFields search invoker v).Built :=
  (readFields_stepwise invoker.name v).built.bind fun i => prepare_built search invoker i

/-! ## Warnings of a preparation -/

/-- A preparation whose warnings are those that its record lists, numbered from zero. A caller who
escalates a class of warnings only decides where the preparation stops: at the first warning of the
class, or nowhere. -/
structure Prep.ReportsWarnings (p : Prep α (Record α)) : Prop where
  listed : ∀ r, (run none p).1 = .ok r → r.diagnostics = (run none p).2.log.issued
  numbered : ∀ r, (run none p).1 = .ok r → Record.diagnosticsJson r.diagnostics =
    .array ((run none p).2.log.issued.mapIdx fun (n : Nat) d =>
      .object [("sequence", .int n), ("warning_id", .text d.id), ("message", .text d.message)])
  stops : ∀ C : WarningClass,
    C.Stops {} (run none p).2.log.issued (run none p) (run C.escalation p)

omit [Scalar α] in
/-- What is built from steps, and lists the diagnostics of the journal, reports its warnings. -/
theorem Prep.Built.reportsWarnings {p : Prep α (Record α)} (hp : p.Built)
    (hentries : ∀ r, (run none p).1 = .ok r → r.diagnostics = (run none p).2.log.entries) :
    p.ReportsWarnings := by
  obtain ⟨added, hadded⟩ := hp.exists_issues {}
  have hissued : (run none p).2.log.issued = added := hadded.issued_eq
  have hlisted (r : Record α) (hr : (run none p).1 = .ok r) :
      r.diagnostics = (run none p).2.log.issued := by
    rw [hentries r hr, hissued]
    exact hadded.entries_eq
  refine ⟨hlisted, fun r hr => ?_, fun C => ?_⟩
  · rw [hlisted r hr, Record.diagnosticsJson, List.mapIdx_eq_zipIdx_map]
  · rw [hissued]
    exact hadded.stops C

/-- Both ways to prepare a problem, whatever is passed, list the warnings that they issue; and escalating
a class of warnings changes nothing but where they stop. -/
theorem prepare_reportsWarnings (search : NearestSearch α) (invoker : Invoker) :
    (∀ i, (prepare search invoker i).ReportsWarnings) ∧
      ∀ v, (prepareFields search invoker v).ReportsWarnings := by
  constructor
  · intro i
    refine (prepare_built search invoker i).reportsWarnings fun r hr => ?_
    exact (prepare_keeps (Prod.ext hr rfl)).1
  · intro v
    refine (prepareFields_built search invoker v).reportsWarnings fun r hr => ?_
    -- the record is the one that is made of the input that was read
    obtain ⟨i, l, -, hprepare⟩ := outcome_bind_eq_ok.1 (Prod.ext hr rfl :
      (prepareFields search invoker v).outcome none {} = (.ok r, (run none _).2))
    exact (prepare_keeps hprepare).1

/-- A caller who escalates what is wrong with options is still warned of the missing objective. -/
example : (run (WarningClass.ofCategory .recoverableOption).escalation
    (prepare NearestSearch.stay .frontEnd {
      start := .list [.int 1]
      options := .mapping [(.text "Scale", .int 1)] : Input (Extended ℚ) })).2.log.issued.map Diagnostic.id
        = ["pdfo:NoObjective"] := by decide +kernel

end Presolve
