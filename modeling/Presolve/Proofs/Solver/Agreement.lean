import Presolve.Proofs.SideBySide
import Presolve.Solver.Resolution

/-!
# Options in two contexts

Two contexts *agree* if they are about as many variables with the same least width, and every option but the
solver is set alike in both. Whoever resolves the options, they are then resolved alike: the invoker only
appears in reports. What is left to compare are the two steps that ask who resolves the options and which
keys there are.
-/

namespace Presolve.Resolution

open Scalar

variable {α : Type} [Scalar α] [Interchange α]

/-- Two contexts with as many variables and the same least width, in which the options but the solver are set
alike. -/
structure Context.Agrees (c d : Context α) : Prop where
  n_eq : d.n = c.n
  halfWidth_eq : d.bounds.halfWidth = c.bounds.halfWidth
  find?_eq : ∀ name, name ≠ .solver → d.find? name = c.find? name

variable {D : Diagnostic α → Diagnostic α → Prop} {F : Fault → Fault → Prop} {c d : Context α}
  (h : Accord D F c.invoker.name d.invoker.name) (hcd : c.Agrees d)

include hcd in
theorem fallbackRhobeg_eq (default : α) : fallbackRhobeg d default = fallbackRhobeg c default := by
  unfold fallbackRhobeg
  rw [hcd.find?_eq .rhoend (by decide)]

include hcd in
theorem defaultRadii_eq (s? : Option Solver) : defaultRadii d s? = defaultRadii c s? := by
  unfold defaultRadii
  rw [hcd.halfWidth_eq, hcd.find?_eq .scale (by decide)]

include h hcd

theorem npt_mirrors (s? : Option Solver) : Prep.Mirrors D F Eq (npt c s?) (npt d s?) := by
  cases s? with
  | none => exact .pure rfl
  | some s =>
    simp only [npt, hcd.n_eq, hcd.find?_eq .npt (by decide)]
    split
    · next value _ _ =>
      refine (Prep.Mirrors.same h.refl _).bind_same fun asked? => ?_
      cases asked? with
      | none => exact (Prep.Mirrors.reports h rfl).bind_same fun _ => .pure rfl
      | some asked =>
        exact .ite (.pure rfl) ((Prep.Mirrors.reports h rfl).bind_same fun _ => .pure rfl)
    · exact .pure rfl

theorem maxfun_mirrors (s? : Option Solver) (npt : Option Int) :
    Prep.Mirrors D F Eq (maxfun c s? npt) (maxfun d s? npt) := by
  simp only [maxfun, hcd.n_eq, hcd.find?_eq .maxfun (by decide)]
  split
  · exact .pure rfl
  · next value _ =>
    refine (Prep.Mirrors.same h.refl _).bind_same fun asked? => ?_
    cases asked? with
    | none => exact (Prep.Mirrors.reports h rfl).bind_same fun _ => .pure rfl
    | some asked =>
      refine .ite ((Prep.Mirrors.reports h rfl).bind_same fun _ => .pure rfl) ?_
      split
      · exact .ite ((Prep.Mirrors.reports h rfl).bind_same fun _ => .pure rfl) (.pure rfl)
      · exact .ite ((Prep.Mirrors.reports h rfl).bind_same fun _ => .pure rfl) (.pure rfl)
      · exact .pure rfl

theorem rhobeg_mirrors (s? : Option Solver) (default : α) :
    Prep.Mirrors D F Eq (rhobeg c s? default) (rhobeg d s? default) := by
  simp only [rhobeg, hcd.halfWidth_eq, hcd.find?_eq .rhobeg (by decide), fallbackRhobeg_eq hcd]
  have hfallback : Prep.Mirrors D F Eq (liftM (fallbackRhobeg c default) : Prep α α)
      (liftM (fallbackRhobeg c default)) := .lift (.refl h.refl _)
  refine (Prep.Mirrors.same h.refl _).bind_same fun halfWidth => ?_
  split
  · refine hfallback.bind_same fun value => ?_
    exact .pure rfl
  · next value _ =>
    refine (Prep.Mirrors.same h.refl _).bind_same fun asked? => ?_
    split
    · refine (Prep.Mirrors.reports h rfl).bind_same fun _ => hfallback.bind_same fun value => ?_
      exact .pure rfl
    · split
      · exact .ite ((Prep.Mirrors.reports h rfl).bind_same fun _ => .pure rfl) (.pure rfl)
      · exact .pure rfl

theorem rhoend_mirrors (rhobeg ratio : α) :
    Prep.Mirrors D F Eq (rhoend c rhobeg ratio) (rhoend d rhobeg ratio) := by
  simp only [rhoend, hcd.find?_eq .rhoend (by decide)]
  split
  · exact .pure rfl
  · refine (Prep.Mirrors.same h.refl _).bind_same fun asked? => ?_
    split
    · exact .pure rfl
    · exact (Prep.Mirrors.reports h rfl).bind_same fun _ => .pure rfl

theorem ftarget_mirrors : Prep.Mirrors D F Eq (ftarget c) (ftarget d) := by
  simp only [ftarget, hcd.find?_eq .ftarget (by decide)]
  split
  · exact .pure rfl
  · refine (Prep.Mirrors.same h.refl _).bind_same fun asked? => ?_
    split
    · exact .pure rfl
    · exact (Prep.Mirrors.reports h rfl).bind_same fun _ => .pure rfl

theorem flag_mirrors (name : FlagName) : Prep.Mirrors D F Eq (flag c name) (flag d name) := by
  have hname : name.option ≠ .solver := by cases name <;> decide
  simp only [flag, hcd.find?_eq _ hname]
  split
  · exact .pure rfl
  · refine (Prep.Mirrors.same h.refl _).bind_same fun asked? => ?_
    split
    · exact .pure rfl
    · exact (Prep.Mirrors.reports h rfl).bind_same fun _ => .pure rfl

theorem chkfunval_mirrors (debug : Bool) :
    Prep.Mirrors D F Eq (chkfunval c debug) (chkfunval d debug) := by
  simp only [chkfunval, hcd.find?_eq .chkfunval (by decide)]
  split
  · exact .pure rfl
  · refine (Prep.Mirrors.same h.refl _).bind_same fun asked? => ?_
    split
    · exact (Prep.Mirrors.reports h rfl).bind_same fun _ => .pure rfl
    · exact .ite ((Prep.Mirrors.reports h rfl).bind_same fun _ => .pure rfl) (.pure rfl)

/-- Options are resolved alike in contexts that agree, if the same solver is asked for and the unknown
options are reported alike. -/
theorem settings_mirrors (hsolver : Prep.Mirrors D F Eq (solver c) (solver d))
    (hunknown : ∀ s?, Prep.Mirrors D F Eq (checkUnknown c s?) (checkUnknown d s?)) :
    Prep.Mirrors D F Eq (settings c) (settings d) := by
  unfold settings
  refine hsolver.bind_same fun s? => ?_
  refine (hunknown s?).bind_same fun _ => ?_
  rw [defaultRadii_eq hcd]
  refine (Prep.Mirrors.same h.refl _).bind ?_
  rintro ⟨first, last⟩ _ rfl
  refine (npt_mirrors h hcd s?).bind_same fun npt => ?_
  refine (maxfun_mirrors h hcd s? npt).bind_same fun maxfun => ?_
  refine (rhobeg_mirrors h hcd s? first).bind_same fun rhobeg => ?_
  refine (rhoend_mirrors h hcd rhobeg _).bind_same fun rhoend => ?_
  refine (ftarget_mirrors h hcd).bind_same fun ftarget => ?_
  refine (flag_mirrors h hcd .classical).bind_same fun classical => ?_
  refine .step (.reports h rfl) ?_
  refine (flag_mirrors h hcd .scale).bind_same fun scale => ?_
  refine (flag_mirrors h hcd .quiet).bind_same fun quiet => ?_
  refine (flag_mirrors h hcd .debug).bind_same fun debug => ?_
  refine .step (.reports h rfl) ?_
  refine (chkfunval_mirrors h hcd debug).bind_same fun chkfunval => ?_
  exact .step (.reports h rfl) (.pure rfl)

end Presolve.Resolution
