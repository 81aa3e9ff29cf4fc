import Presolve.Proofs.Outcome

/-!
# Escalating warnings

A caller may turn a class of the program's warnings into errors. A preparation is built from a few kinds of steps, and
only one of them, the report, looks at what is escalated: it ends the run at a warning of the class. So a
run that escalates a class does what the run without escalation does, up to the first warning of the
class.

`Built` are the preparations that are built from these steps. What holds of them all follows by induction
on how they are built. Those that never look at the diagnostics so far are `Stepwise`: what they result in
does not depend on the journal that they start from.
-/

namespace Presolve

/-! ## Classes of warnings -/

/-- A class of the warnings of the program, by the categories that belong to it. The narrower categories of
one that belongs to it belong to it too. Warnings that arithmetic or other libraries give have no category
here: what a run does that turns those into errors is not said. -/
structure WarningClass where
  covers : Category → Bool
  covers_of_within : ∀ c wider, c.within wider = true → covers wider = true → covers c = true

namespace WarningClass

/-- A category and what is within it. -/
def ofCategory (wider : Category) : WarningClass where
  covers c := c.within wider
  covers_of_within c d hcd hd := by
    revert hcd hd
    cases c <;> cases d <;> cases wider <;> decide

/-- What a caller who escalates the class escalates, if any warning belongs to it. -/
def escalation (C : WarningClass) : Option Category :=
  [Category.preprocessing, .recoverableOption].find? C.covers

variable {ν : Type} [Notice ν]

/-- A warning of the class. -/
def Covers (C : WarningClass) (d : ν) : Prop := C.covers (Notice.category d) = true

/-- Escalated are the warnings of the class. -/
theorem isEscalated_iff (C : WarningClass) (d : ν) :
    DiagnosticLog.isEscalated C.escalation d = true ↔ C.Covers d := by
  have hwithin := C.covers_of_within .recoverableOption .preprocessing rfl
  unfold DiagnosticLog.isEscalated escalation Covers
  cases hpre : C.covers .preprocessing with
  | true =>
    -- every category is within the widest one
    rw [List.find?_cons_of_pos hpre]
    cases Notice.category d with
    | preprocessing => simp [Category.within, hpre]
    | recoverableOption => simp [Category.within, hwithin hpre]
  | false =>
    rw [List.find?_cons_of_neg (by simp [hpre])]
    cases hrec : C.covers .recoverableOption with
    | true =>
      rw [List.find?_cons_of_pos hrec]
      cases Notice.category d <;> simp [Category.within, hpre, hrec]
    | false =>
      rw [List.find?_cons_of_neg (by simp [hrec])]
      cases Notice.category d <;> simp [hpre, hrec]

end WarningClass

/-! ## Where a run stops -/

variable {α β γ : Type} [Interchange α]

/-- How a run that escalates a class ends, beside the one from the same journal that escalates nothing and
issues `added`: alike if none of these belongs to the class, and otherwise in the first one that does. -/
inductive WarningClass.Stops (C : WarningClass) (j : Journal α) (added : List (Diagnostic α))
    (plain escalated : Except Fault β × Journal α) : Prop where
  | nowhere (hnone : ∀ d ∈ added, ¬C.Covers d) (heq : escalated = plain)
  | first (before : List (Diagnostic α)) (d : Diagnostic α) (after : List (Diagnostic α))
      (hadded : added = before ++ d :: after) (hbefore : ∀ b ∈ before, ¬C.Covers b) (hd : C.Covers d)
      (hfault : escalated.1 = .error (.escalated (Notice.category d) (Notice.message d)))
      (hissued : escalated.2.log.issued = j.log.issued ++ before)

namespace Prep

/-- From the journal `j`, the preparation issues `added`, all of which it records, whatever is not
escalated; and what is escalated only decides where it stops. -/
structure Issues (p : Prep α β) (j : Journal α) (added : List (Diagnostic α)) : Prop where
  entries_eq : (p.outcome none j).2.log.entries = j.log.entries ++ added
  issued_eq : (p.outcome none j).2.log.issued = j.log.issued ++ added
  stops : ∀ C : WarningClass, C.Stops j added (p.outcome none j) (p.outcome C.escalation j)

namespace Issues

variable {p : Prep α β} {f : β → Prep α γ} {j : Journal α}

/-- A step that does not touch the log and does not look at what is escalated. -/
theorem silent (hlog : (p.outcome none j).2.log = j.log) (heq : ∀ e, p.outcome e j = p.outcome none j) :
    p.Issues j [] where
  entries_eq := by rw [hlog, List.append_nil]
  issued_eq := by rw [hlog, List.append_nil]
  stops _ := .nowhere (List.forall_mem_nil _) (heq _)

theorem report (source : String) (a : Anomaly α) (j : Journal α) :
    (Prep.report source a).Issues j [⟨source, a⟩] where
  entries_eq := rfl
  issued_eq := rfl
  stops C := by
    by_cases hcovers : C.Covers (⟨source, a⟩ : Diagnostic α)
    · have hadd : j.log.add false C.escalation ⟨source, a⟩ =
          (.error (.escalated (Notice.category (⟨source, a⟩ : Diagnostic α))
            (Notice.message (⟨source, a⟩ : Diagnostic α))),
          { j.log with entries := j.log.entries ++ [⟨source, a⟩] }) := by
        simp [DiagnosticLog.add, (C.isEscalated_iff _).2 hcovers]
      refine .first [] ⟨source, a⟩ [] rfl (List.forall_mem_nil _) hcovers ?_ ?_
      · rw [outcome_report, hadd]
      · rw [outcome_report, hadd, List.append_nil]
    · have hadd : j.log.add false C.escalation ⟨source, a⟩ = j.log.add false none ⟨source, a⟩ := by
        have hfalse : DiagnosticLog.isEscalated C.escalation (⟨source, a⟩ : Diagnostic α) = false :=
          Bool.eq_false_iff.2 (mt (C.isEscalated_iff _).1 hcovers)
        simp only [DiagnosticLog.add, hfalse]
        rfl
      refine .nowhere (fun d hd => ?_) ?_
      · rw [List.mem_singleton.1 hd]
        exact hcovers
      · rw [outcome_report, outcome_report, hadd]

/-- A run that ends in its first step issues what that step issues. -/
theorem bind_of_error {added : List (Diagnostic α)} {x : Fault} {l : Journal α} (h : p.Issues j added)
    (hp : p.outcome none j = (.error x, l)) : (p >>= f).Issues j added := by
  have hbind : (p >>= f).outcome none j = (.error x, l) := outcome_bind_of_error hp
  refine ⟨?_, ?_, fun C => ?_⟩
  · rw [hbind, ← h.entries_eq, hp]
  · rw [hbind, ← h.issued_eq, hp]
  · cases h.stops C with
    | nowhere hnone heq =>
      refine .nowhere hnone ?_
      rw [hbind, outcome_bind_of_error (heq.trans hp)]
    | first before d after hadded hbefore hd hfault hissued =>
      rw [outcome_bind_of_error (Prod.ext hfault rfl)]
      exact .first before d after hadded hbefore hd rfl hissued

/-- A run that goes on issues what both steps issue. An escalated run stops in the first step or goes on
from the same journal. -/
theorem bind_of_ok {added more : List (Diagnostic α)} {b : β} {l : Journal α} (h : p.Issues j added)
    (hp : p.outcome none j = (.ok b, l)) (hf : (f b).Issues l more) :
    (p >>= f).Issues j (added ++ more) := by
  have hbind : (p >>= f).outcome none j = (f b).outcome none l := outcome_bind_of_ok hp
  have hentries : l.log.entries = j.log.entries ++ added := by rw [← h.entries_eq, hp]
  have hl : l.log.issued = j.log.issued ++ added := by rw [← h.issued_eq, hp]
  refine ⟨?_, ?_, fun C => ?_⟩
  · rw [hbind, hf.entries_eq, hentries, List.append_assoc]
  · rw [hbind, hf.issued_eq, hl, List.append_assoc]
  · cases h.stops C with
    | first before d after hadded hbefore hd hfault hissued =>
      rw [outcome_bind_of_error (Prod.ext hfault rfl)]
      exact .first before d (after ++ more) (by simp [hadded]) hbefore hd rfl hissued
    | nowhere hnone heq =>
      have hescalated : (p >>= f).outcome C.escalation j = (f b).outcome C.escalation l :=
        outcome_bind_of_ok (heq.trans hp)
      cases hf.stops C with
      | nowhere hnone' heq' =>
        refine .nowhere (fun d hd => ?_) (by rw [hescalated, heq', hbind])
        exact (List.mem_append.1 hd).elim (hnone d) (hnone' d)
      | first before d after hmore hbefore hd hfault hissued =>
        refine .first (added ++ before) d after (by simp [hmore]) (fun b hb => ?_) hd ?_ ?_
        · exact (List.mem_append.1 hb).elim (hnone b) (hbefore b)
        · rw [hescalated, hfault]
        · rw [hescalated, hissued, hl, List.append_assoc]

end Issues

/-! ## Preparations built from steps -/

/-- A preparation that is built from computations without a journal, events and reports. -/
inductive Stepwise : {β : Type} → Prep α β → Prop where
  | lift {β : Type} (x : Except Fault β) : Stepwise (liftM x)
  | leave (v : Event α) : Stepwise (leave v)
  | report (source : String) (a : Anomaly α) : Stepwise (report source a)
  | bind {β γ : Type} {p : Prep α β} {f : β → Prep α γ} (hp : Stepwise p) (hf : ∀ b, Stepwise (f b)) :
      Stepwise (p >>= f)

namespace Stepwise

variable {p q : Prep α β}

theorem pure (b : β) : Stepwise (Pure.pure b : Prep α β) := lift (.ok b)

theorem throw (x : Fault) : Stepwise (MonadExcept.throw x : Prep α β) := lift (.error x)

/-- A report, and then what is done about the anomaly. -/
theorem reported (source : String) (a : Anomaly α) (b : β) :
    Stepwise (Prep.report source a >>= fun _ => Pure.pure b) :=
  (report source a).bind fun _ => pure b

theorem map (hp : Stepwise p) (g : β → γ) : Stepwise (g <$> p) := by
  rw [← bind_pure_comp]
  exact hp.bind fun _ => pure _

theorem ite {c : Prop} [Decidable c] (hp : Stepwise p) (hq : Stepwise q) :
    Stepwise (if c then p else q) := by
  split
  · exact hp
  · exact hq

/-- A step that is taken only sometimes. -/
theorem step {c : Prop} [Decidable c] {s : Prep α Unit} {g : Unit → Prep α β} (hs : Stepwise s)
    (hg : Stepwise (g ())) : Stepwise (if c then s >>= g else g ()) :=
  ite (hs.bind fun _ => hg) hg

/-- Whether a report ends the run depends on the report and on what is escalated. -/
theorem result_add (e : Option Category) (d : Diagnostic α) (l l' : DiagnosticLog (Diagnostic α)) :
    (l.add false e d).1 = (l'.add false e d).1 := by
  simp only [DiagnosticLog.add, Bool.false_eq_true, if_false]
  split <;> rfl

/-- The result does not depend on the journal so far. -/
theorem result_eq (hp : Stepwise p) (e : Option Category) (j j' : Journal α) :
    (p.outcome e j).1 = (p.outcome e j').1 := by
  induction hp generalizing j j' with
  | lift x => rfl
  | leave v => rfl
  | report source a => exact result_add e ⟨source, a⟩ j.log j'.log
  | @bind β γ p f hp hf ihp ihf =>
    have hfirst := ihp j j'
    rw [outcome_bind, outcome_bind]
    rcases h : p.outcome e j with ⟨x, l⟩
    rcases h' : p.outcome e j' with ⟨x', l'⟩
    rw [h, h'] at hfirst
    obtain rfl : x = x' := hfirst
    cases x with
    | error x => rfl
    | ok b => exact ihf b l l'

/-- A result is reached from every journal. -/
theorem exists_outcome (hp : Stepwise p) {e : Option Category} {j k : Journal α} {b : β}
    (h : p.outcome e j = (.ok b, k)) (j' : Journal α) : ∃ k', p.outcome e j' = (.ok b, k') := by
  refine ⟨(p.outcome e j').2, Prod.ext ?_ rfl⟩
  rw [hp.result_eq e j' j, h]

end Stepwise

/-- A preparation that is built from computations without a journal, events, reports, and looks at the
diagnostics so far. -/
inductive Built : {β : Type} → Prep α β → Prop where
  | lift {β : Type} (x : Except Fault β) : Built (liftM x)
  | leave (v : Event α) : Built (leave v)
  | report (source : String) (a : Anomaly α) : Built (report source a)
  | diagnostics : Built diagnostics
  | bind {β γ : Type} {p : Prep α β} {f : β → Prep α γ} (hp : Built p) (hf : ∀ b, Built (f b)) :
      Built (p >>= f)

theorem Stepwise.built {p : Prep α β} (hp : Stepwise p) : Built p := by
  induction hp with
  | lift x => exact .lift x
  | leave v => exact .leave v
  | report source a => exact .report source a
  | bind _ _ ihp ihf => exact .bind ihp ihf

namespace Built

variable {p : Prep α β}

theorem pure (b : β) : Built (Pure.pure b : Prep α β) := lift (.ok b)

/-- Whatever is built from steps records what it issues, and stops only at what is escalated. -/
theorem exists_issues (hp : Built p) (j : Journal α) : ∃ added, p.Issues j added := by
  induction hp generalizing j with
  | lift x => exact ⟨[], .silent rfl fun _ => rfl⟩
  | leave v => exact ⟨[], .silent rfl fun _ => rfl⟩
  | diagnostics => exact ⟨[], .silent rfl fun _ => rfl⟩
  | report source a => exact ⟨_, .report source a j⟩
  | @bind β γ p f hp hf ihp ihf =>
    obtain ⟨added, hadded⟩ := ihp j
    rcases h : p.outcome none j with ⟨x | b, l⟩
    · exact ⟨added, hadded.bind_of_error h⟩
    · obtain ⟨more, hmore⟩ := ihf b l
      exact ⟨added ++ more, hadded.bind_of_ok h hmore⟩

end Built

end Prep
end Presolve
