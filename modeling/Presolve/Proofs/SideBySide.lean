import Mathlib.Data.List.Forall2
import Presolve.Proofs.Outcome

/-!
# Two preparations side by side

What two preparations have in common is proved along both of them at once. They *mirror* each other if,
from logs whose entries are related, they end alike and leave logs whose entries are related again. There
is one rule for each way to build a preparation, so two preparations that are built alike mirror each
other as far as their steps do.

Which diagnostics and which faults count as related is a parameter. `Accord` is what relations of both
have to satisfy so that a stage mirrors itself when it is run in the name of two invokers.
-/

namespace Presolve

/-! ## Results side by side -/

section

variable {ε β β' γ γ' : Type}

/-- Two computations end alike: with results related by `R`, or in faults related by `F`. -/
inductive EndsAlike (F : ε → ε → Prop) (R : β → γ → Prop) : Except ε β → Except ε γ → Prop where
  | ok {b : β} {c : γ} (h : R b c) : EndsAlike F R (.ok b) (.ok c)
  | error {x y : ε} (h : F x y) : EndsAlike F R (.error x) (.error y)

namespace EndsAlike

variable {F : ε → ε → Prop} {R : β → γ → Prop} {R' : β' → γ' → Prop} {x : Except ε β}
  {y : Except ε γ}

theorem refl (hF : ∀ e, F e e) (x : Except ε β) : EndsAlike F Eq x x := by
  cases x with
  | ok b => exact .ok rfl
  | error e => exact .error (hF e)

/-- A computation ends as itself, with a result of its own. -/
theorem self (hF : ∀ e, F e e) (x : Except ε β) : EndsAlike F (fun b c => x = .ok b ∧ b = c) x x := by
  cases x with
  | ok b => exact .ok ⟨rfl, rfl⟩
  | error e => exact .error (hF e)

/-- The second computation has a result where the first one has. -/
theorem exists_ok (h : EndsAlike F R x y) {b : β} (hx : x = .ok b) : ∃ c, y = .ok c ∧ R b c := by
  cases h with
  | ok hbc =>
    cases hx
    exact ⟨_, rfl, hbc⟩
  | error _ => cases hx

theorem bind {f : β → Except ε β'} {g : γ → Except ε γ'} (h : EndsAlike F R x y)
    (hfg : ∀ b c, R b c → EndsAlike F R' (f b) (g c)) : EndsAlike F R' (x >>= f) (y >>= g) := by
  cases h with
  | ok hbc => exact hfg _ _ hbc
  | error he => exact .error he

/-- What is related more closely is related. -/
theorem mono {S : β → γ → Prop} (h : EndsAlike F R x y) (hRS : ∀ b c, R b c → S b c) :
    EndsAlike F S x y := by
  cases h with
  | ok hbc => exact .ok (hRS _ _ hbc)
  | error he => exact .error he

/-- Two computations that go on from the same result. -/
theorem bind_same {y : Except ε β} {f : β → Except ε β'} {g : β → Except ε γ'} (h : EndsAlike F Eq x y)
    (hfg : ∀ b, EndsAlike F R' (f b) (g b)) : EndsAlike F R' (x >>= f) (y >>= g) :=
  h.bind fun b _ hb => hb ▸ hfg b

/-- Two computations neither of which has a result. -/
theorem of_forall_ne (hx : ∀ b, x ≠ .ok b) (hy : ∀ c, y ≠ .ok c) : EndsAlike (fun _ _ => True) R x y := by
  cases x with
  | ok b => exact absurd rfl (hx b)
  | error e =>
    cases y with
    | ok c => exact absurd rfl (hy c)
    | error e' => exact .error trivial

/-- A computation ends as it does before its result is mapped. -/
theorem map_self (hF : ∀ e, F e e) (x : Except ε β) (f : β → γ) :
    EndsAlike F (fun b c => x = .ok b ∧ c = f b) x (x.map f) := by
  cases x with
  | ok b => exact .ok ⟨rfl, rfl⟩
  | error e => exact .error (hF e)

theorem map {f : β → β'} {g : γ → γ'} (h : EndsAlike F R x y)
    (hfg : ∀ b c, R b c → R' (f b) (g c)) : EndsAlike F R' (x.map f) (y.map g) := by
  cases h with
  | ok hbc => exact .ok (hfg _ _ hbc)
  | error he => exact .error he

end EndsAlike

end

/-! ## Values side by side, present or not -/

section

variable {β β' γ γ' : Type} {R : β → γ → Prop} {R' : β' → γ' → Prop} {x? : Option β} {y? : Option γ}

/-- Values that are related where they are present are so after a map that relates what it makes of them. -/
theorem rel_map {f : β → β'} {g : γ → γ'} (h : Option.Rel R x? y?)
    (hfg : ∀ b c, R b c → R' (f b) (g c)) : Option.Rel R' (x?.map f) (y?.map g) := by
  cases h with
  | none => exact .none
  | some hbc => exact .some (hfg _ _ hbc)

/-- Either both are present or none is. -/
theorem isSome_of_rel (h : Option.Rel R x? y?) : y?.isSome = x?.isSome := by
  cases h <;> rfl

end

/-! ## Logs side by side -/

/-- Two logs with related entries, of which related ones were issued. -/
structure DiagnosticLog.Mirrors {ν : Type} (D : ν → ν → Prop) (l l' : DiagnosticLog ν) : Prop where
  entries : List.Forall₂ D l.entries l'.entries
  issued : List.Forall₂ D l.issued l'.issued

/-- Empty logs mirror each other whatever the relation. -/
theorem DiagnosticLog.mirrors_empty {ν : Type} (D : ν → ν → Prop) :
    DiagnosticLog.Mirrors D {} {} := ⟨.nil, .nil⟩

/-- Logs with equal entries are equal. -/
theorem DiagnosticLog.Mirrors.eq {ν : Type} {l l' : DiagnosticLog ν} (h : l.Mirrors Eq l') : l = l' := by
  obtain ⟨hentries, hissued⟩ := h
  rw [List.forall₂_eq_eq_eq] at hentries hissued
  cases l
  cases l'
  simp only at hentries hissued
  rw [hentries, hissued]

/-! ## Reports of two invokers -/

section

variable {α : Type}

/-- Does the text of an anomaly name the invoker that reports it? -/
def Anomaly.namesInvoker : Anomaly α → Bool
  | unknownSolver | foreignSolver | unsuitableSolver _ _ => true
  | _ => false

/-- A text that does not name the invoker is the same for all of them. -/
theorem Anomaly.text_eq [Interchange α] {a : Anomaly α} (h : a.namesInvoker = false)
    (source source' : String) : a.text source' = a.text source := by
  cases a with
  | unknownSolver | foreignSolver | unsuitableSolver _ _ => cases h
  | unknownFields names | unknownOptions names =>
    rcases names with _ | ⟨_, _ | ⟨_, _⟩⟩ <;> rfl
  | _ => rfl

/-- Two reports or two faults are related if they differ in the invoker alone. An escalated report is a
fault like any other. -/
structure Accord [Interchange α] (D : Diagnostic α → Diagnostic α → Prop) (F : Fault → Fault → Prop)
    (source source' : String) : Prop where
  report : ∀ a : Anomaly α, a.namesInvoker = false → D ⟨source, a⟩ ⟨source', a⟩
  category : ∀ d d', D d d' → Notice.category d' = Notice.category d
  escalated : ∀ d d', D d d' → F (.escalated (Notice.category d) (Notice.message d))
    (.escalated (Notice.category d') (Notice.message d'))
  refl : ∀ x, F x x
  invalid : ∀ c, F (.invalid c source) (.invalid c source')

end

/-- The same reports and any two faults. -/
theorem Accord.eq {α : Type} [Interchange α] (source : String) :
    Accord (α := α) Eq (fun _ _ => True) source source where
  report _ _ := rfl
  category _ _ h := h ▸ rfl
  escalated _ _ _ := trivial
  refl _ := trivial
  invalid _ := trivial

/-- The same reports and the same faults. -/
theorem Accord.same {α : Type} [Interchange α] (source : String) :
    Accord (α := α) Eq Eq source source where
  report _ _ := rfl
  category _ _ h := h ▸ rfl
  escalated _ _ h := h ▸ rfl
  refl _ := rfl
  invalid _ := rfl

/-! ## Preparations side by side -/

namespace Prep

variable {α β β' γ γ' : Type}

/-- From logs with related entries, two preparations end alike and leave logs with related entries. -/
def Mirrors (D : Diagnostic α → Diagnostic α → Prop) (F : Fault → Fault → Prop)
    (R : β → γ → Prop) (p : Prep α β) (q : Prep α γ) : Prop :=
  ∀ e j k, j.log.Mirrors D k.log →
    EndsAlike F R (p.outcome e j).1 (q.outcome e k).1 ∧
      (p.outcome e j).2.log.Mirrors D (q.outcome e k).2.log

namespace Mirrors

variable {D : Diagnostic α → Diagnostic α → Prop} {F : Fault → Fault → Prop} {R : β → γ → Prop}
  {R' : β' → γ' → Prop} {p : Prep α β} {q : Prep α γ}

theorem pure {b : β} {c : γ} (h : R b c) :
    Mirrors D F R (Pure.pure b : Prep α β) (Pure.pure c : Prep α γ) :=
  fun _ _ _ hlog => ⟨.ok h, hlog⟩

theorem lift {x : Except Fault β} {y : Except Fault γ} (h : EndsAlike F R x y) :
    Mirrors D F R (liftM x : Prep α β) (liftM y : Prep α γ) :=
  fun _ _ _ hlog => ⟨h, hlog⟩

theorem same (hF : ∀ x, F x x) (x : Except Fault β) :
    Mirrors D F Eq (liftM x : Prep α β) (liftM x) := .lift (.refl hF x)

/-- Two computations whose results are known. -/
theorem known {x : Except Fault β} {y : Except Fault γ} {b : β} {c : γ} (hx : x = .ok b)
    (hy : y = .ok c) : Mirrors D F (fun b' c' => b' = b ∧ c' = c) (liftM x : Prep α β) (liftM y) := by
  rw [hx, hy]
  exact .lift (.ok ⟨rfl, rfl⟩)

theorem throw {x y : Fault} (h : F x y) :
    Mirrors D F R (MonadExcept.throw x : Prep α β) (MonadExcept.throw y : Prep α γ) :=
  fun _ _ _ hlog => ⟨.error h, hlog⟩

/-- Traces do not matter. -/
theorem leave (v w : Event α) : Mirrors D F Eq (Prep.leave v) (Prep.leave w) :=
  fun _ _ _ hlog => ⟨.ok rfl, hlog⟩

/-- The diagnostics so far are related as the logs are. -/
theorem diagnostics : Mirrors D F (List.Forall₂ D) Prep.diagnostics Prep.diagnostics :=
  fun _ _ _ hlog => ⟨.ok hlog.entries, hlog⟩

/-- Related reports are escalated together or issued together. -/
theorem report [Interchange α] {source source' speaker speaker' : String} {a a' : Anomaly α}
    (h : Accord D F source source') (hd : D ⟨speaker, a⟩ ⟨speaker', a'⟩) :
    Mirrors D F Eq (Prep.report speaker a) (Prep.report speaker' a') := by
  intro e j k hlog
  have hentries := List.rel_append hlog.entries (.cons hd .nil)
  have hissued := List.rel_append hlog.issued (.cons hd .nil)
  have hescalated : DiagnosticLog.isEscalated e (⟨speaker', a'⟩ : Diagnostic α)
      = DiagnosticLog.isEscalated e (⟨speaker, a⟩ : Diagnostic α) := by
    rw [DiagnosticLog.isEscalated, h.category _ _ hd, DiagnosticLog.isEscalated]
  rw [outcome_report, outcome_report]
  simp only [DiagnosticLog.add, Bool.false_eq_true, if_false, hescalated]
  split
  · exact ⟨.error (h.escalated _ _ hd), hentries, hlog.issued⟩
  · exact ⟨.ok rfl, hentries, hissued⟩

/-- The same anomaly, reported by two invokers. -/
theorem reports [Interchange α] {source source' : String} (h : Accord D F source source')
    {a : Anomaly α} (ha : a.namesInvoker = false) :
    Mirrors D F Eq (Prep.report source a) (Prep.report source' a) :=
  .report h (h.report a ha)

theorem bind {f : β → Prep α β'} {g : γ → Prep α γ'} (h : Mirrors D F R p q)
    (hfg : ∀ b c, R b c → Mirrors D F R' (f b) (g c)) : Mirrors D F R' (p >>= f) (q >>= g) := by
  intro e j k hlog
  obtain ⟨hends, hlogs⟩ := h e j k hlog
  rw [outcome_bind, outcome_bind]
  rcases hp : p.outcome e j with ⟨x, j'⟩
  rcases hq : q.outcome e k with ⟨y, k'⟩
  rw [hp, hq] at hends hlogs
  cases hends with
  | ok hbc => exact hfg _ _ hbc e j' k' hlogs
  | error hxy => exact ⟨.error hxy, hlogs⟩

/-- What is related more closely is related. -/
theorem mono {S : β → γ → Prop} (h : Mirrors D F R p q) (hRS : ∀ b c, R b c → S b c) :
    Mirrors D F S p q :=
  fun e j k hlog => ⟨(h e j k hlog).1.mono hRS, (h e j k hlog).2⟩

/-- Two preparations that go on from the same result. -/
theorem bind_same {q : Prep α β} {f : β → Prep α β'} {g : β → Prep α γ'} (h : Mirrors D F Eq p q)
    (hfg : ∀ b, Mirrors D F R' (f b) (g b)) : Mirrors D F R' (p >>= f) (q >>= g) :=
  h.bind fun b _ hb => hb ▸ hfg b

theorem map {f : β → β'} {g : γ → γ'} (h : Mirrors D F R p q)
    (hfg : ∀ b c, R b c → R' (f b) (g c)) : Mirrors D F R' (f <$> p) (g <$> q) := by
  rw [← bind_pure_comp, ← bind_pure_comp]
  exact h.bind fun b c hbc => .pure (hfg b c hbc)

theorem ite {c : Prop} [Decidable c] {p' : Prep α β} {q' : Prep α γ} (h : Mirrors D F R p q)
    (h' : Mirrors D F R p' q') :
    Mirrors D F R (if c then p else p') (if c then q else q') := by
  split
  · exact h
  · exact h'

/-- A step that is taken only sometimes. -/
theorem step {c : Prop} [Decidable c] {s t : Prep α Unit} {f : Unit → Prep α β} {g : Unit → Prep α γ}
    (hs : Mirrors D F Eq s t) (hfg : Mirrors D F R (f ()) (g ())) :
    Mirrors D F R (if c then s >>= f else f ()) (if c then t >>= g else g ()) :=
  .ite (hs.bind fun _ _ _ => hfg) hfg

/-- Where the first preparation succeeds, so does the second one, with a related result. -/
theorem exists_outcome {e : Option Category} {j j' k : Journal α} {b : β} (h : Mirrors D F R p q)
    (hp : p.outcome e j = (.ok b, j')) (hlog : j.log.Mirrors D k.log) :
    ∃ c k', q.outcome e k = (.ok c, k') ∧ R b c ∧ j'.log.Mirrors D k'.log := by
  obtain ⟨hends, hlogs⟩ := h e j k hlog
  rw [hp] at hends hlogs
  obtain ⟨c, hq, hbc⟩ := hends.exists_ok rfl
  exact ⟨c, _, Prod.ext hq rfl, hbc, hlogs⟩

end Mirrors

end Prep
end Presolve
